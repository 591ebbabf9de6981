import NetworkFileServer.Framework.OrderedDict
import NetworkFileServer.Framework.Text
import NetworkFileServer.Framework.TransitionSystem

/-!
# Connected devices

`connection_manager.py`: the dictionaries from device ids to sockets and to device infos, and the
broadcasts over them. A broadcast goes through a snapshot with an await at every send, notes the device
ids of the sends that fail, and drops these ids at its end, whichever socket they lead to by then.

A socket stands for one WebSocket connection, with what it connects with.
-/

namespace NetworkFileServer.Server

open TransitionSystem

inductive DeviceType where
  | phone
  | tablet
  | desktop
deriving DecidableEq, Repr

def parseDeviceType (userAgent : String) : DeviceType :=
  let uaLower := Text.lower userAgent
  if Text.contains uaLower "ipad" || Text.contains uaLower "tablet" then .tablet
  else if Text.contains uaLower "mobile" || Text.contains uaLower "android" ||
      Text.contains uaLower "iphone" then .phone
  else .desktop

structure DeviceInfo where
  deviceId : String
  deviceName : String
  ipAddress : String
  deviceType : DeviceType
  connectedAt : String
deriving DecidableEq, Repr

/-- What a socket passes to `connect`, and the time of it. -/
structure SocketClient where
  deviceId : String
  deviceName : String
  ipAddress : String
  userAgent : String
  connectedAt : String

def SocketClient.info (c : SocketClient) : DeviceInfo :=
  ⟨c.deviceId, c.deviceName, c.ipAddress, parseDeviceType c.userAgent, c.connectedAt⟩

structure ConnectionManager (ι : Type*) where
  activeConnections : OrderedDict String ι
  devices : OrderedDict String DeviceInfo

namespace ConnectionManager

variable {ι : Type*} (m : ConnectionManager ι)

def empty : ConnectionManager ι := ⟨[], []⟩

/-- `connect`, once the socket is accepted. -/
def connect (websocket : ι) (client : SocketClient) : ConnectionManager ι :=
  ⟨m.activeConnections.set client.deviceId websocket, m.devices.set client.deviceId client.info⟩

def disconnect (deviceId : String) : ConnectionManager ι :=
  ⟨m.activeConnections.erase deviceId, m.devices.erase deviceId⟩

def isCurrentConnection [DecidableEq ι] (deviceId : String) (websocket : ι) : Bool :=
  m.activeConnections.get deviceId = some websocket

/-- The loop at the end of a broadcast. -/
def disconnectAll (dead : List String) : ConnectionManager ι := dead.foldl disconnect m

/-- What a broadcast goes through; `broadcast_all` excludes no device. -/
def snapshot (excludeDevice : Option String) : List (String × ι) :=
  m.activeConnections.filter fun e => some e.1 ≠ excludeDevice

theorem disconnectAll_of_not_mem (dead : List String) (id : String) (h : id ∉ dead) :
    (m.disconnectAll dead).activeConnections.get id = m.activeConnections.get id ∧
      (m.disconnectAll dead).devices.get id = m.devices.get id := by
  unfold disconnectAll
  induction dead generalizing m with
  | nil => exact ⟨rfl, rfl⟩
  | cons d dead ih =>
      obtain ⟨hne, hrest⟩ := not_or.mp (mt List.mem_cons.mpr h)
      rw [List.foldl_cons]
      refine ⟨(ih _ hrest).1.trans ?_, (ih _ hrest).2.trans ?_⟩
      · exact OrderedDict.get_erase_of_ne _ _ _ hne
      · exact OrderedDict.get_erase_of_ne _ _ _ hne

theorem disconnectAll_of_mem (dead : List String) (id : String) (h : id ∈ dead) :
    (m.disconnectAll dead).activeConnections.get id = none := by
  unfold disconnectAll
  induction dead generalizing m with
  | nil => cases h
  | cons d dead ih =>
      rw [List.foldl_cons]
      by_cases hmem : id ∈ dead
      · exact ih _ hmem
      · obtain rfl := (List.mem_cons.mp h).resolve_right hmem
        exact ((m.disconnect id).disconnectAll_of_not_mem dead id hmem).1.trans
          (OrderedDict.get_erase_self _ _)

end ConnectionManager

/-- A broadcast that is going on: the sends before it, the next one first, and the ids whose send has
failed. -/
structure Broadcast (ι : Type*) where
  remaining : List (String × ι)
  dead : List String
deriving DecidableEq

/-- The manager and the broadcasts; the sockets that have connected, in this order, and those of them
whose endpoint has ended, or on which a send has failed. -/
structure ManagerSystem (ι : Type*) where
  manager : ConnectionManager ι
  broadcasts : List (Broadcast ι)
  connected : List ι
  ended : List ι
  failed : List ι

inductive ManagerAction (ι : Type*) where
  | connect (i : ι)
  /-- The `finally` of `websocket_endpoint`. -/
  | teardown (i : ι)
  | broadcast (excludeDevice : Option String)
  /-- The next send of broadcast `b` returns or raises. -/
  | send (b : Nat) (returns : Bool)
  /-- `send_to` a connected device returns or raises. -/
  | sendTo (deviceId : String) (returns : Bool)
deriving DecidableEq

namespace ManagerSystem

variable {ι : Type*} (client : ι → SocketClient)

def start : ManagerSystem ι := ⟨.empty, [], [], [], []⟩

/-- What is known about a socket after a send on it. -/
def failedAfter (s : ManagerSystem ι) (websocket : ι) (returns : Bool) : List ι :=
  if returns then s.failed else websocket :: s.failed

def deadAfter (dead : List String) (deviceId : String) (returns : Bool) : List String :=
  if returns then dead else dead ++ [deviceId]

def step [DecidableEq ι] (s : ManagerSystem ι) : ManagerAction ι → Option (ManagerSystem ι)
  | .connect i =>
      if i ∈ s.connected then none
      else some { s with manager := s.manager.connect i (client i), connected := s.connected ++ [i] }
  | .teardown i =>
      if i ∈ s.connected ∧ i ∉ s.ended then
        some { s with
          manager := if s.manager.isCurrentConnection (client i).deviceId i
            then s.manager.disconnect (client i).deviceId else s.manager
          ended := i :: s.ended }
      else none
  | .broadcast excludeDevice =>
      some { s with broadcasts := s.broadcasts ++ [⟨s.manager.snapshot excludeDevice, []⟩] }
  | .send b returns =>
      match s.broadcasts[b]? with
      | some ⟨(deviceId, websocket) :: remaining, dead⟩ =>
          let dead := deadAfter dead deviceId returns
          some { s with
            manager := if remaining = [] then s.manager.disconnectAll dead else s.manager
            broadcasts := s.broadcasts.set b ⟨remaining, dead⟩
            failed := s.failedAfter websocket returns }
      | _ => none
  | .sendTo deviceId returns =>
      (s.manager.activeConnections.get deviceId).map fun websocket =>
        { s with failed := s.failedAfter websocket returns }

/-- The last socket that has connected with the id. -/
def newest (connected : List ι) (deviceId : String) : Option ι :=
  (connected.filter fun i => (client i).deviceId = deviceId).getLast?

/-- The socket has connected, no newer one has its id, its endpoint has not ended and no send on it has
failed. -/
def Live (s : ManagerSystem ι) (i : ι) : Prop :=
  newest client s.connected (client i).deviceId = some i ∧ i ∉ s.ended ∧ i ∉ s.failed

/-- A live socket is the one that its device is represented by. -/
def NewestRegistered (s : ManagerSystem ι) : Prop :=
  ∀ i, s.Live client i → s.manager.activeConnections.get (client i).deviceId = some i ∧
    s.manager.devices.get (client i).deviceId = some (client i).info

/-- A broadcast that ends drops an id only where the socket that is registered under it by then is one
on which a send has failed. -/
def DropsFailedOnly [DecidableEq ι] (s : ManagerSystem ι) : ManagerAction ι → Bool
  | .send b returns =>
      match s.broadcasts[b]? with
      | some ⟨[(deviceId, websocket)], dead⟩ => (deadAfter dead deviceId returns).all fun id =>
          (s.manager.activeConnections.get id).all fun i => decide (i ∈ s.failedAfter websocket returns)
      | _ => true
  | _ => true

/-- Whatever is registered is the newest of its id and has not ended, and live sockets are registered. -/
structure Inv (s : ManagerSystem ι) : Prop where
  registered : ∀ id i, s.manager.activeConnections.get id = some i →
    newest client s.connected id = some i ∧ i ∉ s.ended
  ended : ∀ i ∈ s.ended, i ∈ s.connected
  live : s.NewestRegistered client

variable {client}

theorem deviceId_of_newest {connected : List ι} {id : String} {i : ι}
    (h : newest client connected id = some i) : (client i).deviceId = id := by
  have hmem := List.mem_of_getLast? h
  simpa using (List.mem_filter.mp hmem).2

theorem newest_concat (connected : List ι) (i : ι) (id : String) :
    newest client (connected ++ [i]) id =
      if (client i).deviceId = id then some i else newest client connected id := by
  unfold newest
  by_cases h : (client i).deviceId = id <;> simp [List.filter_append, h]

theorem inv_start : Inv client (start : ManagerSystem ι) where
  registered := by
    intro id i h
    cases h
  ended := by
    intro i hi
    cases hi
  live := by
    rintro i ⟨hnewest, -⟩
    cases hnewest

theorem mem_failedAfter (s : ManagerSystem ι) (websocket : ι) (returns : Bool) (i : ι) (hi : i ∈ s.failed) :
    i ∈ s.failedAfter websocket returns := by
  unfold failedAfter
  split
  · exact hi
  · exact List.mem_cons_of_mem _ hi

theorem inv_of_drops {s t : ManagerSystem ι} (hs : s.Inv client) (hconnected : t.connected = s.connected)
    (hended : t.ended = s.ended) (hfailed : ∀ i ∈ s.failed, i ∈ t.failed)
    (hdropped : ∀ id i, t.manager.activeConnections.get id = some i →
      s.manager.activeConnections.get id = some i)
    (hkept : ∀ i, t.Live client i → s.manager.activeConnections.get (client i).deviceId = some i →
      t.manager.activeConnections.get (client i).deviceId = some i ∧
        t.manager.devices.get (client i).deviceId = s.manager.devices.get (client i).deviceId) :
    t.Inv client where
  registered := by
    intro id i h
    rw [hconnected, hended]
    exact hs.registered id i (hdropped id i h)
  ended := by
    rw [hconnected, hended]
    exact hs.ended
  live := by
    intro i hi
    have hlive : s.Live client i :=
      ⟨hconnected ▸ hi.1, hended ▸ hi.2.1, fun hmem => hi.2.2 (hfailed i hmem)⟩
    obtain ⟨hactive, hdevice⟩ := hs.live i hlive
    obtain ⟨hactive', hdevice'⟩ := hkept i hi hactive
    exact ⟨hactive', hdevice'.trans hdevice⟩

theorem inv_connect {s : ManagerSystem ι} (hs : s.Inv client) (i : ι) (hnew : i ∉ s.connected) : Inv client
    { s with manager := s.manager.connect i (client i), connected := s.connected ++ [i] } where
  registered := by
    intro id j h
    simp only [ConnectionManager.connect] at h
    rw [newest_concat]
    by_cases hid : id = (client i).deviceId
    · subst hid
      rw [OrderedDict.get_set_self] at h
      cases h
      exact ⟨if_pos rfl, fun hmem => hnew (hs.ended i hmem)⟩
    · rw [OrderedDict.get_set_of_ne _ _ _ _ hid] at h
      rw [if_neg (Ne.symm hid)]
      exact hs.registered id j h
  ended := fun j hj => List.mem_append_left _ (hs.ended j hj)
  live := by
    rintro j ⟨hnewest, hj⟩
    rw [newest_concat] at hnewest
    simp only [ConnectionManager.connect]
    by_cases hid : (client j).deviceId = (client i).deviceId
    · rw [if_pos hid.symm] at hnewest
      cases hnewest
      exact ⟨OrderedDict.get_set_self _ _ _, OrderedDict.get_set_self _ _ _⟩
    · rw [if_neg (Ne.symm hid)] at hnewest
      rw [OrderedDict.get_set_of_ne _ _ _ _ hid, OrderedDict.get_set_of_ne _ _ _ _ hid]
      exact hs.live j ⟨hnewest, hj⟩

section

variable [DecidableEq ι]

theorem inv_teardown {s : ManagerSystem ι} (hs : s.Inv client) (i : ι) (hi : i ∈ s.connected) : Inv client
    { s with
      manager := if s.manager.isCurrentConnection (client i).deviceId i
        then s.manager.disconnect (client i).deviceId else s.manager
      ended := i :: s.ended } := by
  have hlive : ∀ j, newest client s.connected (client j).deviceId = some j ∧ j ∉ i :: s.ended ∧
      j ∉ s.failed → j ≠ i ∧ s.Live client j := by
    rintro j ⟨hnewest, hended, hfailed⟩
    obtain ⟨hne, hended⟩ := not_or.mp (mt List.mem_cons.mpr hended)
    exact ⟨hne, hnewest, hended, hfailed⟩
  have hended : ∀ j ∈ i :: s.ended, j ∈ s.connected := by
    intro j hj
    rcases List.mem_cons.mp hj with rfl | hj
    · exact hi
    · exact hs.ended j hj
  cases hcurrent : s.manager.isCurrentConnection (client i).deviceId i with
  | false =>
      have hnot : s.manager.activeConnections.get (client i).deviceId ≠ some i := by
        simpa [ConnectionManager.isCurrentConnection] using hcurrent
      refine ⟨?_, hended, ?_⟩
      · intro id j hj
        simp only [Bool.false_eq_true, ↓reduceIte] at hj ⊢
        obtain ⟨hnewest, hnotEnded⟩ := hs.registered id j hj
        refine ⟨hnewest, ?_⟩
        intro hmem
        rcases List.mem_cons.mp hmem with rfl | hmem
        · rw [deviceId_of_newest hnewest] at hnot
          exact hnot hj
        · exact hnotEnded hmem
      · intro j hj
        exact hs.live j (hlive j hj).2
  | true =>
      have hget : s.manager.activeConnections.get (client i).deviceId = some i := by
        simpa [ConnectionManager.isCurrentConnection] using hcurrent
      refine ⟨?_, hended, ?_⟩
      · intro id j hj
        simp only [↓reduceIte, ConnectionManager.disconnect] at hj ⊢
        have hid : id ≠ (client i).deviceId := by
          rintro rfl
          rw [OrderedDict.get_erase_self] at hj
          cases hj
        rw [OrderedDict.get_erase_of_ne _ _ _ hid] at hj
        obtain ⟨hnewest, hnotEnded⟩ := hs.registered id j hj
        refine ⟨hnewest, ?_⟩
        intro hmem
        rcases List.mem_cons.mp hmem with rfl | hmem
        · exact hid (deviceId_of_newest hnewest).symm
        · exact hnotEnded hmem
      · intro j hj
        obtain ⟨hne, hj⟩ := hlive j hj
        obtain ⟨hactive, hdevice⟩ := hs.live j hj
        have hid : (client j).deviceId ≠ (client i).deviceId := by
          intro heq
          rw [heq, hget] at hactive
          exact hne (Option.some.inj hactive).symm
        simp only [↓reduceIte, ConnectionManager.disconnect]
        rw [OrderedDict.get_erase_of_ne _ _ _ hid, OrderedDict.get_erase_of_ne _ _ _ hid]
        exact ⟨hactive, hdevice⟩

theorem inv_send {s : ManagerSystem ι} (hs : s.Inv client) (b : Nat) (returns : Bool) (deviceId : String)
    (websocket : ι) (remaining : List (String × ι)) (dead : List String)
    (hb : s.broadcasts[b]? = some ⟨(deviceId, websocket) :: remaining, dead⟩)
    (hcond : s.DropsFailedOnly (.send b returns) = true) : Inv client
      { s with
        manager := if remaining = [] then s.manager.disconnectAll (deadAfter dead deviceId returns)
          else s.manager
        broadcasts := s.broadcasts.set b ⟨remaining, deadAfter dead deviceId returns⟩
        failed := s.failedAfter websocket returns } := by
  cases remaining with
  | cons e remaining =>
      refine inv_of_drops hs rfl rfl (mem_failedAfter s websocket returns) ?_ ?_
      · exact fun id i h => h
      · exact fun i _ h => ⟨h, rfl⟩
  | nil =>
      have hfailed : ∀ id ∈ deadAfter dead deviceId returns, ∀ i,
          s.manager.activeConnections.get id = some i → i ∈ s.failedAfter websocket returns := by
        intro id hid i hi
        simp only [DropsFailedOnly, hb, List.all_eq_true] at hcond
        simpa [hi] using hcond id hid
      refine inv_of_drops hs rfl rfl (mem_failedAfter s websocket returns) ?_ ?_
      · intro id i h
        simp only [↓reduceIte] at h
        by_cases hid : id ∈ deadAfter dead deviceId returns
        · rw [s.manager.disconnectAll_of_mem _ id hid] at h
          cases h
        · rwa [(s.manager.disconnectAll_of_not_mem _ id hid).1] at h
      · intro i hlive hi
        have hid : (client i).deviceId ∉ deadAfter dead deviceId returns := by
          intro hmem
          exact hlive.2.2 (hfailed _ hmem i hi)
        obtain ⟨hactive, hdevice⟩ := s.manager.disconnectAll_of_not_mem _ _ hid
        simp only [↓reduceIte]
        exact ⟨hactive.trans hi, hdevice⟩

theorem inv_step (s : ManagerSystem ι) (a : ManagerAction ι) (t : ManagerSystem ι) (hs : s.Inv client)
    (hcond : s.DropsFailedOnly a = true) (h : s.step client a = some t) : t.Inv client := by
  cases a with
  | connect i =>
      simp only [step] at h
      split at h
      · cases h
      · rename_i hnew
        cases h
        exact inv_connect hs i hnew
  | teardown i =>
      simp only [step] at h
      split at h
      · rename_i hi
        cases h
        exact inv_teardown hs i hi.1
      · cases h
  | broadcast excludeDevice =>
      cases h
      exact inv_of_drops hs rfl rfl (fun i hi => hi) (fun id i h => h) fun i _ h => ⟨h, rfl⟩
  | send b returns =>
      simp only [step] at h
      split at h
      · rename_i deviceId websocket remaining dead hb
        cases h
        exact inv_send hs b returns deviceId websocket remaining dead hb hcond
      · cases h
  | sendTo deviceId returns =>
      obtain ⟨websocket, -, rfl⟩ := Option.map_eq_some_iff.mp h
      exact inv_of_drops hs rfl rfl (mem_failedAfter s websocket returns) (fun id i h => h)
        fun i _ h => ⟨h, rfl⟩

theorem not_newestRegistered_of_drop (s : ManagerSystem ι) (a : ManagerAction ι) (t : ManagerSystem ι)
    (hs : s.Inv client) (hcond : ¬s.DropsFailedOnly a = true) (h : s.step client a = some t) :
    ¬t.NewestRegistered client := by
  cases a with
  | send b returns =>
      simp only [step] at h
      split at h
      · rename_i deviceId websocket remaining dead hb
        cases h
        cases remaining with
        | cons e remaining => simp [DropsFailedOnly, hb] at hcond
        | nil =>
            simp only [DropsFailedOnly, hb, List.all_eq_true, not_forall] at hcond
            obtain ⟨id, hid, hfound⟩ := hcond
            obtain ⟨i, hi, hworks⟩ : ∃ i, s.manager.activeConnections.get id = some i ∧
                i ∉ s.failedAfter websocket returns := by
              cases hget : s.manager.activeConnections.get id with
              | none => simp [hget] at hfound
              | some i => exact ⟨i, rfl, by simpa [hget] using hfound⟩
            obtain ⟨hnewest, hended⟩ := hs.registered id i hi
            have hdevice := deviceId_of_newest hnewest
            intro hnewestRegistered
            have hactive := (hnewestRegistered i ⟨by rw [hdevice]; exact hnewest, hended, hworks⟩).1
            simp only [↓reduceIte, hdevice] at hactive
            rw [s.manager.disconnectAll_of_mem _ id hid] at hactive
            cases hactive
      · cases h
  | _ => exact absurd rfl hcond

/-- Every live socket represents its device in every state of a run exactly when no broadcast drops an
id under which a working socket is registered. -/
theorem newestRegistered_iff (client : ι → SocketClient) (actions : List (ManagerAction ι))
    (u : ManagerSystem ι) (hrun : run (step client) start actions = some u) :
    Throughout (step client) (NewestRegistered client) start actions ↔
      Guarded (step client) (fun s a => s.DropsFailedOnly a = true) start actions :=
  throughout_iff_guarded (step client) (fun s a => s.DropsFailedOnly a = true) (Inv client)
    (NewestRegistered client) (fun _ hs => hs.live) inv_step not_newestRegistered_of_drop inv_start hrun

end

/-- The sockets 0 and 2 are tabs of one browser. -/
def tabs : Fin 3 → SocketClient
  | 1 => ⟨"phone", "Fox", "10.0.0.7", "iPhone", "09:00"⟩
  | _ => ⟨"laptop", "Bear", "10.0.0.8", "X11", "09:00"⟩

/-- The first tab is closed after the second has connected. -/
def olderTabCloses : List (ManagerAction (Fin 3)) :=
  [.connect 0, .connect 1, .connect 2, .teardown 0, .broadcast none, .send 0 true, .send 0 true]

theorem newestRegistered_iff_olderTabCloses :
    Throughout (step tabs) (NewestRegistered tabs) start olderTabCloses := by
  obtain ⟨u, hrun⟩ : ∃ u, run (step tabs) start olderTabCloses = some u :=
    Option.isSome_iff_exists.mp (by decide +kernel)
  exact (newestRegistered_iff tabs olderTabCloses u hrun).mpr (by decide +kernel)

/-- A broadcast has the first tab in its snapshot, the second tab connects while it sends, and the send
to the first tab fails. -/
def olderSendFails : List (ManagerAction (Fin 3)) :=
  [.connect 0, .connect 1, .broadcast none, .connect 2, .send 0 false, .send 0 true]

/-- The second tab is connected, no send on it has failed, and its device is gone. -/
theorem not_newestRegistered_olderSendFails :
    ¬∀ (client : Fin 3 → SocketClient) (actions : List (ManagerAction (Fin 3))) (u : ManagerSystem (Fin 3)),
        run (step client) start actions = some u → u.NewestRegistered client := by
  intro h
  have hstate : (run (step tabs) start olderSendFails).map
      (fun u => (u.connected, u.ended, u.failed, u.manager.activeConnections)) =
        some ([0, 1, 2], [], [0], [("phone", 1)]) := by
    decide +kernel
  obtain ⟨u, hrun, hu⟩ := Option.map_eq_some_iff.mp hstate
  simp only [Prod.mk.injEq] at hu
  obtain ⟨hconnected, hended, hfailed, hactive⟩ := hu
  have hlive : u.Live tabs 2 := by
    unfold Live
    rw [hconnected, hended, hfailed]
    exact ⟨by decide +kernel, by decide, by decide⟩
  have hget := (h tabs olderSendFails u hrun 2 hlive).1
  rw [hactive] at hget
  revert hget
  decide +kernel

end ManagerSystem

end NetworkFileServer.Server
