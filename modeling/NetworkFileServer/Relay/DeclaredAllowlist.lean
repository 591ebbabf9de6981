import Mathlib.Data.List.Induction
import NetworkFileServer.Accounts.Database
import NetworkFileServer.Framework.KeyedTable
import NetworkFileServer.Relay.AccessDecision
import NetworkFileServer.Relay.Ownership

/-!
# The allowlist that an agent declares

From the owner's options through the `agent_auth` frame, the name resolution of `_read_agent_auth` and
the table `mount_policy` to the access decision. The table holds one row per subject, so of several
entries for the same subject the last one is left, whatever their roles are.
-/

namespace NetworkFileServer.Relay

open Accounts (Database AccountStore User)

open KeyedTable

/-- The entries are about the same subject. -/
def PolicyEntry.SameSubject (e e' : PolicyEntry) : Prop :=
  e.subjectType = e'.subjectType ∧ e.subjectId = e'.subjectId

theorem mem_foldl_replaceEntry (entries : List PolicyEntry) (e : PolicyEntry) :
    e ∈ entries.foldl Registry.replaceEntry [] ↔ LastOf PolicyEntry.SameSubject entries e := by
  induction entries using List.reverseRecOn with
  | nil => simp [LastOf]
  | append_singleton entries last ih =>
      rw [List.foldl_append, List.foldl_cons, List.foldl_nil, lastOf_concat, ← ih]
      simp only [Registry.replaceEntry, List.mem_append, List.mem_filter, decide_eq_true_eq,
        List.mem_singleton, PolicyEntry.SameSubject]
      constructor
      · rintro (⟨hmem, hother⟩ | rfl)
        · exact .inl ⟨hmem, fun hsame => hother ⟨hsame.1.symm, hsame.2.symm⟩⟩
        · exact .inr rfl
      · rintro (⟨hmem, hother⟩ | rfl)
        · exact .inl ⟨hmem, fun hsame => hother ⟨hsame.1.symm, hsame.2.symm⟩⟩
        · exact .inr rfl

def SubjectType.value : SubjectType → String
  | .user => "user"
  | .group => "group"

/-- An enumeration called with a value; `none` is a `ValueError`. -/
def enumMember {α : Type*} (members : List α) (value : α → String) (v : String) : Option α :=
  members.find? fun m => value m = v

theorem value_of_enumMember {α : Type*} {members : List α} {value : α → String} {v : String} {m : α}
    (h : enumMember members value v = some m) : value m = v :=
  of_decide_eq_true (List.find?_some (p := fun m => decide (value m = v)) h)

theorem enumMember_iff {α : Type*} (members : List α) (value : α → String) (hall : ∀ m, m ∈ members)
    (hvalue : Function.Injective value) (v : String) (m : α) : enumMember members value v = some m ↔ v = value m := by
  constructor
  · intro h
    exact (value_of_enumMember h).symm
  · rintro rfl
    cases h : enumMember members value (value m) with
    | none => simpa using List.find?_eq_none.mp h m (hall m)
    | some m' => rw [hvalue (value_of_enumMember h)]

theorem enumMember_subjectType (v : String) (t : SubjectType) :
    enumMember [.user, .group] SubjectType.value v = some t ↔ v = t.value :=
  enumMember_iff _ _ (by intro t; cases t <;> decide) (by intro t t'; cases t <;> cases t' <;> decide) v t

theorem enumMember_role (v : String) (role : Role) :
    enumMember [.read, .write, .receive] Role.value v = some role ↔ v = role.value :=
  enumMember_iff _ _ (by intro o; cases o <;> decide) (by intro o o'; cases o <;> cases o' <;> decide) v role

/-- An entry of `owner.allowlist`, as the agent was started with it. -/
structure AllowEntry where
  subjectType : SubjectType
  subjectRef : String
  role : Role
deriving DecidableEq

/-- An item of the frame. `subjectRef` is what `str` makes of the value; a missing key, and a type or
role that is no string, are `none`. -/
structure AllowlistItem where
  subjectType : Option String
  subjectRef : Option String
  role : Option String
deriving DecidableEq

/-- What `connect_and_serve` puts into the frame. -/
def AllowEntry.toItem (e : AllowEntry) : AllowlistItem :=
  ⟨some e.subjectType.value, some e.subjectRef, some e.role.value⟩

/-- The errors after which the socket is closed. -/
inductive AllowlistError where
  /-- `malformed allowlist entry` -/
  | malformed
  /-- `unknown ... in allowlist` -/
  | unknown (subjectType : SubjectType) (ref : String)
deriving DecidableEq

/-- `SubjectType(item["subject_type"])`, `str(item["subject_ref"])` and `Role(item["role"])`. -/
def AllowlistItem.parse (item : AllowlistItem) : Option AllowEntry :=
  match item.subjectType.bind (enumMember [.user, .group] SubjectType.value), item.subjectRef,
    item.role.bind (enumMember [.read, .write, .receive] Role.value) with
  | some subjectType, some ref, some role => some ⟨subjectType, ref, role⟩
  | _, _, _ => none

/-- `get_user_by_username` or `get_group_by_name`. -/
def AllowEntry.subjectId (d : Database) (e : AllowEntry) : Option Nat :=
  match e.subjectType with
  | .user => (d.userByUsername e.subjectRef).map (·.id)
  | .group => (d.groupByName e.subjectRef).map (·.id)

/-- The loop over the allowlist in `_read_agent_auth`. -/
def readAllowlist (d : Database) : List AllowlistItem → Except AllowlistError (List PolicyEntry)
  | [] => .ok []
  | item :: items =>
      match item.parse with
      | none => .error .malformed
      | some e =>
          match e.subjectId d with
          | none => .error (.unknown e.subjectType e.subjectRef)
          | some subjectId => (readAllowlist d items).map (⟨e.subjectType, subjectId, e.role⟩ :: ·)

theorem AllowEntry.parse_toItem (e : AllowEntry) : e.toItem.parse = some e := by
  have htype := (enumMember_subjectType e.subjectType.value e.subjectType).mpr rfl
  have hrole := (enumMember_role e.role.value e.role).mpr rfl
  simp only [toItem, AllowlistItem.parse, Option.bind_some, htype, hrole]

/-- The entry with its subject looked up. -/
def AllowEntry.resolve (d : Database) (e : AllowEntry) : PolicyEntry :=
  ⟨e.subjectType, (e.subjectId d).getD 0, e.role⟩

theorem readAllowlist_eq_ok (d : Database) (declared : List AllowEntry) (entries : List PolicyEntry)
    (h : readAllowlist d (declared.map AllowEntry.toItem) = .ok entries) :
    entries = declared.map (AllowEntry.resolve d) ∧ ∀ e ∈ declared, (e.subjectId d).isSome = true := by
  induction declared generalizing entries with
  | nil =>
      cases h
      exact ⟨rfl, by simp⟩
  | cons e declared ih =>
      simp only [List.map_cons, readAllowlist, e.parse_toItem] at h
      cases hid : e.subjectId d with
      | none => simp [hid] at h
      | some subjectId =>
          simp only [hid] at h
          cases hrest : readAllowlist d (declared.map AllowEntry.toItem) with
          | error err =>
              rw [hrest] at h
              cases h
          | ok rest =>
              rw [hrest] at h
              cases h
              obtain ⟨rfl, hall⟩ := ih rest hrest
              refine ⟨by simp [AllowEntry.resolve, hid], ?_⟩
              intro e' he'
              rcases List.mem_cons.mp he' with rfl | hmem
              · simp [hid]
              · exact hall e' hmem

/-- The declared subject is the user, or a group that contains the user. -/
def AllowEntry.Names (d : Database) (e : AllowEntry) (userId : Nat) : Prop :=
  ∃ u ∈ d.users, u.id = userId ∧
    match e.subjectType with
    | .user => u.username = e.subjectRef
    | .group => ∃ g ∈ d.groups, g.name = e.subjectRef ∧ d.toStore.InGroup (.user, userId) g.id

/-- The greatest-ranked role among the declared entries for the user. -/
def Greatest (d : Database) (declared : List AllowEntry) (userId : Nat) (role : Role) : Prop :=
  (∃ e ∈ declared, e.Names d userId ∧ e.role = role) ∧
    ∀ e ∈ declared, e.Names d userId → e.role.rank ≤ role.rank

/-- The decision for the user is the one that the declared entries ask for. -/
def Enforces (d : Database) (declared : List AllowEntry) (i : SessionIdentity)
    (decision : Except AuthorizeError AccessDecision) : Prop :=
  (∀ role, Greatest d declared i.userId role → decision = .ok (.identified i.username role)) ∧
    ((∀ e ∈ declared, ¬ e.Names d i.userId) → ∀ username role, decision ≠ .ok (.identified username role))

def AllowEntry.SameSubject (e e' : AllowEntry) : Prop :=
  e.subjectType = e'.subjectType ∧ e.subjectRef = e'.subjectRef

/-- One of the greatest-ranked entries for the user is the last one for its subject. -/
def GreatestComesLast (d : Database) (declared : List AllowEntry) (userId : Nat) : Prop :=
  (∀ e ∈ declared, ¬ e.Names d userId) ∨
    ∃ e, LastOf AllowEntry.SameSubject declared e ∧ e.Names d userId ∧
      ∀ e' ∈ declared, e'.Names d userId → e'.role.rank ≤ e.role.rank

theorem Role.rank_injective (role role' : Role) (h : role.rank = role'.rank) : role = role' := by
  cases role <;> cases role' <;> simp [rank] at h ⊢

theorem AllowEntry.matches_resolve (d : Database) (e : AllowEntry) (hid : (e.subjectId d).isSome = true)
    (userId : Nat) (huser : userId ∈ d.toStore.users) :
    (e.resolve d).Matches d.toStore userId ↔ e.Names d userId := by
  obtain ⟨u, hu, rfl⟩ := List.mem_map.mp huser
  obtain ⟨subjectId, hid⟩ := Option.isSome_iff_exists.mp hid
  obtain ⟨subjectType, ref, role⟩ := e
  cases subjectType with
  | user =>
      obtain ⟨v, hv, rfl⟩ := Option.map_eq_some_iff.mp hid
      obtain ⟨hvmem, hvname⟩ := (d.userByUsername_eq_some ref v).mp hv
      simp only [resolve, hid, Option.getD_some, PolicyEntry.Matches, Names]
      constructor
      · intro heq
        exact ⟨v, hvmem, heq, hvname⟩
      · rintro ⟨w, hw, hwid, hwname⟩
        have hsame : w = v := List.inj_on_of_nodup_map d.constraints.usernames hw hvmem
          (hwname.trans hvname.symm)
        rw [← hsame]
        exact hwid
  | group =>
      obtain ⟨g, hg, rfl⟩ := Option.map_eq_some_iff.mp hid
      obtain ⟨hgmem, hgname⟩ := (d.groupByName_eq_some ref g).mp hg
      simp only [resolve, hid, Option.getD_some, PolicyEntry.Matches, Names]
      constructor
      · intro hin
        exact ⟨u, hu, rfl, g, hgmem, hgname, hin⟩
      · rintro ⟨w, hw, hwid, g', hg', hg'name, hin⟩
        have hsame : g' = g := List.inj_on_of_nodup_map d.constraints.groupNames hg' hgmem
          (hg'name.trans hgname.symm)
        rw [← hsame]
        exact hin

theorem AllowEntry.sameSubject_resolve (d : Database) (e e' : AllowEntry)
    (hid : (e.subjectId d).isSome = true) (hid' : (e'.subjectId d).isSome = true) :
    (e.resolve d).SameSubject (e'.resolve d) ↔ e.SameSubject e' := by
  obtain ⟨subjectId, hid⟩ := Option.isSome_iff_exists.mp hid
  obtain ⟨subjectId', hid'⟩ := Option.isSome_iff_exists.mp hid'
  obtain ⟨subjectType, ref, role⟩ := e
  obtain ⟨subjectType', ref', role'⟩ := e'
  simp only [PolicyEntry.SameSubject, SameSubject, resolve, hid, hid', Option.getD_some]
  apply and_congr_right
  rintro rfl
  cases subjectType with
  | user =>
      obtain ⟨u, hu, rfl⟩ := Option.map_eq_some_iff.mp hid
      obtain ⟨u', hu', rfl⟩ := Option.map_eq_some_iff.mp hid'
      obtain ⟨hmem, rfl⟩ := (d.userByUsername_eq_some ref u).mp hu
      obtain ⟨hmem', rfl⟩ := (d.userByUsername_eq_some ref' u').mp hu'
      constructor
      · intro heq
        rw [List.inj_on_of_nodup_map d.constraints.userIds hmem hmem' heq]
      · intro heq
        rw [List.inj_on_of_nodup_map d.constraints.usernames hmem hmem' heq]
  | group =>
      obtain ⟨g, hg, rfl⟩ := Option.map_eq_some_iff.mp hid
      obtain ⟨g', hg', rfl⟩ := Option.map_eq_some_iff.mp hid'
      obtain ⟨hmem, rfl⟩ := (d.groupByName_eq_some ref g).mp hg
      obtain ⟨hmem', rfl⟩ := (d.groupByName_eq_some ref' g').mp hg'
      constructor
      · intro heq
        rw [List.inj_on_of_nodup_map d.constraints.groupIds hmem hmem' heq]
      · intro heq
        rw [List.inj_on_of_nodup_map d.constraints.groupNames hmem hmem' heq]

theorem getPolicy_storePolicy {κ : Type*} (r : SqliteRegistry κ) (now : ℚ) (auth : AgentAuth) (connection : κ)
    (generated : Code) (effectiveTtl : ℚ) (a : SqliteRegistry.Assignment κ)
    (hassign : r.assignCode now auth connection generated effectiveTtl = .ok a) :
    (SqliteRegistry.storePolicy auth a).getPolicy a.code =
      some ⟨auth.policy.accessMode, auth.policy.hasPassword,
        auth.policy.entries.foldl Registry.replaceEntry []⟩ := by
  obtain ⟨⟨row, hrow⟩, -⟩ :=
    SqliteRegistry.assignCode_frame r now auth connection generated effectiveTtl a hassign
  simp [SqliteRegistry.storePolicy, SqliteRegistry.setOwnerPolicy, SqliteRegistry.withRow, hrow,
    SqliteRegistry.getPolicy, SqliteRegistry.insertMount]

theorem exists_greatest (d : Database) (declared : List AllowEntry) (userId : Nat)
    (h : ∃ e ∈ declared, e.Names d userId) : ∃ role, Greatest d declared userId role := by
  classical
  obtain ⟨e, he, hnames⟩ := h
  let roles := (declared.filter fun e => decide (e.Names d userId)).map AllowEntry.role
  have hmem : ∀ role, role ∈ roles ↔ ∃ e ∈ declared, e.Names d userId ∧ e.role = role := by
    intro role
    simp [roles, and_assoc]
  have hne : roles ≠ [] := by
    intro hnil
    have hin := (hmem e.role).mpr ⟨e, he, hnames, rfl⟩
    rw [hnil] at hin
    cases hin
  obtain ⟨role, hrole⟩ := highestRole_isSome roles hne
  obtain ⟨hin, hmax⟩ := highestRole_mem roles role hrole
  refine ⟨role, (hmem role).mp hin, ?_⟩
  intro e' he' hnames'
  exact hmax e'.role ((hmem e'.role).mpr ⟨e', he', hnames', rfl⟩)

/-- For every declared allowlist whose subjects exist, on a mount that is then registered, over every
acyclic account store: the decision for a user is the one that was declared exactly if no declared
entry is for the user, or one of the greatest-ranked entries for the user is the last declared entry
for its subject. -/
theorem declaredAllowlist_enforced_iff {κ : Type*} (d : Database) (hacyclic : d.toStore.Acyclic)
    (declared : List AllowEntry) (entries : List PolicyEntry)
    (hread : readAllowlist d (declared.map AllowEntry.toItem) = .ok entries) (r : SqliteRegistry κ) (now : ℚ)
    (auth : AgentAuth) (hauth : auth.policy.entries = entries) (connection : κ) (generated : Code)
    (effectiveTtl : ℚ) (a : SqliteRegistry.Assignment κ)
    (hassign : r.assignCode now auth connection generated effectiveTtl = .ok a) (i : SessionIdentity) :
    Enforces d declared i (authorizeAccount ((SqliteRegistry.storePolicy auth a).getPolicy a.code)
      (some d.toStore) (some i)) ↔ GreatestComesLast d declared i.userId := by
  obtain ⟨rfl, hexist⟩ := readAllowlist_eq_ok d declared entries hread
  rw [getPolicy_storePolicy r now auth connection generated effectiveTtl a hassign, hauth]
  -- The rows of the table, in terms of the declared entries.
  have hrows : ∀ x, x ∈ (declared.map (AllowEntry.resolve d)).foldl Registry.replaceEntry [] ↔
      ∃ e, e.resolve d = x ∧ LastOf AllowEntry.SameSubject declared e := by
    intro x
    rw [mem_foldl_replaceEntry]
    apply lastOf_map
    intro e he e' he'
    exact e.sameSubject_resolve d e' (hexist e he) (hexist e' he')
  rcases authorizeAccount_cases ⟨auth.policy.accessMode, auth.policy.hasPassword,
      (declared.map (AllowEntry.resolve d)).foldl Registry.replaceEntry []⟩ d.toStore hacyclic (some i) with
    ⟨j, role, hj, huser, hdecision, ⟨x, hx, hmatches, hrole⟩, hmax⟩ | ⟨hnot, hdecision⟩
  · cases hj
    rw [hdecision]
    obtain ⟨e, rfl, hlast⟩ := (hrows x).mp hx
    have hnames := (e.matches_resolve d (hexist e hlast.mem) i.userId huser).mp hmatches
    constructor
    · intro henforces
      obtain ⟨greatest, hgreatest⟩ := exists_greatest d declared i.userId ⟨e, hlast.mem, hnames⟩
      have hdecided := henforces.1 greatest hgreatest
      have hsame : role = greatest := by
        injection hdecided with hidentified
        injection hidentified
      refine .inr ⟨e, hlast, hnames, ?_⟩
      intro e' he' hnames'
      have hle := hgreatest.2 e' he' hnames'
      rw [← hsame, ← hrole] at hle
      exact hle
    · rintro (hnone | ⟨e', hlast', hnames', hgreatest⟩)
      · exact absurd hnames (hnone e hlast.mem)
      · refine ⟨?_, fun hnone => absurd hnames (hnone e hlast.mem)⟩
        intro declaredRole hdeclared
        -- The role that was granted outranks `e'` and is declared itself.
        have hrow' := (hrows (e'.resolve d)).mpr ⟨e', rfl, hlast'⟩
        have hmatches' := (e'.matches_resolve d (hexist e' hlast'.mem) i.userId huser).mpr hnames'
        have hup : e'.role.rank ≤ role.rank := hmax _ hrow' hmatches'
        have hdown : role.rank ≤ e'.role.rank := by
          rw [← hrole]
          exact hgreatest e hlast.mem hnames
        obtain ⟨⟨e'', he'', hnames'', rfl⟩, hbound⟩ := hdeclared
        have hfirst := hgreatest e'' he'' hnames''
        have hsecond := hbound e' hlast'.mem hnames'
        rw [Role.rank_injective role e''.role (by omega)]
  · rw [hdecision]
    have hno : ∀ e ∈ declared, LastOf AllowEntry.SameSubject declared e → ¬ e.Names d i.userId := by
      intro e he hlast hnames
      have huser : i.userId ∈ d.toStore.users := by
        obtain ⟨u, hu, hid, -⟩ := hnames
        rw [← hid]
        exact List.mem_map_of_mem hu
      apply hnot
      exact ⟨i, rfl, huser, e.resolve d, (hrows _).mpr ⟨e, rfl, hlast⟩,
        (e.matches_resolve d (hexist e he) i.userId huser).mpr hnames⟩
    have hunidentified : ∀ username role, unidentified ⟨auth.policy.accessMode, auth.policy.hasPassword,
        (declared.map (AllowEntry.resolve d)).foldl Registry.replaceEntry []⟩ (some i) ≠
        .ok (.identified username role) := unidentified_ne_identified _ _
    constructor
    · intro henforces
      left
      intro e he hnames
      obtain ⟨greatest, hgreatest⟩ := exists_greatest d declared i.userId ⟨e, he, hnames⟩
      exact absurd (henforces.1 greatest hgreatest) (hunidentified _ _)
    · rintro (hnone | ⟨e, hlast, hnames, -⟩)
      · refine ⟨?_, fun _ => hunidentified⟩
        rintro role ⟨⟨e, he, hnames, -⟩, -⟩
        exact absurd hnames (hnone e he)
      · exact absurd hnames (hno e hlast.mem hlast)

/-- An account store with the user `alice`. -/
def aliceStore : Database where
  users := [⟨1, "alice", none, [1], 0, true⟩]
  groups := []
  memberships := []
  userQuota := fun _ => none
  externalIdentities := []
  lastUserId := 1
  lastGroupId := 0
  constraints := by constructor <;> simp

theorem aliceStore_acyclic : aliceStore.toStore.Acyclic :=
  AccountStore.acyclic_of_lt _ (by simp [aliceStore, Database.toStore])

/-- The agent of a restricted mount that declares these roles for `alice`. -/
def aliceAgent (roles : List Role) : AgentAuth :=
  ⟨some "photos", "10.0.0.7", some 7, ⟨.restricted, false, roles.map fun role => ⟨.user, 1, role⟩⟩⟩

theorem aliceAgent_registered (roles : List Role) :
    ∃ a, MountEvent.emptyRegistry.assignCode 0 (aliceAgent roles) 0 "spare" 100 = .ok a := by
  exact ⟨_, rfl⟩

theorem declaredAllowlist_enforced_iff_alice :
    ∃ a, MountEvent.emptyRegistry.assignCode 0 (aliceAgent [.read, .write]) 0 "spare" 100 = .ok a ∧
      (Enforces aliceStore [⟨.user, "alice", .read⟩, ⟨.user, "alice", .write⟩] ⟨1, "alice"⟩
        (authorizeAccount ((SqliteRegistry.storePolicy (aliceAgent [.read, .write]) a).getPolicy a.code)
          (some aliceStore.toStore) (some ⟨1, "alice"⟩)) ↔
        GreatestComesLast aliceStore [⟨.user, "alice", .read⟩, ⟨.user, "alice", .write⟩] 1) := by
  obtain ⟨a, ha⟩ := aliceAgent_registered [.read, .write]
  refine ⟨a, ha, ?_⟩
  exact declaredAllowlist_enforced_iff aliceStore aliceStore_acyclic _ (aliceAgent [.read, .write]).policy.entries
    (by decide) MountEvent.emptyRegistry 0 (aliceAgent [.read, .write]) rfl 0 "spare" 100 a ha ⟨1, "alice"⟩

/-- The owner declares `write` for `alice` and then `read`; what is enforced is `read`. -/
theorem declaredAllowlist_loses_write :
    ∃ entries a, readAllowlist aliceStore
        (List.map AllowEntry.toItem [⟨.user, "alice", .write⟩, ⟨.user, "alice", .read⟩]) = .ok entries ∧
      entries = (aliceAgent [.write, .read]).policy.entries ∧
      MountEvent.emptyRegistry.assignCode 0 (aliceAgent [.write, .read]) 0 "spare" 100 = .ok a ∧
      authorizeAccount ((SqliteRegistry.storePolicy (aliceAgent [.write, .read]) a).getPolicy a.code)
        (some aliceStore.toStore) (some ⟨1, "alice"⟩) = .ok (.identified "alice" .read) ∧
      ¬ Enforces aliceStore [⟨.user, "alice", .write⟩, ⟨.user, "alice", .read⟩] ⟨1, "alice"⟩
        (authorizeAccount ((SqliteRegistry.storePolicy (aliceAgent [.write, .read]) a).getPolicy a.code)
          (some aliceStore.toStore) (some ⟨1, "alice"⟩)) := by
  obtain ⟨a, ha⟩ := aliceAgent_registered [.write, .read]
  have hdecision : authorizeAccount ((SqliteRegistry.storePolicy (aliceAgent [.write, .read]) a).getPolicy a.code)
      (some aliceStore.toStore) (some ⟨1, "alice"⟩) = .ok (.identified "alice" .read) := by
    rw [getPolicy_storePolicy _ 0 (aliceAgent [.write, .read]) 0 "spare" 100 a ha]
    decide
  refine ⟨_, a, by decide, rfl, ha, hdecision, ?_⟩
  intro henforces
  rw [hdecision] at henforces
  have hwrite : Greatest aliceStore [⟨.user, "alice", .write⟩, ⟨.user, "alice", .read⟩] 1 .write := by
    refine ⟨⟨⟨.user, "alice", .write⟩, by simp, ⟨⟨1, "alice", none, [1], 0, true⟩, by simp [aliceStore], rfl, rfl⟩,
      rfl⟩, ?_⟩
    intro e he _
    cases e.role <;> decide
  cases henforces.1 .write hwrite

end NetworkFileServer.Relay
