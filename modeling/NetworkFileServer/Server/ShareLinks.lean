import Mathlib.Data.Rat.Floor
import NetworkFileServer.Framework.OrderedDict
import NetworkFileServer.Framework.TransitionSystem

/-!
# Share links

`ShareLinkService` with its store, one call after another. A token is made of the path and of the second
in which it is signed, and is the key of the link: two links for one path that are made in the same second
are one entry.
-/

namespace NetworkFileServer.Server

inductive LoadsError where
  | signatureExpired
  | badSignature
deriving DecidableEq

/-- The `URLSafeTimedSerializer` with its key and salt, for the payload `{"path": ...}`. Times are in whole
seconds; `loads` gets the second in which it is called and `max_age`. -/
structure ShareSerializer (τ : Type*) where
  dumps : ℤ → String → τ
  loads : ℤ → ℤ → τ → Except LoadsError String
  loads_dumps : ∀ signed now maxAge path, loads now maxAge (dumps signed path) =
    if now - signed > maxAge ∨ now - signed < 0 then .error .signatureExpired else .ok path

theorem ShareSerializer.dumps_injective {τ : Type*} (ser : ShareSerializer τ) (a b : ℤ) (p q : String)
    (h : ser.dumps a p = ser.dumps b q) : a = b ∧ p = q := by
  have hload : ∀ now maxAge, ser.loads now maxAge (ser.dumps a p) = ser.loads now maxAge (ser.dumps b q) := by
    intro now maxAge
    rw [h]
  simp only [ser.loads_dumps] at hload
  have hle : a ≤ b := by
    by_contra hlt
    have hfirst := hload a 0
    rw [if_neg (by omega), if_pos (by omega)] at hfirst
    cases hfirst
  have hge : b ≤ a := by
    by_contra hlt
    have hsecond := hload b 0
    rw [if_pos (by omega), if_neg (by omega)] at hsecond
    cases hsecond
  have hab : a = b := by omega
  subst hab
  have hpath := hload a 0
  rw [if_neg (by omega), if_neg (by omega)] at hpath
  exact ⟨rfl, Except.ok.inj hpath⟩

inductive ShareTTL where
  | fifteenMinutes
  | oneHour
  | sixHours
  | twentyFourHours
deriving DecidableEq

def ShareTTL.seconds : ShareTTL → ℤ
  | .fifteenMinutes => 900
  | .oneHour => 3600
  | .sixHours => 21600
  | .twentyFourHours => 86400

/-- `get_timestamp`, for times after the epoch. -/
def getTimestamp (now : ℚ) : ℤ := now.floor

structure ShareLinkRecord (τ : Type*) where
  token : τ
  filePath : String
  createdAt : ℚ
  ttlSeconds : ℤ
deriving DecidableEq

inductive ShareLinkError (τ : Type*) where
  | revoked (token : τ)
  | notFound (token : τ)
  | expired (token : τ)
  | badSignature
deriving DecidableEq

/-- `_active_links`, and the table `share_links` if there is a store. -/
structure ShareLinkService (τ : Type*) where
  activeLinks : OrderedDict τ (ShareLinkRecord τ)
  store : Option (OrderedDict τ (ShareLinkRecord τ))

namespace ShareLinkService

variable {τ : Type*} [DecidableEq τ] (ser : ShareSerializer τ)

def init (store : Option (OrderedDict τ (ShareLinkRecord τ))) : ShareLinkService τ :=
  ⟨(store.map OrderedDict.fill).getD [], store⟩

def createLink (s : ShareLinkService τ) (now : ℚ) (filePath : String) (ttl : ShareTTL) :
    ShareLinkService τ × ShareLinkRecord τ :=
  let record : ShareLinkRecord τ := ⟨ser.dumps (getTimestamp now) filePath, filePath, now, ttl.seconds⟩
  (⟨s.activeLinks.set record.token record, s.store.map fun rows => rows.set record.token record⟩, record)

/-- The entry goes from the dictionary and from the table; a row that is not there is no error. -/
def removeLink (s : ShareLinkService τ) (token : τ) : ShareLinkService τ :=
  ⟨s.activeLinks.erase token, s.store.map fun rows => rows.erase token⟩

def validateToken (s : ShareLinkService τ) (now : ℚ) (token : τ) :
    ShareLinkService τ × Except (ShareLinkError τ) String :=
  match s.activeLinks.get token with
  | none => (s, .error (.revoked token))
  | some record =>
      match ser.loads (getTimestamp now) record.ttlSeconds token with
      | .ok path => (s, .ok path)
      | .error .signatureExpired => (s.removeLink token, .error (.expired token))
      | .error .badSignature => (s, .error .badSignature)

def revokeLink (s : ShareLinkService τ) (token : τ) : ShareLinkService τ × Except (ShareLinkError τ) Unit :=
  match s.activeLinks.get token with
  | none => (s, .error (.notFound token))
  | some _ => (s.removeLink token, .ok ())

/-- The serializer accepts the token of the entry. -/
def loadable (now : ℚ) (entry : τ × ShareLinkRecord τ) : Bool :=
  match ser.loads (getTimestamp now) entry.2.ttlSeconds entry.1 with
  | .ok _ => true
  | .error _ => false

def listActiveLinks (s : ShareLinkService τ) (now : ℚ) : ShareLinkService τ × List (ShareLinkRecord τ) :=
  let active := (s.activeLinks.filter (loadable ser now)).map Prod.snd
  let expiredTokens := (s.activeLinks.filter fun e => !loadable ser now e).map Prod.fst
  (expiredTokens.foldl removeLink s, active)

end ShareLinkService

/-- A link that a call of `create_link` returned, and whether it has been revoked since. -/
structure ShareLink (τ : Type*) where
  record : ShareLinkRecord τ
  revoked : Bool

structure ShareHistory (τ : Type*) where
  service : ShareLinkService τ
  /-- One for each call of `create_link`. -/
  links : List (ShareLink τ)
  clock : ℚ

inductive ShareAction (τ : Type*) where
  | createLink (filePath : String) (ttl : ShareTTL)
  | validateToken (token : τ)
  | revokeLink (token : τ)
  | listActiveLinks
  /-- A new service over the same store. -/
  | restart

namespace ShareHistory

variable {τ : Type*} (ser : ShareSerializer τ)

/-- The age of a link, in the seconds of its time stamps. -/
def age (now : ℚ) (l : ShareLink τ) : ℤ := getTimestamp now - getTimestamp l.record.createdAt

/-- The token is one of a link for the path that has not been revoked and is within its TTL. -/
def Live (s : ShareHistory τ) (now : ℚ) (token : τ) (path : String) : Prop :=
  ∃ l ∈ s.links, l.record.token = token ∧ l.record.filePath = path ∧ l.revoked = false ∧
    age now l ≤ l.record.ttlSeconds

/-- Each call has its own token, and the entries of the dictionary are the links that have not been revoked,
less some that are past their TTL. -/
structure LinkInv (s : ShareHistory τ) : Prop where
  times : ∀ l ∈ s.links, l.record.createdAt ≤ s.clock
  tokens : ∀ l ∈ s.links, l.record.token = ser.dumps (getTimestamp l.record.createdAt) l.record.filePath
  distinct : (s.links.map (·.record.token)).Nodup
  sound : ∀ e ∈ s.service.activeLinks, ∃ l ∈ s.links, l.revoked = false ∧ e = (l.record.token, l.record)
  complete : ∀ l ∈ s.links, l.revoked = false → age s.clock l ≤ l.record.ttlSeconds →
    (l.record.token, l.record) ∈ s.service.activeLinks
  nodup : (s.service.activeLinks.map Prod.fst).Nodup
  stored : ∀ rows, s.service.store = some rows → rows = s.service.activeLinks

theorem getTimestamp_mono (a b : ℚ) (h : a ≤ b) : getTimestamp a ≤ getTimestamp b := Rat.floor_monotone h

theorem age_mono (a b : ℚ) (l : ShareLink τ) (h : a ≤ b) : age a l ≤ age b l := by
  have hmono := getTimestamp_mono a b h
  unfold age
  omega

theorem LinkInv.eq_of_token {ser : ShareSerializer τ} {s : ShareHistory τ} (hinv : LinkInv ser s)
    (l l' : ShareLink τ) (hl : l ∈ s.links) (hl' : l' ∈ s.links) (h : l.record.token = l'.record.token) : l = l' :=
  List.inj_on_of_nodup_map hinv.distinct hl hl' h

theorem LinkInv.loads_token {ser : ShareSerializer τ} {s : ShareHistory τ} (hinv : LinkInv ser s)
    (l : ShareLink τ) (hl : l ∈ s.links) (now : ℚ) (maxAge : ℤ) : ser.loads (getTimestamp now) maxAge l.record.token =
      if age now l > maxAge ∨ age now l < 0 then .error .signatureExpired else .ok l.record.filePath := by
  rw [hinv.tokens l hl, ser.loads_dumps]
  rfl

theorem LinkInv.age_nonneg {ser : ShareSerializer τ} {s : ShareHistory τ} (hinv : LinkInv ser s)
    (l : ShareLink τ) (hl : l ∈ s.links) (now : ℚ) (hnow : s.clock ≤ now) : 0 ≤ age now l := by
  have hmono := getTimestamp_mono _ _ ((hinv.times l hl).trans hnow)
  unfold age
  omega

theorem LinkInv.of_service {ser : ShareSerializer τ} {s : ShareHistory τ} (hinv : LinkInv ser s)
    (service : ShareLinkService τ) (now : ℚ) (hnow : s.clock ≤ now)
    (hsub : service.activeLinks.Sublist s.service.activeLinks)
    (hkeep : ∀ l ∈ s.links, age now l ≤ l.record.ttlSeconds →
      (l.record.token, l.record) ∈ s.service.activeLinks →
      (l.record.token, l.record) ∈ service.activeLinks)
    (hstored : ∀ rows, service.store = some rows → rows = service.activeLinks) :
    LinkInv ser ⟨service, s.links, now⟩ where
  times := by
    intro l hl
    exact (hinv.times l hl).trans hnow
  tokens := hinv.tokens
  distinct := hinv.distinct
  sound := by
    intro e he
    exact hinv.sound e (hsub.subset he)
  complete := by
    intro l hl hrevoked hage
    exact hkeep l hl hage (hinv.complete l hl hrevoked ((age_mono s.clock now l hnow).trans hage))
  nodup := hinv.nodup.sublist (hsub.map Prod.fst)
  stored := hstored

/-- No link for a path is made in the second of an earlier one. -/
def createsApart (s : ShareHistory τ) : ℚ × ShareAction τ → Bool
  | (now, .createLink filePath _) =>
      s.links.all fun l => l.record.filePath ≠ filePath || getTimestamp l.record.createdAt ≠ getTimestamp now
  | _ => true

theorem LinkInv.fresh_token {ser : ShareSerializer τ} {s : ShareHistory τ} (hinv : LinkInv ser s) (now : ℚ)
    (filePath : String) (ttl : ShareTTL) (hapart : createsApart s (now, .createLink filePath ttl) = true)
    (l : ShareLink τ) (hl : l ∈ s.links) : l.record.token ≠ ser.dumps (getTimestamp now) filePath := by
  intro heq
  rw [hinv.tokens l hl] at heq
  obtain ⟨hsecond, hpath⟩ := ser.dumps_injective _ _ _ _ heq
  have hall := List.all_eq_true.mp hapart l hl
  simp [hsecond, hpath] at hall

variable [DecidableEq τ]

def start (hasStore : Bool) (now : ℚ) : ShareHistory τ :=
  ⟨.init (if hasStore then some [] else none), [], now⟩

/-- The links after `revoke_link` has returned. -/
def markRevoked (links : List (ShareLink τ)) (token : τ) : List (ShareLink τ) :=
  links.map fun l => if l.record.token = token then { l with revoked := true } else l

/-- One call at a time that is not before the last one. -/
def step (s : ShareHistory τ) : ℚ × ShareAction τ → Option (ShareHistory τ)
  | (now, a) =>
      if now < s.clock then none
      else
        match a with
        | .createLink filePath ttl =>
            let (service, record) := s.service.createLink ser now filePath ttl
            some ⟨service, s.links ++ [⟨record, false⟩], now⟩
        | .validateToken token => some ⟨(s.service.validateToken ser now token).1, s.links, now⟩
        | .revokeLink token =>
            match s.service.revokeLink token with
            | (service, .ok ()) => some ⟨service, markRevoked s.links token, now⟩
            | (service, .error _) => some ⟨service, s.links, now⟩
        | .listActiveLinks => some ⟨(s.service.listActiveLinks ser now).1, s.links, now⟩
        | .restart => s.service.store.map fun rows => ⟨.init (some rows), s.links, now⟩

/-- A token is valid when its link is live, now and later, and a revoked token is not. -/
structure Lifecycle (s : ShareHistory τ) : Prop where
  valid : ∀ now ≥ s.clock, ∀ token path,
    (s.service.validateToken ser now token).2 = .ok path ↔ s.Live now token path
  revoked : ∀ l ∈ s.links, l.revoked = true → ∀ now path,
    (s.service.validateToken ser now l.record.token).2 ≠ .ok path

/-- The two services treat the token alike, and have it with the same path and TTL. -/
def SameLink (a b : ShareLinkService τ) (token : τ) : Prop :=
  (∀ now, (b.validateToken ser now token).2 = (a.validateToken ser now token).2) ∧
    b.activeLinks.get token = a.activeLinks.get token

/-- The step leaves the links of the other calls as they were. -/
def KeepsOthers (s : ShareHistory τ) (a : ℚ × ShareAction τ) (t : ShareHistory τ) : Prop :=
  match a.2 with
  | .createLink _ _ => ∀ l ∈ s.links, SameLink ser s.service t.service l.record.token
  | .revokeLink token =>
      ∀ i j : Nat, i ≠ j → (s.links[i]?).map (fun l => l.record.token) = some token →
        ∀ l ∈ s.links[j]?, SameLink ser s.service t.service l.record.token
  | _ => True

variable {ser}

theorem LinkInv.get_token {s : ShareHistory τ} (hinv : LinkInv ser s) (token : τ) (r : ShareLinkRecord τ)
    (h : s.service.activeLinks.get token = some r) :
    ∃ l ∈ s.links, l.revoked = false ∧ l.record.token = token ∧ l.record = r := by
  obtain ⟨l, hl, hlive, heq⟩ := hinv.sound _ (OrderedDict.mem_of_lookup _ token r h)
  cases heq
  exact ⟨l, hl, hlive, rfl, rfl⟩

theorem LinkInv.validate_iff {s : ShareHistory τ} (hinv : LinkInv ser s) (now : ℚ) (hnow : s.clock ≤ now)
    (token : τ) (path : String) :
    (s.service.validateToken ser now token).2 = .ok path ↔ s.Live now token path := by
  unfold ShareLinkService.validateToken
  cases hget : s.service.activeLinks.get token with
  | none =>
      simp only [reduceCtorEq, false_iff]
      rintro ⟨l, hl, rfl, -, hrevoked, hage⟩
      have hmem := hinv.complete l hl hrevoked ((age_mono s.clock now l hnow).trans hage)
      have hsome := OrderedDict.get_eq_some_of_mem _ _ _ hinv.nodup hmem
      rw [hget] at hsome
      cases hsome
  | some r =>
      obtain ⟨l, hl, hrevoked, rfl, rfl⟩ := hinv.get_token token r hget
      have hnonneg := hinv.age_nonneg l hl now hnow
      simp only [hinv.loads_token l hl now]
      by_cases hage : age now l ≤ l.record.ttlSeconds
      · rw [if_neg (by omega)]
        simp only [Except.ok.injEq]
        constructor
        · rintro rfl
          exact ⟨l, hl, rfl, rfl, hrevoked, hage⟩
        · rintro ⟨l', hl', htoken, rfl, -⟩
          rw [hinv.eq_of_token l' l hl' hl htoken]
      · rw [if_pos (by omega)]
        simp only [reduceCtorEq, false_iff]
        rintro ⟨l', hl', htoken, -, -, hage'⟩
        rw [hinv.eq_of_token l' l hl' hl htoken] at hage'
        exact hage hage'

theorem LinkInv.lifecycle {s : ShareHistory τ} (hinv : LinkInv ser s) : Lifecycle ser s where
  valid := by
    intro now hnow token path
    exact hinv.validate_iff now hnow token path
  revoked := by
    intro l hl hrevoked now path
    have hnone : s.service.activeLinks.get l.record.token = none := by
      cases hget : s.service.activeLinks.get l.record.token with
      | none => rfl
      | some r =>
          obtain ⟨l', hl', hlive, htoken, -⟩ := hinv.get_token _ r hget
          rw [hinv.eq_of_token l' l hl' hl htoken, hrevoked] at hlive
          cases hlive
    simp [ShareLinkService.validateToken, hnone]

theorem removeLink_stored (s : ShareLinkService τ) (token : τ)
    (h : ∀ rows, s.store = some rows → rows = s.activeLinks) :
    ∀ rows, (s.removeLink token).store = some rows → rows = (s.removeLink token).activeLinks := by
  intro rows hrows
  obtain ⟨rows', hrows', rfl⟩ := Option.map_eq_some_iff.mp hrows
  rw [h rows' hrows']
  rfl

theorem foldl_removeLink (s : ShareLinkService τ) (tokens : List τ)
    (h : ∀ rows, s.store = some rows → rows = s.activeLinks) :
    (tokens.foldl ShareLinkService.removeLink s).activeLinks =
        s.activeLinks.filter (fun e => decide (e.1 ∉ tokens)) ∧
      ∀ rows, (tokens.foldl ShareLinkService.removeLink s).store = some rows →
        rows = (tokens.foldl ShareLinkService.removeLink s).activeLinks := by
  induction tokens generalizing s with
  | nil => exact ⟨by simp, h⟩
  | cons token tokens ih =>
      obtain ⟨hactive, hstored⟩ := ih (s.removeLink token) (removeLink_stored s token h)
      refine ⟨?_, hstored⟩
      rw [List.foldl_cons, hactive]
      unfold ShareLinkService.removeLink OrderedDict.erase
      rw [List.filter_filter]
      apply List.filter_congr
      intro e _
      simp [Bool.and_comm]

theorem linkInv_validateToken {s : ShareHistory τ} (hinv : LinkInv ser s) (now : ℚ) (hnow : s.clock ≤ now)
    (token : τ) : LinkInv ser ⟨(s.service.validateToken ser now token).1, s.links, now⟩ := by
  have hsame : LinkInv ser ⟨s.service, s.links, now⟩ :=
    hinv.of_service s.service now hnow (List.Sublist.refl _) (fun _ _ _ h => h) hinv.stored
  unfold ShareLinkService.validateToken
  split
  · exact hsame
  · rename_i r hget
    split
    · exact hsame
    · rename_i hexpired
      apply hinv.of_service _ now hnow List.filter_sublist _ (removeLink_stored _ token hinv.stored)
      intro l hl hage hmem
      apply List.mem_filter.mpr
      refine ⟨hmem, ?_⟩
      -- the link of the token that is dropped is past its TTL
      obtain ⟨l', hl', -, rfl, rfl⟩ := hinv.get_token token r hget
      rw [hinv.loads_token l' hl' now] at hexpired
      have hpast : age now l' > l'.record.ttlSeconds ∨ age now l' < 0 := by
        by_contra hnot
        rw [if_neg hnot] at hexpired
        cases hexpired
      have hnonneg := hinv.age_nonneg l' hl' now hnow
      simp only [ne_eq, decide_not, Bool.not_eq_eq_eq_not, Bool.not_true, decide_eq_false_iff_not]
      intro heq
      rw [hinv.eq_of_token l l' hl hl' heq] at hage
      omega
    · exact hsame

theorem linkInv_listActiveLinks {s : ShareHistory τ} (hinv : LinkInv ser s) (now : ℚ) (hnow : s.clock ≤ now) :
    LinkInv ser ⟨(s.service.listActiveLinks ser now).1, s.links, now⟩ := by
  obtain ⟨hactive, hstored⟩ := foldl_removeLink s.service
    ((s.service.activeLinks.filter fun e => !ShareLinkService.loadable ser now e).map Prod.fst) hinv.stored
  refine hinv.of_service _ now hnow ?_ ?_ hstored
  · rw [ShareLinkService.listActiveLinks, hactive]
    exact List.filter_sublist
  · intro l hl hage hmem
    rw [ShareLinkService.listActiveLinks, hactive]
    apply List.mem_filter.mpr
    refine ⟨hmem, ?_⟩
    have hnonneg := hinv.age_nonneg l hl now hnow
    rw [decide_eq_true_eq]
    intro hexpired
    obtain ⟨e, he, heq⟩ := List.mem_map.mp hexpired
    obtain ⟨he, hfailed⟩ := List.mem_filter.mp he
    obtain ⟨l', hl', -, rfl⟩ := hinv.sound e he
    obtain rfl := hinv.eq_of_token l' l hl' hl heq
    have hloads := hinv.loads_token l' hl now l'.record.ttlSeconds
    rw [if_neg (by omega)] at hloads
    simp [ShareLinkService.loadable, hloads] at hfailed

theorem linkInv_restart {s : ShareHistory τ} (hinv : LinkInv ser s) (now : ℚ) (hnow : s.clock ≤ now)
    (rows : OrderedDict τ (ShareLinkRecord τ)) (hrows : s.service.store = some rows) :
    LinkInv ser ⟨.init (some rows), s.links, now⟩ := by
  have hfill : ShareLinkService.init (some rows) = s.service := by
    have hactive := hinv.stored rows hrows
    have hfilled := OrderedDict.fill_of_nodup _ hinv.nodup
    rw [← hactive] at hfilled
    simp only [ShareLinkService.init, Option.map_some, Option.getD_some, hfilled]
    rw [← hrows, hactive]
  rw [hfill]
  exact hinv.of_service s.service now hnow (List.Sublist.refl _) (fun _ _ _ h => h) hinv.stored

theorem linkInv_createLink {s : ShareHistory τ} (hinv : LinkInv ser s) (now : ℚ) (hnow : s.clock ≤ now)
    (filePath : String) (ttl : ShareTTL) (hapart : createsApart s (now, .createLink filePath ttl) = true) :
    LinkInv ser ⟨(s.service.createLink ser now filePath ttl).1,
      s.links ++ [⟨(s.service.createLink ser now filePath ttl).2, false⟩], now⟩ := by
  have hfresh := hinv.fresh_token now filePath ttl hapart
  have hnew : ∀ l, l ∈ s.links ++ [⟨(s.service.createLink ser now filePath ttl).2, false⟩] →
      l ∈ s.links ∨ l = ⟨⟨ser.dumps (getTimestamp now) filePath, filePath, now, ttl.seconds⟩, false⟩ := by
    intro l hl
    simpa [ShareLinkService.createLink] using hl
  constructor
  · intro l hl
    rcases hnew l hl with hold | rfl
    · exact (hinv.times l hold).trans hnow
    · exact le_rfl
  · intro l hl
    rcases hnew l hl with hold | rfl
    · exact hinv.tokens l hold
    · rfl
  · rw [List.map_append]
    apply List.nodup_append.mpr
    refine ⟨hinv.distinct, List.nodup_singleton _, ?_⟩
    intro token htoken token' htoken'
    obtain ⟨l, hl, rfl⟩ := List.mem_map.mp htoken
    obtain rfl := List.mem_singleton.mp htoken'
    exact hfresh l hl
  · intro e he
    rcases OrderedDict.mem_set_key _ _ _ e he with rfl | hold
    · exact ⟨_, List.mem_append_right _ List.mem_cons_self, rfl, rfl⟩
    · obtain ⟨l, hl, hlive⟩ := hinv.sound e hold
      exact ⟨l, List.mem_append_left _ hl, hlive⟩
  · intro l hl hrevoked hage
    rcases hnew l hl with hold | rfl
    · apply OrderedDict.mem_set_of_ne
      · exact hinv.complete l hold hrevoked ((age_mono s.clock now l hnow).trans hage)
      · exact hfresh l hold
    · exact OrderedDict.mem_set_self _ _ _
  · exact OrderedDict.nodup_set _ _ _ hinv.nodup
  · intro rows hrows
    obtain ⟨rows', hrows', rfl⟩ := Option.map_eq_some_iff.mp hrows
    rw [hinv.stored rows' hrows']
    rfl

theorem linkInv_revokeLink {s : ShareHistory τ} (hinv : LinkInv ser s) (now : ℚ) (hnow : s.clock ≤ now)
    (token : τ) : LinkInv ser ⟨s.service.removeLink token, markRevoked s.links token, now⟩ := by
  have hmark : ∀ l, l ∈ markRevoked s.links token → ∃ l' ∈ s.links, l.record = l'.record ∧
      (l.revoked = false → l' = l ∧ l.record.token ≠ token) := by
    intro l hl
    obtain ⟨l', hl', rfl⟩ := List.mem_map.mp hl
    refine ⟨l', hl', ?_⟩
    split
    · exact ⟨rfl, fun h => by cases h⟩
    · rename_i hne
      exact ⟨rfl, fun _ => ⟨rfl, hne⟩⟩
  constructor
  · intro l hl
    obtain ⟨l', hl', heq, -⟩ := hmark l hl
    rw [heq]
    exact (hinv.times l' hl').trans hnow
  · intro l hl
    obtain ⟨l', hl', heq, -⟩ := hmark l hl
    rw [heq]
    exact hinv.tokens l' hl'
  · have htokens : (markRevoked s.links token).map (·.record.token) = s.links.map (·.record.token) := by
      unfold markRevoked
      rw [List.map_map]
      apply List.map_congr_left
      intro l _
      simp only [Function.comp_apply]
      split <;> rfl
    rw [htokens]
    exact hinv.distinct
  · intro e he
    obtain ⟨he, hne⟩ := List.mem_filter.mp he
    obtain ⟨l, hl, hlive, rfl⟩ := hinv.sound e he
    have hother : l.record.token ≠ token := by simpa using hne
    exact ⟨l, List.mem_map.mpr ⟨l, hl, if_neg hother⟩, hlive, rfl⟩
  · intro l hl hrevoked hage
    obtain ⟨l', hl', -, hkept⟩ := hmark l hl
    obtain ⟨rfl, hne⟩ := hkept hrevoked
    apply List.mem_filter.mpr
    exact ⟨hinv.complete l' hl' hrevoked ((age_mono s.clock now l' hnow).trans hage), by simpa using hne⟩
  · exact OrderedDict.nodup_erase _ _ hinv.nodup
  · exact removeLink_stored _ token hinv.stored

variable (ser)

theorem linkInv_step (s : ShareHistory τ) (a : ℚ × ShareAction τ) (t : ShareHistory τ) (hinv : LinkInv ser s)
    (hapart : createsApart s a = true) (h : s.step ser a = some t) : LinkInv ser t := by
  obtain ⟨now, a⟩ := a
  simp only [step] at h
  split at h
  · cases h
  · rename_i hlate
    have hnow : s.clock ≤ now := not_lt.mp hlate
    cases a with
    | createLink filePath ttl =>
        cases h
        exact linkInv_createLink hinv now hnow filePath ttl hapart
    | validateToken token =>
        cases h
        exact linkInv_validateToken hinv now hnow token
    | revokeLink token =>
        simp only [ShareLinkService.revokeLink] at h
        cases hget : s.service.activeLinks.get token with
        | none =>
            simp only [hget] at h
            cases h
            exact hinv.of_service s.service now hnow (List.Sublist.refl _) (fun _ _ _ h => h) hinv.stored
        | some r =>
            simp only [hget] at h
            cases h
            exact linkInv_revokeLink hinv now hnow token
    | listActiveLinks =>
        cases h
        exact linkInv_listActiveLinks hinv now hnow
    | restart =>
        obtain ⟨rows, hrows, rfl⟩ := Option.map_eq_some_iff.mp h
        exact linkInv_restart hinv now hnow rows hrows

theorem sameLink_of_get (a b : ShareLinkService τ) (token : τ)
    (h : b.activeLinks.get token = a.activeLinks.get token) : SameLink ser a b token := by
  refine ⟨?_, h⟩
  intro now
  unfold ShareLinkService.validateToken
  rw [h]
  cases a.activeLinks.get token with
  | none => rfl
  | some r =>
      cases hloads : ser.loads (getTimestamp now) r.ttlSeconds token with
      | ok path => simp only [hloads]
      | error err => cases err <;> simp only [hloads]

theorem keepsOthers_step (s : ShareHistory τ) (a : ℚ × ShareAction τ) (hinv : LinkInv ser s)
    (hapart : createsApart s a = true) (t : ShareHistory τ) (h : s.step ser a = some t) :
    KeepsOthers ser s a t := by
  obtain ⟨now, a⟩ := a
  simp only [step] at h
  split at h
  · cases h
  · cases a with
    | createLink filePath ttl =>
        cases h
        intro l hl
        apply sameLink_of_get
        exact OrderedDict.get_set_of_ne _ _ _ _ (hinv.fresh_token now filePath ttl hapart l hl)
    | revokeLink token =>
        intro i j hij htoken l hl
        apply sameLink_of_get
        obtain ⟨l', hl', htoken⟩ := Option.map_eq_some_iff.mp htoken
        have hne : l.record.token ≠ token := by
          rintro heq
          have hsame : (s.links.map (·.record.token))[i]? = (s.links.map (·.record.token))[j]? := by
            rw [List.getElem?_map, List.getElem?_map, hl', hl, Option.map_some, Option.map_some, htoken, heq]
          have hbound : i < (s.links.map (·.record.token)).length := by
            rw [List.length_map]
            exact (List.getElem?_eq_some_iff.mp hl').1
          exact hij ((List.getElem?_inj hbound hinv.distinct).mp hsame)
        simp only [ShareLinkService.revokeLink] at h
        cases hget : s.service.activeLinks.get token with
        | none =>
            simp only [hget] at h
            cases h
            rfl
        | some r =>
            simp only [hget] at h
            cases h
            exact OrderedDict.get_erase_of_ne _ _ _ hne
    | validateToken token => trivial
    | listActiveLinks => trivial
    | restart => trivial

/-- Where no two links for a path are made in the same second, each link follows its own lifecycle. -/
theorem shareLinks_lifecycle (hasStore : Bool) (begin : ℚ) (as : List (ℚ × ShareAction τ))
    (hapart : TransitionSystem.Guarded (step ser) (fun s a => createsApart s a = true)
      (start hasStore begin) as) :
    TransitionSystem.Throughout (step ser) (Lifecycle ser) (start hasStore begin) as ∧
      TransitionSystem.Guarded (step ser) (fun s a => ∀ t, s.step ser a = some t → KeepsOthers ser s a t)
        (start hasStore begin) as := by
  have hstart : LinkInv ser (start hasStore begin : ShareHistory τ) := by
    constructor
    · simp [start]
    · simp [start]
    · simp [start]
    · cases hasStore <;> simp [start, ShareLinkService.init, OrderedDict.fill]
    · simp [start]
    · cases hasStore <;> simp [start, ShareLinkService.init, OrderedDict.fill]
    · cases hasStore <;> simp [start, ShareLinkService.init, OrderedDict.fill]
  constructor
  · exact TransitionSystem.throughout_of_guarded (step ser) _ (LinkInv ser) _
      (fun _ hinv => hinv.lifecycle) (linkInv_step ser) hstart hapart
  · exact TransitionSystem.guarded_of_invariant (step ser) _ _ (LinkInv ser) (keepsOthers_step ser)
      (linkInv_step ser) hstart hapart

/-- Tokens that can be read as they are. -/
def plainSerializer : ShareSerializer (ℤ × String) where
  dumps signed path := (signed, path)
  loads now maxAge token :=
    if now - token.1 > maxAge ∨ now - token.1 < 0 then .error .signatureExpired else .ok token.2
  loads_dumps := by
    intro signed now maxAge path
    rfl

/-- Two links for one path, of which the first is revoked, and a new start of the service. -/
def shareTwice : List (ℚ × ShareAction (ℤ × String)) :=
  [(10, .createLink "a.txt" .oneHour), (11, .createLink "a.txt" .fifteenMinutes),
    (12, .revokeLink (10, "a.txt")), (13, .restart)]

theorem shareLinks_lifecycle_shareTwice :
    ∃ u, TransitionSystem.run (step plainSerializer) (start true 0) shareTwice = some u ∧
      Lifecycle plainSerializer u ∧ u.Live 900 (11, "a.txt") "a.txt" ∧
      (u.service.validateToken plainSerializer 900 (11, "a.txt")).2 = .ok "a.txt" := by
  have heval : (TransitionSystem.run (step plainSerializer) (start true 0) shareTwice).any
      (fun u => (u.service.validateToken plainSerializer 900 (11, "a.txt")).2 = .ok "a.txt" &&
        decide (u.clock = 13)) = true := by
    decide +kernel
  obtain ⟨u, hrun, hu⟩ := (Option.any_eq_true _ _).mp heval
  obtain ⟨hvalid, hclock⟩ := (Bool.and_eq_true _ _).mp hu
  have hvalid := of_decide_eq_true hvalid
  have hclock : u.clock = 13 := of_decide_eq_true hclock
  have hlifecycle := (shareLinks_lifecycle plainSerializer true 0 shareTwice (by decide +kernel)).1.last hrun
  refine ⟨u, hrun, hlifecycle, ?_, hvalid⟩
  exact (hlifecycle.valid 900 (by rw [hclock]; norm_num) _ _).mp hvalid

/-- The second link takes the place of the first one, which was to be valid for a day. -/
def shareAgain : List (ℚ × ShareAction (ℤ × String)) :=
  [(10, .createLink "a.txt" .twentyFourHours), (10, .createLink "a.txt" .fifteenMinutes)]

/-- A link that has been revoked, and another one in the same second. -/
def shareRevoked : List (ℚ × ShareAction (ℤ × String)) :=
  [(10, .createLink "a.txt" .oneHour), (10, .revokeLink (10, "a.txt")), (10, .createLink "a.txt" .oneHour)]

theorem shareLinks_same_second :
    (∃ u, TransitionSystem.run (step plainSerializer) (start true 0) shareAgain = some u ∧
      u.clock ≤ 2000 ∧ u.Live 2000 (10, "a.txt") "a.txt" ∧
      (u.service.validateToken plainSerializer 2000 (10, "a.txt")).2 = .error (.expired (10, "a.txt")) ∧
      ¬Lifecycle plainSerializer u) ∧
    ∃ u, TransitionSystem.run (step plainSerializer) (start true 0) shareRevoked = some u ∧
      (∃ l ∈ u.links, l.revoked = true ∧ l.record.token = (10, "a.txt")) ∧
      (u.service.validateToken plainSerializer 20 (10, "a.txt")).2 = .ok "a.txt" ∧
      ¬Lifecycle plainSerializer u := by
  constructor
  · have heval : (TransitionSystem.run (step plainSerializer) (start true 0) shareAgain).any
        (fun u => decide (u.clock ≤ 2000 ∧ (∃ l ∈ u.links, l.record.token = (10, "a.txt") ∧
          l.record.filePath = "a.txt" ∧ l.revoked = false ∧ age 2000 l ≤ l.record.ttlSeconds) ∧
          (u.service.validateToken plainSerializer 2000 (10, "a.txt")).2 =
            .error (.expired (10, "a.txt")))) = true := by
      decide +kernel
    obtain ⟨u, hrun, hu⟩ := (Option.any_eq_true _ _).mp heval
    obtain ⟨hclock, hlive, hexpired⟩ := of_decide_eq_true hu
    refine ⟨u, hrun, hclock, hlive, hexpired, ?_⟩
    intro hlifecycle
    have hok := (hlifecycle.valid 2000 hclock _ _).mpr hlive
    rw [hexpired] at hok
    cases hok
  · have heval : (TransitionSystem.run (step plainSerializer) (start true 0) shareRevoked).any
        (fun u => decide ((∃ l ∈ u.links, l.revoked = true ∧ l.record.token = (10, "a.txt")) ∧
          (u.service.validateToken plainSerializer 20 (10, "a.txt")).2 = .ok "a.txt")) = true := by
      decide +kernel
    obtain ⟨u, hrun, hu⟩ := (Option.any_eq_true _ _).mp heval
    obtain ⟨⟨l, hl, hrevoked, htoken⟩, hvalid⟩ := of_decide_eq_true hu
    refine ⟨u, hrun, ⟨l, hl, hrevoked, htoken⟩, hvalid, ?_⟩
    intro hlifecycle
    exact hlifecycle.revoked l hl hrevoked 20 "a.txt" (htoken ▸ hvalid)

end ShareHistory

end NetworkFileServer.Server
