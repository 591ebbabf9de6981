import NetworkFileServer.Relay.AccessDecision
import NetworkFileServer.Server.ModeGuard

/-!
# Granting more

The relay gives a user the role of the highest rank, and RECEIVE ranks above READ; the server lets
RECEIVE see less than READ. So a further entry or membership can take access away, and so can the
first entry of a user whom the server let in without a role.
-/

namespace NetworkFileServer.Server

open Relay Shared
open Accounts (AccountStore)

/-- One more allowlist entry, or one more group that the user is a member of. -/
inductive Grant where
  | entry (e : PolicyEntry)
  | membership (groupId : Nat)

namespace Grant

def policy (g : Grant) (p : MountPolicy) : MountPolicy :=
  match g with
  | .entry e => { p with entries := p.entries ++ [e] }
  | .membership _ => p

def store (g : Grant) (userId : Nat) (s : AccountStore) : AccountStore :=
  match g with
  | .entry _ => s
  | .membership groupId => { s with memberships := s.memberships ++ [⟨groupId, .user, userId⟩] }

end Grant

/-- The user exists, and an entry with the role matches. -/
def Granted (p : MountPolicy) (s : AccountStore) (userId : Nat) (role : Role) : Prop :=
  userId ∈ s.users ∧ ∃ e ∈ p.entries, e.Matches s userId ∧ e.role = role

section

variable (hmac : String → String → String) (config : AccessConfig) (stored : Option Secret)
  (headers : Headers) (validCookie : Bool)

/-- The request of a signed-in user gets through the relay and the server. -/
def Permitted (p : MountPolicy) (s : AccountStore) (i : SessionIdentity) (owners : OwnerTable)
    (op : Operation) : Prop :=
  ∃ decision, authorizeAccount (some p) (some s) (some i) = .ok decision ∧
    permits hmac config (forwardHeaders hmac headers decision stored) validCookie owners op = true

/-- When the grant takes nothing away: the server does not look at roles; the user still has none, or
now has WRITE; a user with a role does not go from READ to RECEIVE; and a user without a role was not
let in, or the server's own mode gave no more than the new role does. -/
def KeepsAccess (p : MountPolicy) (s : AccountStore) (i : SessionIdentity) (g : Grant) : Prop :=
  let before := Granted p s i.userId
  let after := Granted (g.policy p) (g.store i.userId s) i.userId
  ¬ Trusts config stored ∨ (∀ role, ¬ after role) ∨ after .write ∨
    ((∃ role, before role) ∧ (before .receive ∨ ¬ after .receive)) ∨
    ((∀ role, ¬ before role) ∧
      ((p.accessMode = .restricted ∧ p.hasPassword = false) ∨
        (config.hasPassword = true ∧ validCookie = false) ∨
        (after .receive ∧ config.receive = true) ∨ (¬ after .receive ∧ config.readOnly = true)))

end

section

variable (config : AccessConfig) (validCookie : Bool)

/-- Whatever is permitted for one identity is permitted for the other. -/
def PermitsMore (seen seen' : Option (String × Role)) : Prop :=
  ∀ owners op, permitsAs config seen validCookie owners op = true →
    permitsAs config seen' validCookie owners op = true

private theorem requireAllOwned_none (owners : OwnerTable) (paths : List String) :
    requireAllOwned none owners paths = .ok () := by
  induction paths with
  | nil => rfl
  | cons path paths ih => simpa [requireAllOwned, requireOwned] using ih

theorem inScope_none (owners : OwnerTable) (op : Operation) : op.inScope none owners = true := by
  cases op <;> simp [Operation.inScope, requireOwned, requireAllOwned_none, Except.isOk, Except.toBool]

theorem permitsMore_refl (seen : Option (String × Role)) : PermitsMore config validCookie seen seen :=
  fun _ _ h => h

theorem permitsMore_write (seen : Option (String × Role)) (user : String) :
    PermitsMore config validCookie seen (some (user, .write)) := by
  intro owners op _
  have hscope := inScope_none owners op
  cases op <;> simp_all [permitsAs, Operation.dependencies, Guard.passes, scopeOf]

theorem not_permitsMore_receive (user user' : String) :
    ¬ PermitsMore config validCookie (some (user, .read)) (some (user', .receive)) := by
  intro h
  have hsearch := h [] (.search "a" "") (by
    simp [permitsAs, Operation.dependencies, Guard.passes, Operation.inScope, scopeOf])
  simp [permitsAs, Operation.dependencies, Guard.passes, Operation.inScope, scopeOf] at hsearch

/-- The first role of a user is READ: nothing is lost on a read-only server, and nothing behind a
closed password gate. -/
theorem permitsMore_none_read (user : String) :
    PermitsMore config validCookie none (some (user, .read)) ↔
      (config.hasPassword = true ∧ validCookie = false) ∨ config.readOnly = true := by
  constructor
  · intro h
    by_contra hnot
    obtain ⟨hgate, hwrites⟩ := not_or.mp hnot
    have hopen : config.hasPassword = false ∨ validCookie = true := by
      cases hpassword : config.hasPassword <;> cases hcookie : validCookie <;> simp_all
    have hupload := h [] (.upload "") (by
      rcases hopen with hopen | hopen <;>
        simp [permitsAs, Operation.dependencies, Guard.passes, Operation.inScope, hopen, hwrites])
    simp [permitsAs, Operation.dependencies, Guard.passes] at hupload
  · intro h owners op hbefore
    have hscope := inScope_none owners op
    rcases h with ⟨hpassword, hcookie⟩ | hreadOnly
    · simp [permitsAs, hpassword, hcookie] at hbefore
    · cases op <;> simp_all [permitsAs, Operation.dependencies, Guard.passes, scopeOf]

theorem permitsMore_none_receive (user : String) :
    PermitsMore config validCookie none (some (user, .receive)) ↔
      (config.hasPassword = true ∧ validCookie = false) ∨ config.receive = true := by
  constructor
  · intro h
    by_contra hnot
    obtain ⟨hgate, hbrowse⟩ := not_or.mp hnot
    have hopen : config.hasPassword = false ∨ validCookie = true := by
      cases hpassword : config.hasPassword <;> cases hcookie : validCookie <;> simp_all
    have hsearch := h [] (.search "a" "") (by
      rcases hopen with hopen | hopen <;>
        simp [permitsAs, Operation.dependencies, Guard.passes, Operation.inScope, scopeOf, hopen, hbrowse])
    simp [permitsAs, Operation.inScope, scopeOf] at hsearch
  · intro h owners op hbefore
    rcases h with ⟨hpassword, hcookie⟩ | hreceive
    · simp [permitsAs, hpassword, hcookie] at hbefore
    · cases op <;> simp_all [permitsAs, Operation.dependencies, Guard.passes, Operation.inScope]

end

/-- The granted role that none of the granted roles outranks. -/
def TopRole (p : MountPolicy) (s : AccountStore) (userId : Nat) (role : Role) : Prop :=
  Granted p s userId role ∧ ∀ role', Granted p s userId role' → role'.rank ≤ role.rank

theorem topRole_cases (p : MountPolicy) (s : AccountStore) (userId : Nat) (role : Role)
    (h : TopRole p s userId role) :
    (role = .write ↔ Granted p s userId .write) ∧
      (role = .read → ¬ Granted p s userId .receive) ∧ (role = .receive → Granted p s userId .receive) := by
  obtain ⟨hgranted, hmax⟩ := h
  refine ⟨⟨?_, ?_⟩, ?_, ?_⟩
  · rintro rfl
    exact hgranted
  · intro hwrite
    have hrank := hmax .write hwrite
    cases role <;> simp [Role.rank] at hrank ⊢
  · rintro rfl hreceive
    have hrank := hmax .receive hreceive
    simp [Role.rank] at hrank
  · rintro rfl
    exact hgranted

theorem authorizeAccount_topRole (p : MountPolicy) (s : AccountStore) (hacyclic : s.Acyclic)
    (i : SessionIdentity) :
    (∃ role, TopRole p s i.userId role ∧
      authorizeAccount (some p) (some s) (some i) = .ok (.identified i.username role)) ∨
    ((∀ role, ¬ Granted p s i.userId role) ∧
      authorizeAccount (some p) (some s) (some i) = unidentified p (some i)) := by
  rcases authorizeAccount_cases p s hacyclic (some i) with
    ⟨j, role, hj, huser, hdecision, ⟨e, he, hmatches, hrole⟩, hmax⟩ | ⟨hnot, hdecision⟩
  · cases hj
    refine .inl ⟨role, ⟨⟨huser, e, he, hmatches, hrole⟩, ?_⟩, hdecision⟩
    rintro role' ⟨-, e', he', hmatches', rfl⟩
    exact hmax e' he' hmatches'
  · refine .inr ⟨?_, hdecision⟩
    rintro role ⟨huser, e, he, hmatches, -⟩
    exact hnot ⟨i, rfl, huser, e, he, hmatches⟩

theorem Grant.mem_store (g : Grant) (userId : Nat) (s : AccountStore) (m : Accounts.Membership)
    (h : m ∈ s.memberships) : m ∈ (g.store userId s).memberships := by
  cases g with
  | entry e => exact h
  | membership groupId => exact List.mem_append_left _ h

theorem Grant.matches_mono (g : Grant) (s : AccountStore) (userId : Nat) (e : PolicyEntry)
    (h : e.Matches s userId) : e.Matches (g.store userId s) userId := by
  unfold PolicyEntry.Matches at h ⊢
  cases hsubject : e.subjectType with
  | user => simpa [hsubject] using h
  | group =>
      simp only [hsubject] at h ⊢
      have hcontains : s.Contains ≤ (g.store userId s).Contains := by
        intro a b hab
        exact ⟨hab.1, g.mem_store userId s _ hab.2⟩
      exact Relation.TransGen.mono hcontains _ _ h

theorem Grant.granted_mono (g : Grant) (p : MountPolicy) (s : AccountStore) (userId : Nat) (role : Role)
    (h : Granted p s userId role) : Granted (g.policy p) (g.store userId s) userId role := by
  obtain ⟨huser, e, he, hmatches, hrole⟩ := h
  have huser' : userId ∈ (g.store userId s).users := by cases g <;> exact huser
  have he' : e ∈ (g.policy p).entries := by
    cases g with
    | entry e' => exact List.mem_append_left _ he
    | membership groupId => exact he
  exact ⟨huser', e, he', g.matches_mono s userId e hmatches, hrole⟩

theorem Grant.acyclic (g : Grant) (s : AccountStore) (userId : Nat) (h : s.Acyclic) :
    (g.store userId s).Acyclic := by
  cases g with
  | entry e => exact h
  | membership groupId =>
      -- From a group on, every member on the way is a group, so the new row is not used.
      have hold : ∀ a b, Relation.TransGen (Grant.store (.membership groupId) userId s).Contains a b →
          a.1 = .group → Relation.TransGen s.Contains a b ∧ b.1 = .group := by
        intro a b hab hgroup
        have hedge : ∀ c d, c.1 = .group → (Grant.store (.membership groupId) userId s).Contains c d →
            s.Contains c d := by
          intro c d hc hcd
          refine ⟨hcd.1, ?_⟩
          rcases List.mem_append.mp hcd.2 with hmem | hnew
          · exact hmem
          · have heq := List.mem_singleton.mp hnew
            have htype : c.1 = .user := congrArg Accounts.Membership.memberType heq
            rw [hc] at htype
            cases htype
        induction hab with
        | single hdirect => exact ⟨.single (hedge _ _ hgroup hdirect), hdirect.1⟩
        | tail _ hdirect ih => exact ⟨ih.1.tail (hedge _ _ ih.2 hdirect), hdirect.1⟩
      intro gr hcycle
      exact h gr (hold _ _ hcycle rfl).1

theorem Grant.unidentified_policy (g : Grant) (p : MountPolicy) (identity : Option SessionIdentity) :
    unidentified (g.policy p) identity = unidentified p identity := by
  cases g <;> rfl

/-- The decision without a role: the request is passed on, or refused on a restricted mount that has
no password. -/
private theorem unidentified_cases (p : MountPolicy) (i : SessionIdentity) :
    (¬ (p.accessMode = .restricted ∧ p.hasPassword = false) ∧
      ∃ name, unidentified p (some i) = .ok (.passthrough name)) ∨
    ((p.accessMode = .restricted ∧ p.hasPassword = false) ∧
      ∃ e, unidentified p (some i) = .error e) := by
  unfold unidentified
  cases hmode : p.accessMode with
  | «open» => exact .inl ⟨by simp, _, rfl⟩
  | legacy => exact .inl ⟨by simp, _, rfl⟩
  | restricted =>
      cases hpassword : p.hasPassword with
      | true => exact .inl ⟨by simp, none, by simp⟩
      | false => exact .inr ⟨⟨rfl, rfl⟩, _, by simp; rfl⟩

section

variable (hmac : String → String → String) (hhex : HexDigests hmac) (hfree : CollisionFree hmac)
  (config : AccessConfig) (stored : Option Secret) (headers : Headers) (validCookie : Bool)

include hhex hfree

private theorem permitted_of_ok (p : MountPolicy) (s : AccountStore) (i : SessionIdentity)
    (decision : AccessDecision) (h : authorizeAccount (some p) (some s) (some i) = .ok decision)
    (owners : OwnerTable) (op : Operation) :
    Permitted hmac config stored headers validCookie p s i owners op ↔
      permitsAs config (seenIdentity config stored decision) validCookie owners op = true := by
  unfold Permitted
  rw [h]
  constructor
  · rintro ⟨decision', heq, hpermits⟩
    cases heq
    rwa [permits_forwardHeaders hmac hhex hfree] at hpermits
  · intro hpermits
    exact ⟨decision, rfl, by rwa [permits_forwardHeaders hmac hhex hfree]⟩

private theorem permitted_mono_iff (p p' : MountPolicy) (s s' : AccountStore) (i : SessionIdentity)
    (d d' : AccessDecision) (h : authorizeAccount (some p) (some s) (some i) = .ok d)
    (h' : authorizeAccount (some p') (some s') (some i) = .ok d') :
    (∀ owners op, Permitted hmac config stored headers validCookie p s i owners op →
      Permitted hmac config stored headers validCookie p' s' i owners op) ↔
      PermitsMore config validCookie (seenIdentity config stored d) (seenIdentity config stored d') := by
  simp only [permitted_of_ok hmac hhex hfree config stored headers validCookie p s i d h,
    permitted_of_ok hmac hhex hfree config stored headers validCookie p' s' i d' h', PermitsMore]

end

section

variable (config : AccessConfig) (stored : Option Secret) (validCookie : Bool) (p : MountPolicy)
  (s : AccountStore) (i : SessionIdentity) (g : Grant) (role' : Role)

private theorem permitsMore_iff_of_role (htrusts : Trusts config stored)
    (htop' : TopRole (g.policy p) (g.store i.userId s) i.userId role') (role : Role)
    (htop : TopRole p s i.userId role) :
    PermitsMore config validCookie (some (i.username, role)) (some (i.username, role')) ↔
      KeepsAccess config stored validCookie p s i g := by
  obtain ⟨hwrite', hread', -⟩ := topRole_cases _ _ _ _ htop'
  obtain ⟨-, hread, -⟩ := topRole_cases _ _ _ _ htop
  have hrank : role.rank ≤ role'.rank := htop'.2 role (g.granted_mono p s i.userId role htop.1)
  cases role' with
  | write =>
      exact iff_of_true (permitsMore_write config validCookie _ i.username)
        (.inr (.inr (.inl (hwrite'.mp rfl))))
  | read =>
      have hsame : role = .read := by cases role <;> simp [Role.rank] at hrank ⊢
      rw [hsame]
      exact iff_of_true (permitsMore_refl config validCookie _)
        (.inr (.inr (.inr (.inl ⟨⟨role, htop.1⟩, .inr (hread' rfl)⟩))))
  | receive =>
      cases role with
      | write => simp [Role.rank] at hrank
      | receive =>
          exact iff_of_true (permitsMore_refl config validCookie _)
            (.inr (.inr (.inr (.inl ⟨⟨.receive, htop.1⟩, .inl htop.1⟩))))
      | read =>
          refine iff_of_false (not_permitsMore_receive config validCookie _ _) ?_
          rintro (hnot | hnone | hwrite | ⟨-, hreceive | hnot⟩ | ⟨hnone, -⟩)
          · exact hnot htrusts
          · exact hnone .receive htop'.1
          · cases hwrite'.mpr hwrite
          · exact hread rfl hreceive
          · exact hnot htop'.1
          · exact hnone .read htop.1

private theorem permitsMore_iff_of_first (htrusts : Trusts config stored)
    (htop' : TopRole (g.policy p) (g.store i.userId s) i.userId role')
    (hnone : ∀ role, ¬ Granted p s i.userId role)
    (hopen : ¬ (p.accessMode = .restricted ∧ p.hasPassword = false)) :
    PermitsMore config validCookie none (some (i.username, role')) ↔
      KeepsAccess config stored validCookie p s i g := by
  obtain ⟨hwrite', hread', hreceive'⟩ := topRole_cases _ _ _ _ htop'
  -- What is left of the condition.
  have hkeeps : role' ≠ .write → (KeepsAccess config stored validCookie p s i g ↔
      (config.hasPassword = true ∧ validCookie = false) ∨
        (Granted (g.policy p) (g.store i.userId s) i.userId .receive ∧ config.receive = true) ∨
        (¬ Granted (g.policy p) (g.store i.userId s) i.userId .receive ∧ config.readOnly = true)) := by
    intro hne
    constructor
    · rintro (hnot | hgone | hwrite | ⟨⟨role, hrole⟩, -⟩ | ⟨-, hclosed | hrest⟩)
      · exact absurd htrusts hnot
      · exact absurd htop'.1 (hgone role')
      · exact absurd (hwrite'.mpr hwrite) hne
      · exact absurd hrole (hnone role)
      · exact absurd hclosed hopen
      · exact hrest
    · intro hrest
      exact .inr (.inr (.inr (.inr ⟨hnone, .inr hrest⟩)))
  cases role' with
  | write =>
      exact iff_of_true (permitsMore_write config validCookie _ i.username)
        (.inr (.inr (.inl (hwrite'.mp rfl))))
  | read =>
      have hnot := hread' rfl
      rw [permitsMore_none_read, hkeeps (by decide)]
      simp [hnot]
  | receive =>
      have hyes := hreceive' rfl
      rw [permitsMore_none_receive, hkeeps (by decide)]
      simp [hyes]

end

/-- A grant to a user takes nothing away, from the relay's decision to the server's guards, exactly
if the new role is not RECEIVE after READ and the first role gives no less than the server's own mode. -/
theorem grant_permits_iff (hmac : String → String → String) (hhex : HexDigests hmac)
    (hfree : CollisionFree hmac) (config : AccessConfig) (stored : Option Secret) (headers : Headers)
    (validCookie : Bool) (p : MountPolicy) (s : AccountStore) (hacyclic : s.Acyclic) (i : SessionIdentity)
    (g : Grant) :
    (∀ owners op, Permitted hmac config stored headers validCookie p s i owners op →
      Permitted hmac config stored headers validCookie (g.policy p) (g.store i.userId s) i owners op) ↔
      KeepsAccess config stored validCookie p s i g := by
  have hmonoIff := fun d d' => permitted_mono_iff hmac hhex hfree config stored headers validCookie p
    (g.policy p) s (g.store i.userId s) i d d'
  have hrefused : ∀ e, authorizeAccount (some p) (some s) (some i) = .error e → ∀ owners op,
      ¬ Permitted hmac config stored headers validCookie p s i owners op := by
    rintro e herror owners op ⟨d, hd, -⟩
    rw [herror] at hd
    cases hd
  rcases authorizeAccount_topRole (g.policy p) (g.store i.userId s) (g.acyclic s i.userId hacyclic) i with
    ⟨role', htop', hafter⟩ | ⟨hnone', hafter⟩
  · rcases authorizeAccount_topRole p s hacyclic i with ⟨role, htop, hbefore⟩ | ⟨hnone, hbefore⟩
    · rw [hmonoIff _ _ hbefore hafter]
      by_cases htrusts : Trusts config stored
      · simpa [seenIdentity, htrusts] using
          permitsMore_iff_of_role config stored validCookie p s i g role' htrusts htop' role htop
      · exact iff_of_true (by simpa [seenIdentity, htrusts] using permitsMore_refl config validCookie none)
          (.inl htrusts)
    · rcases unidentified_cases p i with ⟨hopen, name, hpass⟩ | ⟨hclosed, e, herror⟩
      · rw [hpass] at hbefore
        rw [hmonoIff _ _ hbefore hafter]
        by_cases htrusts : Trusts config stored
        · simpa [seenIdentity, htrusts] using
            permitsMore_iff_of_first config stored validCookie p s i g role' htrusts htop' hnone hopen
        · exact iff_of_true (by simpa [seenIdentity, htrusts] using permitsMore_refl config validCookie none)
            (.inl htrusts)
      · refine iff_of_true ?_ (.inr (.inr (.inr (.inr ⟨hnone, .inl hclosed⟩))))
        intro owners op hpermitted
        exact absurd hpermitted (hrefused e (hbefore.trans herror) owners op)
  · -- No role afterwards, so none before: the same decision.
    refine iff_of_true ?_ (.inr (.inl hnone'))
    have hbefore : authorizeAccount (some p) (some s) (some i) = unidentified p (some i) := by
      rcases authorizeAccount_topRole p s hacyclic i with ⟨role, htop, -⟩ | ⟨-, hbefore⟩
      · exact absurd (g.granted_mono p s i.userId role htop.1) (hnone' role)
      · exact hbefore
    rw [g.unidentified_policy] at hafter
    rintro owners op ⟨d, hd, hpermits⟩
    exact ⟨d, by rw [hafter, ← hbefore]; exact hd, hpermits⟩

/-- A mount without a password and without a mode of its own. -/
def plainConfig : AccessConfig := ⟨⟨some "abc", some aliceSecret⟩, false, false, false⟩

/-- Alice may read. -/
def readersPolicy : MountPolicy := ⟨.restricted, false, [⟨.user, 1, .read⟩]⟩

theorem grant_permits_iff_write :
    nestedStore.Acyclic ∧
      ∀ owners op, Permitted aliceHmac plainConfig (some aliceSecret) [] false readersPolicy nestedStore
          ⟨1, "alice"⟩ owners op →
        Permitted aliceHmac plainConfig (some aliceSecret) [] false
          (Grant.policy (.entry ⟨.group, 20, .write⟩) readersPolicy) nestedStore ⟨1, "alice"⟩ owners op := by
  have hacyclic : nestedStore.Acyclic := AccountStore.acyclic_of_lt nestedStore (by decide)
  have hteam : nestedStore.Contains (.user, 1) (.group, 10) := ⟨rfl, by decide⟩
  have horg : nestedStore.Contains (.group, 10) (.group, 20) := ⟨rfl, by decide⟩
  have hmatches : PolicyEntry.Matches ⟨.group, 20, .write⟩ nestedStore 1 :=
    Relation.TransGen.head hteam (Relation.TransGen.single horg)
  refine ⟨hacyclic, ?_⟩
  apply (grant_permits_iff aliceHmac aliceHmac_hexDigests aliceHmac_collisionFree plainConfig
    (some aliceSecret) [] false readersPolicy nestedStore hacyclic ⟨1, "alice"⟩
    (.entry ⟨.group, 20, .write⟩)).mpr
  exact .inr (.inr (.inl ⟨by decide, ⟨.group, 20, .write⟩, by decide, hmatches, rfl⟩))

/-- A RECEIVE entry for the organisation hides from Alice what she could read. -/
theorem receiveGrant_takes_download :
    nestedStore.Acyclic ∧
      Permitted aliceHmac plainConfig (some aliceSecret) [] false readersPolicy nestedStore ⟨1, "alice"⟩ []
        (.download "report.pdf") ∧
      ¬ Permitted aliceHmac plainConfig (some aliceSecret) [] false
        (Grant.policy (.entry ⟨.group, 20, .receive⟩) readersPolicy) nestedStore ⟨1, "alice"⟩ []
        (.download "report.pdf") := by
  have hbefore : authorizeAccount (some readersPolicy) (some nestedStore) (some ⟨1, "alice"⟩) =
      .ok (.identified "alice" .read) := by decide
  have hafter : authorizeAccount (some (Grant.policy (.entry ⟨.group, 20, .receive⟩) readersPolicy))
      (some nestedStore) (some ⟨1, "alice"⟩) = .ok (.identified "alice" .receive) := by decide
  refine ⟨AccountStore.acyclic_of_lt nestedStore (by decide), ?_, ?_⟩
  · rw [permitted_of_ok aliceHmac aliceHmac_hexDigests aliceHmac_collisionFree plainConfig _ _ _ _ _ _ _ hbefore]
    decide
  · rw [permitted_of_ok aliceHmac aliceHmac_hexDigests aliceHmac_collisionFree plainConfig _ _ _ _ _ _ _ hafter]
    decide

end NetworkFileServer.Server
