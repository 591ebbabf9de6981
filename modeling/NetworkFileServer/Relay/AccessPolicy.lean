import Mathlib.Data.List.Basic

/-!
# Who may use a mount

`access_policy.py` and the enumerations of the accounts package. The account store is outside of
the relay's registry: it is a function from a user to the groups of that user, which may change
between two requests.
-/

namespace NetworkFileServer.Relay

inductive Role where
  | read
  | write
  | receive
deriving DecidableEq, Repr

def Role.value : Role → String
  | .read => "read"
  | .write => "write"
  | .receive => "receive"

/-- `_ROLE_RANK`. -/
def Role.rank : Role → Nat
  | .read => 1
  | .receive => 2
  | .write => 3

inductive AccessMode where
  | «open»
  | restricted
  | legacy
deriving DecidableEq, Repr

inductive SubjectType where
  | user
  | group
deriving DecidableEq, Repr

structure PolicyEntry where
  subjectType : SubjectType
  subjectId : Nat
  role : Role
deriving DecidableEq, Repr

structure MountPolicy where
  accessMode : AccessMode
  hasPassword : Bool
  entries : List PolicyEntry
deriving DecidableEq, Repr

structure SessionIdentity where
  userId : Nat
  username : String
deriving DecidableEq, Repr

/-- `identified` is an allowlisted account with its effective role, `passthrough` a request that
the server's own password gate has to deal with. -/
inductive AccessDecision where
  | identified (username : String) (role : Role)
  | passthrough (username : Option String)
deriving DecidableEq, Repr

inductive AccessError where
  | authenticationRequired
  | accessDenied (username : String)
deriving DecidableEq, Repr

/-- `AccountStore.resolve_user_group_ids`; `none` is `UserNotFoundError`. -/
abbrev GroupIds := Nat → Option (List Nat)

/-- The entry is about the identity, directly or through one of its groups. -/
def PolicyEntry.covers (entry : PolicyEntry) (identity : SessionIdentity) (groups : List Nat) : Bool :=
  match entry.subjectType with
  | .user => entry.subjectId = identity.userId
  | .group => entry.subjectId ∈ groups

/-- `max(roles, key=...)`: the first role of the highest rank. -/
def highestRole : List Role → Option Role
  | [] => none
  | r :: rs => some (rs.foldl (fun best r => if best.rank < r.rank then r else best) r)

/-- `_matched_role`. The account store may be missing, and the user may have been deleted. -/
def matchedRole (policy : MountPolicy) (identity : SessionIdentity) (store : Option GroupIds) :
    Option Role :=
  match store.bind fun groupIds => groupIds identity.userId with
  | none => none
  | some groups =>
      highestRole ((policy.entries.filter fun e => e.covers identity groups).map PolicyEntry.role)

/-- `authorize`; `none` for the policy is a `MountNotFoundError`. -/
def authorize (policy : Option MountPolicy) (store : Option GroupIds)
    (identity : Option SessionIdentity) : Except AccessError AccessDecision :=
  match policy with
  | none => .ok (.passthrough none)
  | some policy =>
      match identity.bind fun i => (matchedRole policy i store).map fun role => (i.username, role) with
      | some (username, role) => .ok (.identified username role)
      | none =>
          match policy.accessMode with
          | .legacy | .open => .ok (.passthrough (identity.map SessionIdentity.username))
          | .restricted =>
              if policy.hasPassword then .ok (.passthrough none)
              else
                match identity with
                | none => .error .authenticationRequired
                | some i => .error (.accessDenied i.username)

/-- The identity is on the allowlist, directly or through its groups. -/
def OnAllowlist (entries : List PolicyEntry) (store : Option GroupIds)
    (identity : Option SessionIdentity) : Prop :=
  ∃ i groupIds groups, identity = some i ∧ store = some groupIds ∧ groupIds i.userId = some groups ∧
    ∃ e ∈ entries, e.covers i groups = true

theorem highestRole_eq_some (roles : List Role) (role : Role) (h : highestRole roles = some role) :
    roles ≠ [] := by
  rintro rfl
  cases h

private theorem foldl_highest (rs : List Role) (best : Role) :
    rs.foldl (fun best r => if best.rank < r.rank then r else best) best ∈ best :: rs ∧
      ∀ r ∈ best :: rs, r.rank ≤ (rs.foldl (fun best r => if best.rank < r.rank then r else best) best).rank := by
  induction rs generalizing best with
  | nil => simp
  | cons r rs ih =>
      rw [List.foldl_cons]
      obtain ⟨hmem, hmax⟩ := ih (if best.rank < r.rank then r else best)
      have hhead := hmax _ List.mem_cons_self
      have hbest : best.rank ≤ (if best.rank < r.rank then r else best).rank := by split <;> omega
      have hnew : r.rank ≤ (if best.rank < r.rank then r else best).rank := by split <;> omega
      refine ⟨?_, ?_⟩
      · rcases List.mem_cons.mp hmem with heq | hrest
        · rw [heq]
          split <;> simp
        · simp [hrest]
      · intro r' hr'
        rcases List.mem_cons.mp hr' with rfl | hr'
        · exact Nat.le_trans hbest hhead
        · rcases List.mem_cons.mp hr' with rfl | hrest
          · exact Nat.le_trans hnew hhead
          · exact hmax r' (List.mem_cons_of_mem _ hrest)

theorem highestRole_mem (roles : List Role) (role : Role) (h : highestRole roles = some role) :
    role ∈ roles ∧ ∀ r ∈ roles, r.rank ≤ role.rank := by
  cases roles with
  | nil => cases h
  | cons r rs =>
      cases h
      exact foldl_highest rs r

theorem highestRole_isSome (roles : List Role) (h : roles ≠ []) : ∃ role, highestRole roles = some role := by
  cases roles with
  | nil => exact absurd rfl h
  | cons r rs => exact ⟨_, rfl⟩

theorem matchedRole_covers (policy : MountPolicy) (identity : SessionIdentity)
    (store : Option GroupIds) (role : Role) (h : matchedRole policy identity store = some role) :
    OnAllowlist policy.entries store (some identity) := by
  unfold matchedRole at h
  split at h
  · cases h
  · rename_i groups hgroups
    obtain ⟨groupIds, hstore, hids⟩ := Option.bind_eq_some_iff.mp hgroups
    have hne := highestRole_eq_some _ role h
    have hmatched : (policy.entries.filter fun e => e.covers identity groups) ≠ [] := by
      intro hnil
      exact hne (by simp [hnil])
    obtain ⟨e, he⟩ := List.exists_mem_of_ne_nil _ hmatched
    obtain ⟨hmem, hcovers⟩ := List.mem_filter.mp he
    exact ⟨identity, groupIds, groups, rfl, hstore, hids, e, hmem, hcovers⟩

theorem authorize_restricted (policy : MountPolicy) (store : Option GroupIds)
    (identity : Option SessionIdentity) (decision : AccessDecision)
    (hmode : policy.accessMode = .restricted) (hpassword : policy.hasPassword = false)
    (h : authorize (some policy) store identity = .ok decision) :
    OnAllowlist policy.entries store identity := by
  unfold authorize at h
  simp only at h
  split at h
  · rename_i username role hmatched
    obtain ⟨i, rfl, hrole⟩ := Option.bind_eq_some_iff.mp hmatched
    obtain ⟨role', hrole', -⟩ := Option.map_eq_some_iff.mp hrole
    exact matchedRole_covers policy i store role' hrole'
  · rw [hmode] at h
    simp only [hpassword, Bool.false_eq_true, if_false] at h
    cases identity <;> cases h

end NetworkFileServer.Relay
