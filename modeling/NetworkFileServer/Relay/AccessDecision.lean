import NetworkFileServer.Accounts.Groups

/-!
# The access decision over the account store

`authorize` with the groups that the account store resolves. A cycle in the memberships is not caught
anywhere: the `GroupCycleError` goes through to the caller.
-/

namespace NetworkFileServer.Relay

open Accounts (AccountStore AccountsError)

inductive AuthorizeError where
  | access (e : AccessError)
  | accounts (e : AccountsError)
deriving DecidableEq, Repr

/-- `authorize`. The store is only asked about the user of a session, and only for a mount that has a
row; an unknown user is not on any allowlist. -/
def authorizeAccount (policy : Option MountPolicy) (store : Option AccountStore)
    (identity : Option SessionIdentity) : Except AuthorizeError AccessDecision :=
  let decision (groupIds : Option GroupIds) := (authorize policy groupIds identity).mapError .access
  match policy, identity, store with
  | some _, some i, some store =>
      match store.resolveUserGroups i.userId with
      | .ok groups => decision (some fun _ => some groups)
      | .error (.userNotFound _) => decision (some fun _ => none)
      | .error e => .error (.accounts e)
  | _, _, _ => decision none

/-- The entry is about the user, or about a group that contains the user. -/
def PolicyEntry.Matches (e : PolicyEntry) (store : AccountStore) (userId : Nat) : Prop :=
  match e.subjectType with
  | .user => e.subjectId = userId
  | .group => store.InGroup (.user, userId) e.subjectId

/-- The session's user exists and an entry matches. -/
def Allowlisted (policy : MountPolicy) (store : AccountStore) (identity : Option SessionIdentity) : Prop :=
  ∃ i, identity = some i ∧ i.userId ∈ store.users ∧ ∃ e ∈ policy.entries, e.Matches store i.userId

theorem PolicyEntry.covers_iff_matches (e : PolicyEntry) (store : AccountStore) (i : SessionIdentity)
    (groups : List Nat) (hgroups : ∀ g, g ∈ groups ↔ store.InGroup (.user, i.userId) g) :
    e.covers i groups = true ↔ e.Matches store i.userId := by
  unfold covers Matches
  cases e.subjectType with
  | user => simp
  | group => simp [hgroups]

theorem matchedRole_eq (policy : MountPolicy) (i : SessionIdentity) (groups : List Nat) :
    matchedRole policy i (some fun _ => some groups) =
      highestRole ((policy.entries.filter fun e => e.covers i groups).map PolicyEntry.role) := rfl

/-- The decision for a request that is not identified. -/
def unidentified (policy : MountPolicy) (identity : Option SessionIdentity) :
    Except AuthorizeError AccessDecision :=
  match policy.accessMode with
  | .legacy | .open => .ok (.passthrough (identity.map SessionIdentity.username))
  | .restricted =>
      if policy.hasPassword then .ok (.passthrough none)
      else
        match identity with
        | none => .error (.access .authenticationRequired)
        | some i => .error (.access (.accessDenied i.username))

theorem authorize_mapError (policy : MountPolicy) (groupIds : Option GroupIds)
    (identity : Option SessionIdentity) :
    (authorize (some policy) groupIds identity).mapError AuthorizeError.access =
      match identity.bind fun i => (matchedRole policy i groupIds).map fun role => (i.username, role) with
      | some (username, role) => .ok (.identified username role)
      | none => unidentified policy identity := by
  unfold authorize
  simp only
  cases identity.bind fun i => (matchedRole policy i groupIds).map fun role => (i.username, role) with
  | some _ => rfl
  | none =>
      unfold unidentified
      cases policy.accessMode with
      | «open» => rfl
      | legacy => rfl
      | restricted => cases policy.hasPassword <;> cases identity <;> rfl

/-- A user on the allowlist is identified with a role that no matching entry outranks; everybody else
gets the decision for the unidentified. -/
theorem authorizeAccount_cases (policy : MountPolicy) (store : AccountStore) (hacyclic : store.Acyclic)
    (identity : Option SessionIdentity) :
    (∃ i role, identity = some i ∧ i.userId ∈ store.users ∧
      authorizeAccount (some policy) (some store) identity = .ok (.identified i.username role) ∧
      (∃ e ∈ policy.entries, e.Matches store i.userId ∧ e.role = role) ∧
      ∀ e ∈ policy.entries, e.Matches store i.userId → e.role.rank ≤ role.rank) ∨
    (¬ Allowlisted policy store identity ∧
      authorizeAccount (some policy) (some store) identity = unidentified policy identity) := by
  cases identity with
  | none =>
      refine .inr ⟨?_, ?_⟩
      · rintro ⟨i, hi, -⟩
        cases hi
      · simp only [authorizeAccount, authorize_mapError]
        rfl
  | some i =>
      by_cases huser : i.userId ∈ store.users
      · obtain ⟨groups, hok, hgroups⟩ := store.resolveUserGroups_spec hacyclic i.userId huser
        have hcovers := fun e : PolicyEntry => e.covers_iff_matches store i groups hgroups
        have hdecision : authorizeAccount (some policy) (some store) (some i) =
            match (matchedRole policy i (some fun _ => some groups)).map fun role => (i.username, role) with
            | some (username, role) => .ok (.identified username role)
            | none => unidentified policy (some i) := by
          simp only [authorizeAccount, hok, authorize_mapError]
          rfl
        rw [hdecision, matchedRole_eq]
        by_cases hany : ∃ e ∈ policy.entries, e.Matches store i.userId
        · left
          have hne : ((policy.entries.filter fun e => e.covers i groups).map PolicyEntry.role) ≠ [] := by
            obtain ⟨e, he, hmatches⟩ := hany
            have hmem : e ∈ policy.entries.filter fun e => e.covers i groups :=
              List.mem_filter.mpr ⟨he, (hcovers e).mpr hmatches⟩
            intro hnil
            rw [List.map_eq_nil_iff.mp hnil] at hmem
            cases hmem
          obtain ⟨role, hrole⟩ := highestRole_isSome _ hne
          obtain ⟨hmem, hmax⟩ := highestRole_mem _ role hrole
          refine ⟨i, role, rfl, huser, by rw [hrole]; rfl, ?_, ?_⟩
          · obtain ⟨e, he, rfl⟩ := List.mem_map.mp hmem
            obtain ⟨hentry, hcov⟩ := List.mem_filter.mp he
            exact ⟨e, hentry, (hcovers e).mp hcov, rfl⟩
          · intro e he hmatches
            exact hmax e.role (List.mem_map.mpr ⟨e, List.mem_filter.mpr ⟨he, (hcovers e).mpr hmatches⟩, rfl⟩)
        · right
          have hnone : (policy.entries.filter fun e => e.covers i groups) = [] := by
            apply List.filter_eq_nil_iff.mpr
            intro e he hcov
            exact hany ⟨e, he, (hcovers e).mp hcov⟩
          refine ⟨?_, by rw [hnone]; rfl⟩
          rintro ⟨j, hj, -, hentry⟩
          cases hj
          exact hany hentry
      · right
        refine ⟨?_, ?_⟩
        · rintro ⟨j, hj, huser', -⟩
          cases hj
          exact huser huser'
        · simp only [authorizeAccount, store.resolveUserGroups_userNotFound i.userId huser, authorize_mapError]
          rfl

theorem unidentified_ne_identified (policy : MountPolicy) (identity : Option SessionIdentity)
    (username : String) (role : Role) : unidentified policy identity ≠ .ok (.identified username role) := by
  unfold unidentified
  cases policy.accessMode with
  | «open» => simp
  | legacy => simp
  | restricted => cases policy.hasPassword <;> cases identity <;> simp

/-- On an acyclic account store `authorize` identifies exactly the allowlisted users, with the highest
of their roles; everybody else passes through unidentified or is refused, as the mode says. -/
theorem authorizeAccount_exact (policy : MountPolicy) (store : AccountStore) (hacyclic : store.Acyclic)
    (identity : Option SessionIdentity) :
    ((∃ username role, authorizeAccount (some policy) (some store) identity =
        .ok (.identified username role)) ↔ Allowlisted policy store identity) ∧
    (∀ username role, authorizeAccount (some policy) (some store) identity = .ok (.identified username role) →
      ∃ i, identity = some i ∧ username = i.username ∧
        (∃ e ∈ policy.entries, e.Matches store i.userId ∧ e.role = role) ∧
        ∀ e ∈ policy.entries, e.Matches store i.userId → e.role.rank ≤ role.rank) ∧
    (¬ Allowlisted policy store identity →
      (policy.accessMode = .open ∨ policy.accessMode = .legacy ∨
        (policy.accessMode = .restricted ∧ policy.hasPassword = true) →
        ∃ username, authorizeAccount (some policy) (some store) identity = .ok (.passthrough username)) ∧
      (policy.accessMode = .restricted ∧ policy.hasPassword = false →
        (identity = none → authorizeAccount (some policy) (some store) identity =
          .error (.access .authenticationRequired)) ∧
        ∀ i, identity = some i → authorizeAccount (some policy) (some store) identity =
          .error (.access (.accessDenied i.username)))) := by
  rcases authorizeAccount_cases policy store hacyclic identity with
    ⟨i, role, rfl, huser, hdecision, hrole, hmax⟩ | ⟨hnot, hdecision⟩
  · obtain ⟨e, he, hmatches, -⟩ := id hrole
    have hallowed : Allowlisted policy store (some i) := ⟨i, rfl, huser, e, he, hmatches⟩
    refine ⟨⟨fun _ => hallowed, fun _ => ⟨i.username, role, hdecision⟩⟩, ?_, fun hnot => absurd hallowed hnot⟩
    intro username role' hidentified
    rw [hdecision] at hidentified
    cases hidentified
    exact ⟨i, rfl, rfl, hrole, hmax⟩
  · rw [hdecision]
    refine ⟨⟨?_, fun hallowed => absurd hallowed hnot⟩, ?_, fun _ => ⟨?_, ?_⟩⟩
    · rintro ⟨username, role, hidentified⟩
      exact absurd hidentified (unidentified_ne_identified policy identity username role)
    · intro username role hidentified
      exact absurd hidentified (unidentified_ne_identified policy identity username role)
    · rintro (hmode | hmode | ⟨hmode, hpassword⟩)
      · exact ⟨_, by simp only [unidentified, hmode]; rfl⟩
      · exact ⟨_, by simp only [unidentified, hmode]; rfl⟩
      · exact ⟨none, by simp [unidentified, hmode, hpassword]⟩
    · rintro ⟨hmode, hpassword⟩
      refine ⟨?_, ?_⟩
      · rintro rfl
        simp [unidentified, hmode, hpassword]
      · rintro i rfl
        simp [unidentified, hmode, hpassword]

/-- User 1 is in the team 10, which is in the organisation 20. -/
def nestedStore : AccountStore := ⟨[1], [⟨20, .group, 10⟩, ⟨10, .user, 1⟩]⟩

theorem authorizeAccount_exact_nestedStore :
    nestedStore.Acyclic ∧
      ∃ username role, authorizeAccount (some ⟨.restricted, false, [⟨.group, 20, .read⟩]⟩)
        (some nestedStore) (some ⟨1, "bob"⟩) = .ok (.identified username role) := by
  have hacyclic : nestedStore.Acyclic := AccountStore.acyclic_of_lt nestedStore (by decide)
  have hteam : nestedStore.Contains (.user, 1) (.group, 10) := ⟨rfl, by decide⟩
  have horg : nestedStore.Contains (.group, 10) (.group, 20) := ⟨rfl, by decide⟩
  refine ⟨hacyclic, ?_⟩
  apply (authorizeAccount_exact _ nestedStore hacyclic (some ⟨1, "bob"⟩)).1.mpr
  exact ⟨⟨1, "bob"⟩, rfl, by decide, ⟨.group, 20, .read⟩, by decide,
    Relation.TransGen.head hteam (Relation.TransGen.single horg)⟩

end NetworkFileServer.Relay
