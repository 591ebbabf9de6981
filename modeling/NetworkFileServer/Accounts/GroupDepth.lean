import Mathlib.Data.List.Nodup
import NetworkFileServer.Accounts.Groups

/-!
# The depth of the resolution

`_collect_parents` calls itself for every group that it comes to, and the interpreter raises a `RecursionError` when
too many calls are in one another. The SELECT of the parents has no ORDER BY, so which of the branches goes deepest is
up to the order of the rows.
-/

namespace NetworkFileServer.Accounts

open Relay (SubjectType)

namespace AccountStore

/-- `resolve_user_groups` in an interpreter that has room for `limit` calls of `_collect_parents` in one another;
`tooDeep` is its `RecursionError`. -/
def resolveUserGroupsWithin (store : AccountStore) (limit userId : Nat) : Except AccountsError (List Nat) :=
  if userId ∈ store.users then store.collectParents limit .user userId [] [] else .error (.userNotFound userId)

/-- The groups that contain the user, if none of them contains itself, and otherwise a `GroupCycleError`. -/
structure Resolves (store : AccountStore) (limit userId : Nat) : Prop where
  groups : (∀ g, store.InGroup (.user, userId) g → ¬store.InGroup (.group, g) g) →
    ∃ groups, store.resolveUserGroupsWithin limit userId = .ok groups ∧
      ∀ g, g ∈ groups ↔ store.InGroup (.user, userId) g
  cycle : (∃ g, store.InGroup (.user, userId) g ∧ store.InGroup (.group, g) g) →
    ∃ g, store.resolveUserGroupsWithin limit userId = .error (.groupCycle g g)

/-- Each of the groups contains the one before it directly, and the first one the member. -/
def Ascends (store : AccountStore) : SubjectType × Nat → List Nat → Prop
  | _, [] => True
  | member, g :: gs => store.Contains member (.group, g) ∧ store.Ascends (.group, g) gs

theorem Ascends.mono {store store' : AccountStore} (hsub : ∀ m ∈ store.memberships, m ∈ store'.memberships)
    {member : SubjectType × Nat} {gs : List Nat} (h : store.Ascends member gs) : store'.Ascends member gs := by
  induction gs generalizing member with
  | nil => trivial
  | cons g gs ih => exact ⟨⟨rfl, hsub _ h.1.2⟩, ih h.2⟩

theorem Ascends.length_le {store : AccountStore} {member : SubjectType × Nat} {gs : List Nat}
    (h : store.Ascends member gs) (hnodup : gs.Nodup) : gs.length ≤ store.memberships.length := by
  have hknown : ∀ g ∈ gs, g ∈ store.memberships.map Membership.groupId := by
    clear hnodup
    induction gs generalizing member with
    | nil => simp
    | cons g gs ih =>
        intro x hx
        rcases List.mem_cons.mp hx with rfl | hx
        · exact List.mem_map.mpr ⟨_, h.1.2, rfl⟩
        · exact ih h.2 x hx
  simpa using (List.subperm_of_subset hnodup hknown).length_le

/-- Every chain of new groups above the member is shorter than the number of nested calls. -/
def RoomAbove (store : AccountStore) (depth : Nat) (member : SubjectType × Nat) (path : List Nat) : Prop :=
  ∀ gs, store.Ascends member gs → gs.Nodup → (∀ g ∈ gs, g ∉ path) → gs.length < depth

theorem not_roomAbove_zero (store : AccountStore) (member : SubjectType × Nat) (path : List Nat) :
    ¬store.RoomAbove 0 member path := by
  intro hroom
  exact absurd (hroom [] trivial List.nodup_nil (by simp)) (by simp)

/-- An ascent from a parent is one step shorter than that from the member. -/
theorem RoomAbove.parent {store : AccountStore} {depth : Nat} {member : SubjectType × Nat} {path : List Nat} {p : Nat}
    (hroom : store.RoomAbove (depth + 1) member path) (hcontains : store.Contains member (.group, p)) (hp : p ∉ path) :
    store.RoomAbove depth (.group, p) (p :: path) := by
  intro gs hgs hnodup hnew
  have hfirst : p ∉ gs := fun hin => hnew p hin List.mem_cons_self
  have hlonger := hroom (p :: gs) ⟨hcontains, hgs⟩ (List.nodup_cons.mpr ⟨hfirst, hnodup⟩) (by
    intro g hg
    rcases List.mem_cons.mp hg with rfl | hg
    · exact hp
    · exact fun hin => hnew g hg (List.mem_cons_of_mem p hin))
  simpa using hlonger

theorem foldlM_visitParent_congr (store : AccountStore) (depth depth' : Nat) (path ps : List Nat)
    (h : ∀ p ∈ ps, ∀ acc, store.visitParent depth path acc p = store.visitParent depth' path acc p) (acc : List Nat) :
    ps.foldlM (store.visitParent depth path) acc = ps.foldlM (store.visitParent depth' path) acc := by
  induction ps generalizing acc with
  | nil => rfl
  | cons p ps ih =>
      rw [List.foldlM_cons, List.foldlM_cons, h p List.mem_cons_self]
      congr 1
      funext acc
      exact ih (fun q hq => h q (List.mem_cons_of_mem p hq)) acc

theorem collectParents_eq_of_ascents (store : AccountStore) (depth depth' : Nat) (memberType : SubjectType)
    (memberId : Nat) (acc path : List Nat) (hdepth : store.RoomAbove depth (memberType, memberId) path)
    (hdepth' : store.RoomAbove depth' (memberType, memberId) path) :
    store.collectParents depth memberType memberId acc path =
      store.collectParents depth' memberType memberId acc path := by
  induction depth generalizing depth' memberType memberId acc path with
  | zero => exact absurd hdepth (store.not_roomAbove_zero _ path)
  | succ depth ih =>
      cases depth' with
      | zero => exact absurd hdepth' (store.not_roomAbove_zero _ path)
      | succ depth' =>
          rw [collectParents_succ, collectParents_succ]
          apply store.foldlM_visitParent_congr
          intro p hp acc
          have hcontains := (store.mem_listParentGroupIds memberType memberId p).mp hp
          unfold visitParent
          by_cases hcycle : p ∈ path
          · rw [if_pos hcycle, if_pos hcycle]
          · rw [if_neg hcycle, if_neg hcycle, ih depth' .group p (p :: acc) (p :: path)
              (hdepth.parent hcontains hcycle) (hdepth'.parent hcontains hcycle)]

theorem resolveUserGroupsWithin_eq (store : AccountStore) (limit userId : Nat)
    (hroom : ∀ gs, store.Ascends (.user, userId) gs → gs.Nodup → gs.length < limit) :
    store.resolveUserGroupsWithin limit userId = store.resolveUserGroups userId := by
  unfold resolveUserGroupsWithin resolveUserGroups
  split
  · refine store.collectParents_eq_of_ascents limit _ .user userId [] [] ?_ ?_
    · exact fun gs hgs hnodup _ => hroom gs hgs hnodup
    · exact fun gs hgs hnodup _ => Nat.lt_succ_of_le (hgs.length_le hnodup)
  · rfl

/-- The SELECT of each group's parents returns the next group first. -/
def Straight (store : AccountStore) : SubjectType × Nat → List Nat → Prop
  | _, [] => True
  | member, g :: gs => (∃ rest, store.listParentGroupIds member.1 member.2 = g :: rest) ∧
      store.Straight (.group, g) gs

theorem collectParents_tooDeep (store : AccountStore) (limit : Nat) (memberType : SubjectType) (memberId : Nat)
    (acc path gs : List Nat) (hstraight : store.Straight (memberType, memberId) gs) (hnodup : gs.Nodup)
    (hnew : ∀ g ∈ gs, g ∉ acc ∧ g ∉ path) (hlimit : limit ≤ gs.length) :
    store.collectParents limit memberType memberId acc path = .error .tooDeep := by
  induction limit generalizing memberType memberId acc path gs with
  | zero => rfl
  | succ limit ih =>
      cases gs with
      | nil => simp at hlimit
      | cons g gs =>
          obtain ⟨⟨rest, hfirst⟩, hrest⟩ := hstraight
          obtain ⟨hg, hnodup⟩ := List.nodup_cons.mp hnodup
          obtain ⟨hacc, hpath⟩ := hnew g List.mem_cons_self
          have hcall := ih .group g (g :: acc) (g :: path) gs hrest hnodup
            (by
              intro x hx
              have hxg : x ≠ g := fun heq => hg (heq ▸ hx)
              have hold := hnew x (List.mem_cons_of_mem g hx)
              simp [hxg, hold])
            (by simpa using hlimit)
          rw [collectParents, hfirst, List.foldlM_cons, if_neg hpath, if_neg hacc, hcall]
          rfl

/-- The memberships of an ascent. -/
def edges : SubjectType × Nat → List Nat → List Membership
  | _, [] => []
  | member, g :: gs => ⟨g, member.1, member.2⟩ :: edges (.group, g) gs

theorem map_groupId_edges (member : SubjectType × Nat) (gs : List Nat) :
    (edges member gs).map Membership.groupId = gs := by
  induction gs generalizing member with
  | nil => rfl
  | cons g gs ih => rw [edges, List.map_cons, ih]

theorem Ascends.edges_subset {store : AccountStore} {member : SubjectType × Nat} {gs : List Nat}
    (h : store.Ascends member gs) : edges member gs ⊆ store.memberships := by
  induction gs generalizing member with
  | nil => simp [edges]
  | cons g gs ih => exact List.cons_subset.mpr ⟨h.1.2, ih h.2⟩

/-- With the memberships of the ascent before all others of its members, the rows lead up the ascent. -/
theorem straight_of_edges (users : List Nat) (before rest : List Membership) (member : SubjectType × Nat)
    (gs : List Nat) (hnodup : gs.Nodup) (hmember : ∀ g ∈ gs, member ≠ (.group, g))
    (hbefore : ∀ m ∈ before, (m.memberType, m.memberId) ≠ member ∧ ∀ g ∈ gs, (m.memberType, m.memberId) ≠ (.group, g)) :
    Straight ⟨users, before ++ edges member gs ++ rest⟩ member gs := by
  induction gs generalizing before member with
  | nil => trivial
  | cons g gs ih =>
      obtain ⟨hg, hnodup⟩ := List.nodup_cons.mp hnodup
      constructor
      · have hnone : before.filter (fun m => m.memberType = member.1 ∧ m.memberId = member.2) = [] := by
          rw [List.filter_eq_nil_iff]
          intro m hm heq
          exact (hbefore m hm).1 (Prod.ext (of_decide_eq_true heq).1 (of_decide_eq_true heq).2)
        rw [listParentGroupIds, List.append_assoc, List.filter_append, hnone]
        simp [edges]
      · have hmoved : before ++ edges member (g :: gs) ++ rest =
            (before ++ [⟨g, member.1, member.2⟩]) ++ edges (.group, g) gs ++ rest := by
          simp [edges]
        rw [hmoved]
        apply ih _ _ hnodup
        · rintro g' hg' heq
          cases heq
          exact hg hg'
        · intro m hm
          rcases List.mem_append.mp hm with hold | hnew
          · obtain ⟨-, hother⟩ := hbefore m hold
            exact ⟨hother g List.mem_cons_self, fun g' hg' => hother g' (List.mem_cons_of_mem g hg')⟩
          · obtain rfl := List.mem_singleton.mp hnew
            exact ⟨hmember g List.mem_cons_self, fun g' hg' => hmember g' (List.mem_cons_of_mem g hg')⟩

theorem Ascends.exists_straight {store : AccountStore} {userId : Nat} {gs : List Nat}
    (h : store.Ascends (.user, userId) gs) (hnodup : gs.Nodup) :
    ∃ memberships, memberships.Perm store.memberships ∧ Straight ⟨store.users, memberships⟩ (.user, userId) gs := by
  have hedges : (edges (.user, userId) gs).Nodup := by
    apply List.Nodup.of_map Membership.groupId
    rw [map_groupId_edges]
    exact hnodup
  obtain ⟨first, hfirst, hsub⟩ := List.subperm_of_subset hedges h.edges_subset
  obtain ⟨rest, hrest⟩ := hsub.exists_perm_append
  refine ⟨edges (.user, userId) gs ++ rest, (hfirst.symm.append_right rest).trans hrest.symm, ?_⟩
  exact straight_of_edges store.users [] rest (.user, userId) gs hnodup (by simp) (by simp)

/-- Whatever the order of the rows, the resolution is what it is to be: exactly if every ascent from the user that
repeats no group has fewer groups than there is room for calls. -/
theorem resolves_iff_ascents_lt (store : AccountStore) (limit userId : Nat) (huser : userId ∈ store.users) :
    (∀ memberships, memberships.Perm store.memberships →
      Resolves ⟨store.users, memberships⟩ limit userId) ↔
      ∀ gs, store.Ascends (.user, userId) gs → gs.Nodup → gs.length < limit := by
  constructor
  · intro hresolves gs hgs hnodup
    by_contra hlong
    obtain ⟨memberships, hperm, hstraight⟩ := hgs.exists_straight hnodup
    have hdeep : resolveUserGroupsWithin ⟨store.users, memberships⟩ limit userId = .error .tooDeep := by
      rw [resolveUserGroupsWithin, if_pos huser]
      exact collectParents_tooDeep _ limit .user userId [] [] gs hstraight hnodup (by simp) (Nat.not_lt.mp hlong)
    obtain ⟨hgroups, hcycle⟩ := hresolves memberships hperm
    by_cases hnone : ∀ g, InGroup ⟨store.users, memberships⟩ (.user, userId) g →
        ¬InGroup ⟨store.users, memberships⟩ (.group, g) g
    · obtain ⟨groups, hok, -⟩ := hgroups hnone
      rw [hdeep] at hok
      cases hok
    · simp only [not_forall, not_not] at hnone
      obtain ⟨g, hin, hself⟩ := hnone
      obtain ⟨g, herror⟩ := hcycle ⟨g, hin, hself⟩
      rw [hdeep] at herror
      cases herror
  · intro hroom memberships hperm
    have heq : resolveUserGroupsWithin ⟨store.users, memberships⟩ limit userId =
        resolveUserGroups ⟨store.users, memberships⟩ userId := by
      apply resolveUserGroupsWithin_eq
      intro gs hgs hnodup
      exact hroom gs (hgs.mono fun m hm => hperm.subset hm) hnodup
    obtain ⟨hgroups, hcycle⟩ := resolveUserGroups_exact ⟨store.users, memberships⟩ userId huser
    exact ⟨fun hnone => heq ▸ hgroups hnone, fun hsome => heq ▸ hcycle hsome⟩

/-- A group that two groups keep in a cycle. -/
theorem resolves_iff_ascents_lt_cycle :
    Resolves ⟨[1], [⟨10, .user, 1⟩, ⟨11, .group, 10⟩, ⟨10, .group, 11⟩]⟩ 1000 1 := by
  refine (resolves_iff_ascents_lt ⟨[1], [⟨10, .user, 1⟩, ⟨11, .group, 10⟩, ⟨10, .group, 11⟩]⟩ 1000 1 (by decide)).mpr
    ?_ _ (List.Perm.refl _)
  intro gs hgs hnodup
  exact Nat.lt_of_le_of_lt (hgs.length_le hnodup) (by decide)

/-- User 0 is in group 1, which is in group 2, and so on. -/
def nestedGroups (n : Nat) : AccountStore :=
  ⟨[0], (List.range n).map fun k => ⟨k + 1, if k = 0 then .user else .group, k⟩⟩

theorem contains_nestedGroups {n : Nat} {member : SubjectType × Nat} {g : Nat} :
    (nestedGroups n).Contains member (.group, g) ↔
      member.2 < n ∧ g = member.2 + 1 ∧ member.1 = if member.2 = 0 then .user else .group := by
  simp only [Contains, nestedGroups, List.mem_map, List.mem_range, Membership.mk.injEq, true_and]
  constructor
  · rintro ⟨k, hk, rfl, htype, hid⟩
    rw [← htype, ← hid]
    exact ⟨hk, rfl, rfl⟩
  · rintro ⟨hlt, rfl, htype⟩
    exact ⟨member.2, hlt, rfl, htype.symm, rfl⟩

theorem straight_nestedGroups (n k length : Nat) (hlength : k + length ≤ n) :
    (nestedGroups n).Straight (if k = 0 then .user else .group, k) (List.range' (k + 1) length) := by
  induction length generalizing k with
  | zero => trivial
  | succ length ih =>
      constructor
      · -- the only parent
        have hparents : ∀ g, g ∈ (nestedGroups n).listParentGroupIds
          (if k = 0 then .user else .group) k ↔ g = k + 1 := by
          intro g
          rw [mem_listParentGroupIds, contains_nestedGroups]
          simp only [and_true]
          omega
        cases hlist : (nestedGroups n).listParentGroupIds (if k = 0 then .user else .group) k with
        | nil => simp [hlist] at hparents
        | cons g rest =>
            rw [hlist] at hparents
            obtain rfl := (hparents g).mp List.mem_cons_self
            exact ⟨rest, rfl⟩
      · have hrest := ih (k + 1) (by omega)
        rwa [if_neg (Nat.succ_ne_zero k)] at hrest

theorem user_nestedGroups (n : Nat) : 0 ∈ (nestedGroups n).users := List.mem_singleton_self 0

theorem acyclic_nestedGroups (n : Nat) : (nestedGroups n).Acyclic := by
  apply acyclic_of_lt
  intro m hm _
  obtain ⟨k, -, rfl⟩ := List.mem_map.mp hm
  exact Nat.lt_succ_self k

theorem resolveUserGroupsWithin_nestedGroups (n limit : Nat) (hlimit : limit ≤ n) :
    (nestedGroups n).resolveUserGroupsWithin limit 0 = .error .tooDeep := by
  rw [resolveUserGroupsWithin, if_pos (user_nestedGroups n)]
  exact collectParents_tooDeep _ limit .user 0 [] [] (List.range' 1 n) (straight_nestedGroups n 0 n (by omega))
    List.nodup_range' (by simp) (by simpa using hlimit)

/-- With the interpreter's default limit of a thousand calls, a thousand groups one in another are too many. -/
theorem not_resolves_nestedGroups :
    0 ∈ (nestedGroups 1000).users ∧ (nestedGroups 1000).Acyclic ∧
      (nestedGroups 1000).resolveUserGroupsWithin 1000 0 = .error .tooDeep ∧ ¬(nestedGroups 1000).Resolves 1000 0 := by
  have hdeep := resolveUserGroupsWithin_nestedGroups 1000 1000 (Nat.le_refl 1000)
  refine ⟨user_nestedGroups 1000, acyclic_nestedGroups 1000, hdeep, ?_⟩
  intro hresolves
  obtain ⟨groups, hok, -⟩ := hresolves.groups fun g _ => acyclic_nestedGroups 1000 g
  rw [hdeep] at hok
  cases hok

end AccountStore

end NetworkFileServer.Accounts
