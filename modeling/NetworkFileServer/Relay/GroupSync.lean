import Mathlib.Data.List.Dedup
import NetworkFileServer.Accounts.GroupMethods
import NetworkFileServer.Framework.Json

/-!
# The groups of an SSO login

`_sync_groups` of `oidc_auth.py`, one call of the account store after the other. Its `desired` is a set of
strings; a set is iterated in any order, so it is a list without repetitions here. `clock` gives the time
of a new group.
-/

namespace NetworkFileServer.Relay

open Accounts

/-- The elements of `desired`, as the claim lists them. -/
def claimedGroups (claims : OrderedDict String Json) (start : String) : List String :=
  match Json.get? claims "groups" with
  | some (.arr items) =>
      items.filterMap fun
        | .str g => if Text.startsWith g start then some g else none
        | _ => none
  | _ => []

inductive SyncError where
  /-- `GroupNotFoundError` of `get_group_by_name`. -/
  | groupNotFound (name : String)
  | store (e : StoreError)
deriving DecidableEq

/-- The first `try` of the loop over `desired`. -/
def ensureGroup (d : Database) (name : String) (createdAt : ℚ) : Except SyncError (Database × Group) :=
  match d.groupByName name with
  | some group => .ok (d, group)
  | none =>
      match d.createGroup name createdAt with
      | .ok created => .ok created
      | .error (.groupNameTaken _) =>
          match d.groupByName name with
          | some group => .ok (d, group)
          | none => .error (.groupNotFound name)
      | .error e => .error (.store e)

/-- The second one. -/
def joinGroup (userId : Nat) (d : Database) (group : Group) : Except SyncError Database :=
  match d.addMember ⟨group.id, .user, userId⟩ with
  | .ok d' => .ok d'
  | .error (.duplicateMembership _) => .ok d
  | .error e => .error (.store e)

def ensureAndJoin (clock : String → ℚ) (userId : Nat) (d : Database) (name : String) :
    Except SyncError Database :=
  match ensureGroup d name (clock name) with
  | .ok (d', group) => joinGroup userId d' group
  | .error e => .error e

/-- The body of the second loop. -/
def revokeGroup (start : String) (desired : List String) (userId : Nat) (d : Database) (gid : Nat) :
    Except SyncError Database :=
  match d.groupById gid with
  | none => .error (.store (.groupNotFound gid))
  | some group =>
      if Text.startsWith group.name start ∧ group.name ∉ desired then
        match d.removeMember ⟨gid, .user, userId⟩ with
        | .ok d' => .ok d'
        | .error (.membershipNotFound _) => .ok d
        | .error e => .error (.store e)
      else .ok d

/-- `_sync_groups`, with the elements of `desired` in the order of its iteration. -/
def syncGroups (clock : String → ℚ) (start : String) (desired : List String) (userId : Nat) (d : Database) :
    Except SyncError Database :=
  match desired.foldlM (ensureAndJoin clock userId) d with
  | .ok d' =>
      (d'.toStore.listParentGroupIds .user userId).foldlM (revokeGroup start desired userId) d'
  | .error e => .error e

/-- What is left of the database when the user has joined the group. -/
structure Joins (userId : Nat) (d : Database) (group : Group) (d' : Database) : Prop where
  users : d'.users = d.users
  groups : d'.groups = d.groups
  sequence : d'.lastGroupId = d.lastGroupId
  memberships : ∀ m, m ∈ d'.memberships ↔ m ∈ d.memberships ∨ m = ⟨group.id, .user, userId⟩

theorem joinGroup_ok (userId : Nat) (d : Database) (group : Group) (huser : (d.userById userId).isSome = true)
    (hgroup : group ∈ d.groups) : ∃ d', joinGroup userId d group = .ok d' ∧ Joins userId d group d' := by
  have hfound : (d.groupById group.id).isSome = true := by
    rw [(d.groupById_eq_some group.id group).mpr ⟨hgroup, rfl⟩]
    rfl
  unfold joinGroup
  rcases d.addMember_cases ⟨group.id, .user, userId⟩ hfound huser with ⟨hcycle, -⟩ | ⟨-, hold, hresult⟩ |
    ⟨-, hnew, d', hresult, htables⟩
  · cases hcycle.1
  · rw [hresult]
    refine ⟨d, rfl, rfl, rfl, rfl, ?_⟩
    intro m
    constructor
    · exact .inl
    · rintro (hm | rfl)
      · exact hm
      · exact hold
  · rw [hresult]
    exact ⟨d', rfl, by rw [htables], by rw [htables], by rw [htables], by simp [htables]⟩

/-- What `ensureGroup` returns: the group of that name, or a new group under the stripped name. -/
theorem ensureGroup_cases (d : Database) (name : String) (createdAt : ℚ) :
    (∃ g ∈ d.groups, g.name = name ∧ ensureGroup d name createdAt = .ok (d, g)) ∨
    (name ∉ d.groups.map Group.name ∧
      ((Text.strip name = "" ∧
          ensureGroup d name createdAt = .error (.store (.valueError "group name must be a non-empty string"))) ∨
        (Text.strip name ≠ "" ∧ Text.strip name ∈ d.groups.map Group.name ∧
          ensureGroup d name createdAt = .error (.groupNotFound name)) ∨
        (Text.strip name ≠ "" ∧ Text.strip name ∉ d.groups.map Group.name ∧
          ∃ d', ensureGroup d name createdAt = .ok (d', d.newGroup (Text.strip name) createdAt) ∧
            d'.toTables = { d.toTables with
              groups := d.groups ++ [d.newGroup (Text.strip name) createdAt]
              lastGroupId := d.lastGroupId + 1 }))) := by
  unfold ensureGroup
  cases hname : d.groupByName name with
  | some g =>
      obtain ⟨hmem, heq⟩ := (d.groupByName_eq_some name g).mp hname
      exact .inl ⟨g, hmem, heq, rfl⟩
  | none =>
      right
      have hfree : name ∉ d.groups.map Group.name := by
        intro hmem
        obtain ⟨g, hg, heq⟩ := List.mem_map.mp hmem
        rw [(d.groupByName_eq_some name g).mpr ⟨hg, heq⟩] at hname
        cases hname
      refine ⟨hfree, ?_⟩
      unfold Database.createGroup
      by_cases hblank : Text.strip name = ""
      · left
        simp only [hblank, if_true, true_and]
      · right
        simp only [hblank, if_false, ne_eq, not_false_eq_true, true_and]
        cases hinsert : d.insertGroup (Text.strip name) createdAt with
        | none => exact .inl ⟨(d.insertGroup_eq_none_iff _ _).mp hinsert, rfl⟩
        | some d' =>
            right
            refine ⟨?_, d', rfl, d.insertGroup_eq_some d' _ _ hinsert⟩
            rw [← d.insertGroup_eq_none_iff _ createdAt, hinsert]
            simp

/-- How a name of `desired` may go through the first loop. -/
inductive Ensures (userId : Nat) (d : Database) (name : String) (d' : Database) : Prop where
  | found (g : Group) (hmem : g ∈ d.groups) (hname : g.name = name) (hjoins : Joins userId d g d')
  | created (g : Group) (middle : Database) (hname : g.name = Text.strip name) (hblank : Text.strip name ≠ "")
      (hraw : name ∉ d.groups.map Group.name) (hfree : Text.strip name ∉ d.groups.map Group.name)
      (hid : g.id = d.lastGroupId + 1)
      (htables : middle.toTables =
        { d.toTables with groups := d.groups ++ [g], lastGroupId := d.lastGroupId + 1 })
      (hjoins : Joins userId middle g d')

theorem ensureAndJoin_ok (clock : String → ℚ) (userId : Nat) (d d' : Database) (name : String)
    (huser : (d.userById userId).isSome = true) (h : ensureAndJoin clock userId d name = .ok d') :
    Ensures userId d name d' := by
  unfold ensureAndJoin at h
  rcases ensureGroup_cases d name (clock name) with ⟨g, hmem, hname, hensure⟩ |
    ⟨hraw, ⟨-, hensure⟩ | ⟨-, -, hensure⟩ | ⟨hblank, hfree, middle, hensure, htables⟩⟩
  · simp only [hensure] at h
    obtain ⟨joined, hjoin, hjoins⟩ := joinGroup_ok userId d g huser hmem
    rw [hjoin] at h
    cases h
    exact .found g hmem hname hjoins
  · simp [hensure] at h
  · simp [hensure] at h
  · simp only [hensure] at h
    have husers : middle.users = d.users := by rw [htables]
    have hsame : (middle.userById userId).isSome = true := by
      rw [Database.userById_congr husers]
      exact huser
    obtain ⟨joined, hjoin, hjoins⟩ :=
      joinGroup_ok userId middle (d.newGroup (Text.strip name) (clock name)) hsame (by simp [htables])
    rw [hjoin] at h
    cases h
    exact .created _ middle rfl hblank hraw hfree rfl htables hjoins

theorem ensureAndJoin_of_isGroupName (clock : String → ℚ) (userId : Nat) (d : Database) (name : String)
    (huser : (d.userById userId).isSome = true) (hname : IsGroupName name) :
    ∃ d', ensureAndJoin clock userId d name = .ok d' := by
  unfold ensureAndJoin
  rcases ensureGroup_cases d name (clock name) with ⟨g, hmem, -, hensure⟩ |
    ⟨hraw, ⟨hblank, -⟩ | ⟨-, htaken, -⟩ | ⟨-, -, middle, hensure, htables⟩⟩
  · obtain ⟨d', hjoin, -⟩ := joinGroup_ok userId d g huser hmem
    exact ⟨d', by rw [hensure]; exact hjoin⟩
  · rw [hname.1] at hblank
    exact absurd hblank hname.2
  · rw [hname.1] at htaken
    exact absurd htaken hraw
  · have husers : middle.users = d.users := by rw [htables]
    have hsame : (middle.userById userId).isSome = true := by
      rw [Database.userById_congr husers]
      exact huser
    obtain ⟨d', hjoin, -⟩ :=
      joinGroup_ok userId middle (d.newGroup (Text.strip name) (clock name)) hsame (by simp [htables])
    exact ⟨d', by rw [hensure]; exact hjoin⟩

theorem foldlM_cons_ok {σ ε α : Type} (body : σ → α → Except ε σ) (a : α) (items : List α) (s t : σ) :
    (a :: items).foldlM body s = .ok t ↔ ∃ middle, body s a = .ok middle ∧ items.foldlM body middle = .ok t := by
  rw [List.foldlM_cons]
  cases body s a with
  | error e => simp [bind, Except.bind]
  | ok middle => simp [bind, Except.bind]

theorem foldlM_append_ok {σ ε α : Type} (body : σ → α → Except ε σ) (items items' : List α) (s t : σ) :
    (items ++ items').foldlM body s = .ok t ↔
      ∃ middle, items.foldlM body s = .ok middle ∧ items'.foldlM body middle = .ok t := by
  induction items generalizing s with
  | nil => simp [pure, Except.pure]
  | cons a items ih =>
      rw [List.cons_append, foldlM_cons_ok]
      simp only [ih, foldlM_cons_ok]
      constructor
      · rintro ⟨first, hfirst, middle, hrest, hlast⟩
        exact ⟨middle, ⟨first, hfirst, hrest⟩, hlast⟩
      · rintro ⟨middle, ⟨first, hfirst, hrest⟩, hlast⟩
        exact ⟨first, hfirst, middle, hrest, hlast⟩

/-- The names have their groups, and the user is in them. -/
structure AllJoined (userId : Nat) (names : List String) (d d' : Database) : Prop where
  named : d'.GroupsNamed
  users : d'.users = d.users
  kept : ∀ g ∈ d.groups, g ∈ d'.groups
  fresh : ∀ g ∈ d'.groups, g ∈ d.groups ∨ g.name ∈ names.map Text.strip
  exist : ∀ name ∈ names, ∃ g ∈ d'.groups, g.name = Text.strip name
  memberships : ∀ m, m ∈ d'.memberships ↔
    m ∈ d.memberships ∨ ∃ g ∈ d'.groups, g.name ∈ names.map Text.strip ∧ m = ⟨g.id, .user, userId⟩

theorem AllJoined.refl (userId : Nat) (d : Database) (hd : d.GroupsNamed) : AllJoined userId [] d d where
  named := hd
  users := rfl
  kept := fun _ hg => hg
  fresh := fun _ hg => .inl hg
  exist := by simp
  memberships := by simp

theorem Ensures.allJoined {userId : Nat} {d d' : Database} {name : String} (hd : d.GroupsNamed)
    (h : Ensures userId d name d') : AllJoined userId [name] d d' := by
  cases h with
  | found g hmem hname hjoins =>
      have hstrip : g.name = Text.strip name := by
        rw [← hname]
        exact (hd g hmem).1.symm
      have hmem' : g ∈ d'.groups := by
        rw [hjoins.groups]
        exact hmem
      refine ⟨?_, hjoins.users, ?_, ?_, ?_, ?_⟩
      · intro g' hg'
        rw [hjoins.groups] at hg'
        exact hd g' hg'
      · intro g' hg'
        rw [hjoins.groups]
        exact hg'
      · intro g' hg'
        rw [hjoins.groups] at hg'
        exact .inl hg'
      · simp only [List.mem_singleton, forall_eq]
        exact ⟨g, hmem', hstrip⟩
      · intro m
        rw [hjoins.memberships]
        apply or_congr_right
        constructor
        · intro hm
          exact ⟨g, hmem', by simp [hstrip], hm⟩
        · rintro ⟨g', hg', hname', rfl⟩
          have heq := d'.group_eq_of_name hg' hmem' (by simpa [hstrip] using hname')
          rw [heq]
  | created g middle hname hblank hraw hfree hid htables hjoins =>
      have hgroups : d'.groups = d.groups ++ [g] := by
        rw [hjoins.groups, htables]
      have hmem' : g ∈ d'.groups := by simp [hgroups]
      refine ⟨?_, ?_, ?_, ?_, ?_, ?_⟩
      · intro g' hg'
        rw [hgroups] at hg'
        rcases List.mem_append.mp hg' with hold | hnew
        · exact hd g' hold
        · rw [List.mem_singleton.mp hnew, hname]
          exact isGroupName_strip name hblank
      · rw [hjoins.users, htables]
      · intro g' hg'
        rw [hgroups]
        exact List.mem_append_left _ hg'
      · intro g' hg'
        rw [hgroups] at hg'
        rcases List.mem_append.mp hg' with hold | hnew
        · exact .inl hold
        · right
          rw [List.mem_singleton.mp hnew, hname]
          simp
      · simp only [List.mem_singleton, forall_eq]
        exact ⟨g, hmem', hname⟩
      · intro m
        rw [hjoins.memberships, htables]
        apply or_congr_right
        constructor
        · intro hm
          exact ⟨g, hmem', by simp [hname], hm⟩
        · rintro ⟨g', hg', hname', rfl⟩
          have heq := d'.group_eq_of_name hg' hmem' (by simpa [hname] using hname')
          rw [heq]

theorem AllJoined.trans {userId : Nat} {names names' : List String} {d middle d' : Database}
    (h : AllJoined userId names d middle) (h' : AllJoined userId names' middle d') :
    AllJoined userId (names ++ names') d d' where
  named := h'.named
  users := h'.users.trans h.users
  kept := fun g hg => h'.kept g (h.kept g hg)
  fresh := by
    intro g hg
    rw [List.map_append, List.mem_append]
    rcases h'.fresh g hg with hmiddle | hnew
    · rcases h.fresh g hmiddle with hold | hnew
      · exact .inl hold
      · exact .inr (.inl hnew)
    · exact .inr (.inr hnew)
  exist := by
    intro name hname
    rcases List.mem_append.mp hname with hfirst | hsecond
    · obtain ⟨g, hg, heq⟩ := h.exist name hfirst
      exact ⟨g, h'.kept g hg, heq⟩
    · exact h'.exist name hsecond
  memberships := by
    intro m
    rw [h'.memberships, h.memberships, or_assoc]
    apply or_congr_right
    constructor
    · rintro (⟨g, hg, hname, rfl⟩ | ⟨g, hg, hname, rfl⟩)
      · exact ⟨g, h'.kept g hg, by simp only [List.map_append, List.mem_append]; exact .inl hname, rfl⟩
      · exact ⟨g, hg, by simp only [List.map_append, List.mem_append]; exact .inr hname, rfl⟩
    · rintro ⟨g, hg, hname, rfl⟩
      rw [List.map_append, List.mem_append] at hname
      rcases hname with hfirst | hsecond
      · -- The group of a name of the first part was there before the second part.
        obtain ⟨name, hmem, heq⟩ := List.mem_map.mp hfirst
        obtain ⟨g', hg', heq'⟩ := h.exist name hmem
        have hsame := d'.group_eq_of_name hg (h'.kept g' hg') (heq.symm.trans heq'.symm)
        rw [hsame] at hfirst ⊢
        exact .inl ⟨g', hg', hfirst, rfl⟩
      · exact .inr ⟨g, hg, hsecond, rfl⟩

theorem ensureAll_ok (clock : String → ℚ) (userId : Nat) (names : List String) (d d' : Database)
    (hd : d.GroupsNamed) (huser : (d.userById userId).isSome = true)
    (h : names.foldlM (ensureAndJoin clock userId) d = .ok d') : AllJoined userId names d d' := by
  induction names generalizing d with
  | nil =>
      cases h
      exact .refl userId _ hd
  | cons name names ih =>
      obtain ⟨middle, hfirst, hrest⟩ := (foldlM_cons_ok _ _ _ _ _).mp h
      have hjoined := (ensureAndJoin_ok clock userId d middle name huser hfirst).allJoined hd
      have hsame : (middle.userById userId).isSome = true := by
        rw [Database.userById_congr hjoined.users]
        exact huser
      exact hjoined.trans (ih middle hjoined.named hsame hrest)

/-- The loop gets through the names as they are stored, and the new groups take the next ids. -/
theorem ensureAll_of_isGroupName (clock : String → ℚ) (userId : Nat) (names : List String) (d : Database)
    (hd : d.GroupsNamed) (huser : (d.userById userId).isSome = true) (hnames : ∀ name ∈ names, IsGroupName name)
    (hnodup : names.Nodup) :
    ∃ d', names.foldlM (ensureAndJoin clock userId) d = .ok d' ∧
      d'.lastGroupId = d.lastGroupId + names.countP (· ∉ d.groups.map Group.name) ∧
      ∀ i, i ∈ d'.groups.map Group.id ↔ i ∈ d.groups.map Group.id ∨ (d.lastGroupId < i ∧ i ≤ d'.lastGroupId) := by
  induction names generalizing d with
  | nil =>
      refine ⟨d, rfl, rfl, ?_⟩
      intro i
      constructor
      · exact .inl
      · rintro (hi | ⟨hlt, hle⟩)
        · exact hi
        · omega
  | cons name names ih =>
      obtain ⟨hname, hrest⟩ := List.forall_mem_cons.mp hnames
      obtain ⟨hnew, hnodup⟩ := List.nodup_cons.mp hnodup
      obtain ⟨middle, hfirst⟩ := ensureAndJoin_of_isGroupName clock userId d name huser hname
      have hensures := ensureAndJoin_ok clock userId d middle name huser hfirst
      have hjoined := hensures.allJoined hd
      have hsame : (middle.userById userId).isSome = true := by
        rw [Database.userById_congr hjoined.users]
        exact huser
      obtain ⟨d', hloop, hlast, hids⟩ := ih middle hjoined.named hsame hrest hnodup
      refine ⟨d', ?_, ?_⟩
      · exact (foldlM_cons_ok _ _ _ _ _).mpr ⟨middle, hfirst, hloop⟩
      cases hensures with
      | found g hmem hgname hjoins =>
          have hold : name ∈ d.groups.map Group.name := List.mem_map.mpr ⟨g, hmem, hgname⟩
          rw [hjoins.groups, hjoins.sequence] at hlast hids
          refine ⟨?_, hids⟩
          rw [hlast, List.countP_cons_of_neg (by simpa using hold)]
      | created g first hgname hblank hraw hfree hid htables hjoins =>
          have hgroups : middle.groups = d.groups ++ [g] := by
            rw [hjoins.groups, htables]
          have hsequence : middle.lastGroupId = d.lastGroupId + 1 := by
            rw [hjoins.sequence, htables]
          have hcount : names.countP (· ∉ middle.groups.map Group.name) =
              names.countP (· ∉ d.groups.map Group.name) := by
            apply List.countP_congr
            intro other hother
            have hne : other ≠ g.name := by
              rintro rfl
              rw [hgname, hname.1] at hother
              exact hnew hother
            simp [hgroups, hne]
          refine ⟨?_, ?_⟩
          · rw [hlast, hsequence, hcount, List.countP_cons_of_pos (by simpa using hraw)]
            omega
          · intro i
            rw [hids, hgroups, hsequence, List.map_append, List.mem_append, List.map_cons, List.map_nil,
              List.mem_singleton, hid, or_assoc]
            apply or_congr_right
            omega

/-- The group is one that the user is taken out of. -/
def Revoked (start : String) (desired : List String) (d : Database) (gid : Nat) : Prop :=
  ∃ g ∈ d.groups, g.id = gid ∧ Text.startsWith g.name start = true ∧ g.name ∉ desired

theorem revoked_iff {start : String} {desired : List String} {d : Database} {g : Group} (hg : g ∈ d.groups) :
    Revoked start desired d g.id ↔ Text.startsWith g.name start = true ∧ g.name ∉ desired := by
  constructor
  · rintro ⟨g', hg', hid, hbegins⟩
    rw [← d.group_eq_of_id hg' hg hid]
    exact hbegins
  · intro hbegins
    exact ⟨g, hg, rfl, hbegins⟩

structure AllRevoked (start : String) (desired : List String) (userId : Nat) (gids : List Nat)
    (d d' : Database) : Prop where
  users : d'.users = d.users
  groups : d'.groups = d.groups
  memberships : ∀ m, m ∈ d'.memberships ↔ m ∈ d.memberships ∧
    ¬ (m.memberType = .user ∧ m.memberId = userId ∧ m.groupId ∈ gids ∧ Revoked start desired d m.groupId)

theorem revokeGroup_cases (start : String) (desired : List String) (userId : Nat) (d : Database) (gid : Nat) :
    (gid ∉ d.groups.map Group.id ∧ ∃ e, revokeGroup start desired userId d gid = .error e) ∨
    (gid ∈ d.groups.map Group.id ∧ ∃ d', revokeGroup start desired userId d gid = .ok d' ∧
      AllRevoked start desired userId [gid] d d') := by
  unfold revokeGroup
  cases hfound : d.groupById gid with
  | none =>
      left
      refine ⟨?_, _, rfl⟩
      intro hmem
      obtain ⟨g, hg, hid⟩ := List.mem_map.mp hmem
      rw [(d.groupById_eq_some gid g).mpr ⟨hg, hid⟩] at hfound
      cases hfound
  | some g =>
      right
      obtain ⟨hg, hid⟩ := (d.groupById_eq_some gid g).mp hfound
      refine ⟨List.mem_map.mpr ⟨g, hg, hid⟩, ?_⟩
      have hrevoked : Revoked start desired d gid ↔ Text.startsWith g.name start = true ∧ g.name ∉ desired := by
        rw [← hid]
        exact revoked_iff hg
      have hrow : ∀ m : Membership, (m.memberType = .user ∧ m.memberId = userId ∧ m.groupId ∈ [gid] ∧
          Revoked start desired d m.groupId) ↔
          m = ⟨gid, .user, userId⟩ ∧ Text.startsWith g.name start = true ∧ g.name ∉ desired := by
        intro m
        rw [← hrevoked]
        constructor
        · rintro ⟨htype, hmember, hgid, hrev⟩
          obtain ⟨groupId, memberType, memberId⟩ := m
          obtain rfl : groupId = gid := List.mem_singleton.mp hgid
          obtain rfl : memberType = .user := htype
          obtain rfl : memberId = userId := hmember
          exact ⟨rfl, hrev⟩
        · rintro ⟨rfl, hrev⟩
          exact ⟨rfl, rfl, List.mem_singleton.mpr rfl, hrev⟩
      simp only
      by_cases hbegins : Text.startsWith g.name start = true ∧ g.name ∉ desired
      · rw [if_pos hbegins]
        unfold Database.removeMember
        cases hdelete : d.deleteMemberships fun m' => m' = ⟨gid, .user, userId⟩ with
        | none =>
            refine ⟨d, rfl, rfl, rfl, ?_⟩
            have habsent : (⟨gid, .user, userId⟩ : Membership) ∉ d.memberships := by
              intro hmem
              unfold Database.deleteMemberships at hdelete
              rw [if_pos (List.any_eq_true.mpr ⟨_, hmem, by simp⟩)] at hdelete
              cases hdelete
            intro m
            rw [hrow]
            constructor
            · intro hm
              refine ⟨hm, ?_⟩
              rintro ⟨rfl, -⟩
              exact habsent hm
            · exact And.left
        | some d' =>
            have htables := d.deleteMemberships_eq_some d' _ hdelete
            refine ⟨d', rfl, by rw [htables], by rw [htables], ?_⟩
            intro m
            rw [hrow, htables]
            simp [hbegins]
      · rw [if_neg hbegins]
        refine ⟨d, rfl, rfl, rfl, ?_⟩
        intro m
        rw [hrow]
        simp [hbegins]

theorem AllRevoked.trans {start : String} {desired : List String} {userId : Nat} {gids gids' : List Nat}
    {d middle d' : Database} (h : AllRevoked start desired userId gids d middle)
    (h' : AllRevoked start desired userId gids' middle d') :
    AllRevoked start desired userId (gids ++ gids') d d' where
  users := h'.users.trans h.users
  groups := h'.groups.trans h.groups
  memberships := by
    intro m
    have hsame : Revoked start desired middle m.groupId ↔ Revoked start desired d m.groupId := by
      unfold Revoked
      rw [h.groups]
    rw [h'.memberships, h.memberships, hsame, List.mem_append]
    tauto

/-- The second loop gets through exactly if the groups exist. -/
theorem revokeAll_ok_iff (start : String) (desired : List String) (userId : Nat) (gids : List Nat) (d : Database) :
    (∃ d', gids.foldlM (revokeGroup start desired userId) d = .ok d') ↔ ∀ gid ∈ gids, gid ∈ d.groups.map Group.id := by
  induction gids generalizing d with
  | nil => exact ⟨fun _ => by simp, fun _ => ⟨d, rfl⟩⟩
  | cons gid gids ih =>
      rw [List.forall_mem_cons]
      simp only [foldlM_cons_ok]
      rcases revokeGroup_cases start desired userId d gid with ⟨hmissing, e, hresult⟩ |
        ⟨hfound, middle, hresult, hrevoked⟩
      · constructor
        · rintro ⟨d', first, hfirst, -⟩
          rw [hresult] at hfirst
          cases hfirst
        · rintro ⟨hmem, -⟩
          exact absurd hmem hmissing
      · have hrest := ih middle
        rw [hrevoked.groups] at hrest
        constructor
        · rintro ⟨d', first, hfirst, h⟩
          rw [hresult] at hfirst
          cases hfirst
          exact ⟨hfound, hrest.mp ⟨d', h⟩⟩
        · rintro ⟨-, hmem⟩
          obtain ⟨d', h⟩ := hrest.mpr hmem
          exact ⟨d', middle, hresult, h⟩

theorem revokeAll_ok (start : String) (desired : List String) (userId : Nat) (gids : List Nat) (d d' : Database)
    (h : gids.foldlM (revokeGroup start desired userId) d = .ok d') :
    AllRevoked start desired userId gids d d' := by
  induction gids generalizing d with
  | nil =>
      cases h
      exact ⟨rfl, rfl, by simp⟩
  | cons gid gids ih =>
      obtain ⟨first, hfirst, hrest⟩ := (foldlM_cons_ok _ _ _ _ _).mp h
      rcases revokeGroup_cases start desired userId d gid with ⟨-, e, hresult⟩ | ⟨-, middle, hresult, hrevoked⟩
      · rw [hresult] at hfirst
        cases hfirst
      · rw [hresult] at hfirst
        cases hfirst
        exact hrevoked.trans (ih _ hrest)

/-- What `_sync_groups` is for: the user is in the claimed groups, and in no other group with the prefix;
everything else is as it was. -/
structure Synced (start : String) (claimed : List String) (userId : Nat) (d d' : Database) : Prop where
  exist : ∀ name ∈ claimed, ∃ g ∈ d'.groups, g.name = Text.strip name
  members : ∀ g ∈ d'.groups, Text.startsWith g.name start = true →
    (⟨g.id, .user, userId⟩ ∈ d'.memberships ↔ g.name ∈ claimed.map Text.strip)
  outside : ∀ g ∈ d'.groups, Text.startsWith g.name start = false →
    (⟨g.id, .user, userId⟩ ∈ d'.memberships ↔ g ∈ d.groups ∧ ⟨g.id, .user, userId⟩ ∈ d.memberships)
  others : ∀ m, ¬ (m.memberType = .user ∧ m.memberId = userId ∧
      ∃ g ∈ d'.groups, g.id = m.groupId ∧ Text.startsWith g.name start = true) →
    (m ∈ d'.memberships ↔ m ∈ d.memberships)

/-- The user's memberships after both loops, in terms of those after the first. -/
structure Reconciled (start : String) (desired : List String) (userId : Nat) (d d' : Database) : Prop where
  groups : d'.groups = d.groups
  memberships : ∀ m, m ∈ d'.memberships ↔ m ∈ d.memberships ∧
    ¬ (m.memberType = .user ∧ m.memberId = userId ∧ Revoked start desired d m.groupId)

theorem syncGroups_ok (clock : String → ℚ) (start : String) (desired : List String) (userId : Nat)
    (d d' : Database) (hd : d.GroupsNamed) (huser : (d.userById userId).isSome = true)
    (h : syncGroups clock start desired userId d = .ok d') :
    ∃ middle, desired.foldlM (ensureAndJoin clock userId) d = .ok middle ∧
      AllJoined userId desired d middle ∧ Reconciled start desired userId middle d' ∧
      ∀ m ∈ middle.memberships, m.memberType = .user → m.memberId = userId →
        m.groupId ∈ middle.groups.map Group.id := by
  unfold syncGroups at h
  cases hfirst : desired.foldlM (ensureAndJoin clock userId) d with
  | error e =>
      rw [hfirst] at h
      cases h
  | ok middle =>
      simp only [hfirst] at h
      have hlisted : ∀ m ∈ middle.memberships, m.memberType = .user → m.memberId = userId →
          m.groupId ∈ middle.toStore.listParentGroupIds .user userId := by
        intro m hm htype hmember
        rw [AccountStore.mem_listParentGroupIds]
        refine ⟨rfl, ?_⟩
        rw [← htype, ← hmember]
        exact hm
      have hrevoked := revokeAll_ok _ _ _ _ _ _ h
      refine ⟨middle, rfl, ensureAll_ok clock userId desired d middle hd huser hfirst, ⟨hrevoked.groups, ?_⟩, ?_⟩
      · intro m
        rw [hrevoked.memberships]
        apply and_congr_right
        intro hm
        constructor
        · rintro hkept ⟨htype, hmember, hrev⟩
          exact hkept ⟨htype, hmember, hlisted m hm htype hmember, hrev⟩
        · rintro hkept ⟨htype, hmember, -, hrev⟩
          exact hkept ⟨htype, hmember, hrev⟩
      · intro m hm htype hmember
        exact (revokeAll_ok_iff _ _ _ _ _).mp ⟨d', h⟩ _ (hlisted m hm htype hmember)

theorem synced_of_reconciled {start : String} {claimed desired : List String} {userId : Nat}
    {d middle d' : Database} (hdesired : ∀ name, name ∈ desired ↔ name ∈ claimed)
    (hnames : ∀ name ∈ claimed, IsGroupName name) (hstart : ∀ name ∈ claimed, Text.startsWith name start = true)
    (hjoined : AllJoined userId desired d middle) (hrec : Reconciled start desired userId middle d') :
    Synced start claimed userId d d' := by
  have hmap : ∀ name, name ∈ claimed.map Text.strip ↔ name ∈ desired := by
    intro name
    rw [List.mem_map, hdesired]
    constructor
    · rintro ⟨name', hmem, rfl⟩
      rw [(hnames name' hmem).1]
      exact hmem
    · intro hmem
      exact ⟨name, hmem, (hnames name hmem).1⟩
  have hmap' : ∀ name, name ∈ desired.map Text.strip ↔ name ∈ desired := by
    intro name
    rw [← hmap, List.mem_map, List.mem_map]
    simp only [hdesired]
  have hrow : ∀ g ∈ middle.groups, (⟨g.id, .user, userId⟩ ∈ middle.memberships ↔
      ⟨g.id, .user, userId⟩ ∈ d.memberships ∨ g.name ∈ desired) := by
    intro g hg
    rw [hjoined.memberships]
    apply or_congr_right
    constructor
    · rintro ⟨g', hg', hname, heq⟩
      rw [Membership.mk.injEq] at heq
      rw [middle.group_eq_of_id hg hg' heq.1]
      exact (hmap' _).mp hname
    · intro hname
      exact ⟨g, hg, (hmap' _).mpr hname, rfl⟩
  refine ⟨?_, ?_, ?_, ?_⟩
  · intro name hname
    rw [hrec.groups]
    exact hjoined.exist name ((hdesired name).mpr hname)
  · intro g hg hbegins
    rw [hrec.groups] at hg
    rw [hrec.memberships, hmap, hrow g hg, revoked_iff hg]
    tauto
  · intro g hg hbegins
    rw [hrec.groups] at hg
    have hunclaimed : g.name ∉ desired := by
      intro hmem
      have htrue := hstart g.name ((hdesired g.name).mp hmem)
      rw [hbegins] at htrue
      cases htrue
    have hold : g ∈ d.groups := by
      rcases hjoined.fresh g hg with hold | hnew
      · exact hold
      · exact absurd ((hmap' g.name).mp hnew) hunclaimed
    rw [hrec.memberships, hrow g hg, revoked_iff hg]
    simp [hbegins, hunclaimed, hold]
  · intro m hother
    have hunrevoked : ¬ (m.memberType = .user ∧ m.memberId = userId ∧ Revoked start desired middle m.groupId) := by
      rintro ⟨htype, hmember, g, hg, hid, hbegins, -⟩
      apply hother
      rw [hrec.groups]
      exact ⟨htype, hmember, g, hg, hid, hbegins⟩
    rw [hrec.memberships, hjoined.memberships]
    constructor
    · rintro ⟨hold | ⟨g, hg, hname, rfl⟩, -⟩
      · exact hold
      · -- A membership that the first loop has made is one with the prefix.
        exfalso
        apply hother
        rw [hrec.groups]
        exact ⟨rfl, rfl, g, hg, rfl, hstart g.name ((hdesired g.name).mp ((hmap' g.name).mp hname))⟩
    · intro hold
      exact ⟨.inl hold, hunrevoked⟩

/-- A name that is not as it is stored spoils the sync in which it comes last: it is refused, or its group is
created under another name. -/
theorem not_synced_of_last {clock : String → ℚ} {start : String} {claimed others : List String} {name : String}
    {userId : Nat} {d d' : Database} (hd : d.GroupsNamed) (huser : (d.userById userId).isSome = true)
    (hclaimed : name ∈ claimed) (hname : ¬ IsGroupName name)
    (h : syncGroups clock start (others ++ [name]) userId d = .ok d') : ¬ Synced start claimed userId d d' := by
  intro hsynced
  obtain ⟨middle, hloop, -, hrec, -⟩ := syncGroups_ok clock start _ userId d d' hd huser h
  obtain ⟨before, hothers, hlast⟩ := (foldlM_append_ok _ _ _ _ _).mp hloop
  obtain ⟨joined, hlast, hend⟩ := (foldlM_cons_ok _ _ _ _ _).mp hlast
  cases hend
  have hjoined := ensureAll_ok clock userId others d before hd huser hothers
  have hsame : (before.userById userId).isSome = true := by
    rw [Database.userById_congr hjoined.users]
    exact huser
  cases ensureAndJoin_ok clock userId before middle name hsame hlast with
  | found g hmem hgname hjoins =>
      apply hname
      rw [← hgname]
      exact hjoined.named g hmem
  | created g first hgname hblank hraw hfree hid htables hjoins =>
      have hunclaimed : g.name ∉ others ++ [name] := by
        rw [hgname]
        intro hmem
        rcases List.mem_append.mp hmem with hother | hself
        · obtain ⟨g', hg', heq⟩ := hjoined.exist _ hother
          rw [Text.strip_strip] at heq
          exact hfree (List.mem_map.mpr ⟨g', hg', heq⟩)
        · rw [List.mem_singleton] at hself
          apply hname
          rw [← hself]
          exact isGroupName_strip name hblank
      have hg : g ∈ middle.groups := by
        rw [hjoins.groups, htables]
        simp
      have hg' : g ∈ d'.groups := by
        rw [hrec.groups]
        exact hg
      have hrow : (⟨g.id, .user, userId⟩ : Membership) ∈ middle.memberships :=
        (hjoins.memberships _).mpr (.inr rfl)
      cases hbegins : Text.startsWith g.name start with
      | true =>
          have hkept := (hsynced.members g hg' hbegins).mpr (by
            rw [hgname]
            exact List.mem_map_of_mem hclaimed)
          exact ((hrec.memberships _).mp hkept).2 ⟨rfl, rfl, (revoked_iff hg).mpr ⟨hbegins, hunclaimed⟩⟩
      | false =>
          have hkept : (⟨g.id, .user, userId⟩ : Membership) ∈ d'.memberships := by
            rw [hrec.memberships]
            refine ⟨hrow, ?_⟩
            rintro ⟨-, -, hrev⟩
            have htrue := ((revoked_iff hg).mp hrev).1
            rw [hbegins] at htrue
            cases htrue
          have hold := ((hsynced.outside g hg' hbegins).mp hkept).1
          apply hfree
          rw [← hgname]
          exact List.mem_map_of_mem (hjoined.kept g hold)

theorem startsWith_of_mem_claimedGroups (claims : OrderedDict String Json) (start name : String)
    (h : name ∈ claimedGroups claims start) : Text.startsWith name start = true := by
  unfold claimedGroups at h
  split at h
  · obtain ⟨item, -, hitem⟩ := List.mem_filterMap.mp h
    split at hitem
    · split at hitem
      · rename_i hbegins
        cases hitem
        exact hbegins
      · cases hitem
    · cases hitem
  · cases h

/-- An order in which a set with these elements is iterated. -/
structure IterationOf (elements order : List String) : Prop where
  nodup : order.Nodup
  mem : ∀ name, name ∈ order ↔ name ∈ elements

/-- The claimed names are as they are stored, and every group that lists the user exists, at the latest when the
missing groups have been created. -/
structure Syncable (claimed : List String) (userId : Nat) (d : Database) : Prop where
  names : ∀ name ∈ claimed, IsGroupName name
  listed : ∀ m ∈ d.memberships, m.memberType = .user → m.memberId = userId →
    m.groupId ∈ d.groups.map Group.id ∨ (d.lastGroupId < m.groupId ∧
      m.groupId ≤ d.lastGroupId + claimed.dedup.countP (· ∉ d.groups.map Group.name))

/-- In every order of its iterations, the sync returns and does what it is for. -/
def AlwaysSyncs (clock : String → ℚ) (claims : OrderedDict String Json) (start : String) (userId : Nat)
    (d : Database) : Prop :=
  ∀ desired, IterationOf (claimedGroups claims start) desired →
    ∃ d', syncGroups clock start desired userId d = .ok d' ∧ Synced start (claimedGroups claims start) userId d d'

theorem alwaysSyncs_of_syncable (clock : String → ℚ) (claims : OrderedDict String Json) (start : String)
    (userId : Nat) (d : Database) (hd : d.GroupsNamed) (huser : (d.userById userId).isSome = true)
    (h : Syncable (claimedGroups claims start) userId d) : AlwaysSyncs clock claims start userId d := by
  intro desired horder
  have hnames : ∀ name ∈ desired, IsGroupName name := fun name hname => h.names name ((horder.mem name).mp hname)
  obtain ⟨middle, hloop, hlast, hids⟩ := ensureAll_of_isGroupName clock userId desired d hd huser hnames horder.nodup
  have hjoined := ensureAll_ok clock userId desired d middle hd huser hloop
  have hperm : desired.Perm (claimedGroups claims start).dedup := by
    apply (List.perm_ext_iff_of_nodup horder.nodup (List.nodup_dedup _)).mpr
    intro name
    rw [horder.mem, List.mem_dedup]
  have hexist : ∀ gid ∈ middle.toStore.listParentGroupIds .user userId, gid ∈ middle.groups.map Group.id := by
    intro gid hgid
    have hrow := ((AccountStore.mem_listParentGroupIds _ _ _ _).mp hgid).2
    rcases (hjoined.memberships _).mp hrow with hold | ⟨g, hg, -, heq⟩
    · rw [hids, hlast, hperm.countP_eq]
      exact h.listed _ hold rfl rfl
    · rw [Membership.mk.injEq] at heq
      have hid : gid = g.id := heq.1
      rw [hid]
      exact List.mem_map_of_mem hg
  obtain ⟨d', hrest⟩ := (revokeAll_ok_iff start desired userId _ middle).mpr hexist
  have hsync : syncGroups clock start desired userId d = .ok d' := by
    unfold syncGroups
    rw [hloop]
    exact hrest
  refine ⟨d', hsync, ?_⟩
  obtain ⟨middle', hloop', hjoined', hrec, -⟩ := syncGroups_ok clock start desired userId d d' hd huser hsync
  exact synced_of_reconciled horder.mem h.names (startsWith_of_mem_claimedGroups claims start) hjoined' hrec

/-- `_sync_groups` is authoritative in every order of its iterations, exactly if the claimed names are as they are
stored and no group that lists the user is missing. -/
theorem alwaysSyncs_iff (clock : String → ℚ) (claims : OrderedDict String Json) (start : String) (userId : Nat)
    (d : Database) (hd : d.GroupsNamed) (huser : (d.userById userId).isSome = true) :
    AlwaysSyncs clock claims start userId d ↔ Syncable (claimedGroups claims start) userId d := by
  constructor
  · intro hsyncs
    have hnames : ∀ name ∈ claimedGroups claims start, IsGroupName name := by
      intro name hname
      by_contra hbad
      -- The name goes last.
      have horder : IterationOf (claimedGroups claims start)
        ((claimedGroups claims start).dedup.erase name ++ [name]) := by
        have hnodup := List.nodup_dedup (claimedGroups claims start)
        refine ⟨?_, ?_⟩
        · rw [← List.concat_eq_append]
          exact (hnodup.erase name).concat hnodup.not_mem_erase
        · intro other
          rw [List.mem_append, hnodup.mem_erase_iff, List.mem_dedup, List.mem_singleton]
          constructor
          · rintro (⟨-, hmem⟩ | rfl)
            · exact hmem
            · exact hname
          · intro hmem
            by_cases hsame : other = name
            · exact .inr hsame
            · exact .inl ⟨hsame, hmem⟩
      obtain ⟨d', hsync, hsynced⟩ := hsyncs _ horder
      exact not_synced_of_last hd huser hname hbad hsync hsynced
    refine ⟨hnames, ?_⟩
    intro m hm htype hmember
    have horder : IterationOf (claimedGroups claims start) (claimedGroups claims start).dedup :=
      ⟨List.nodup_dedup _, fun _ => List.mem_dedup⟩
    obtain ⟨d', hsync, -⟩ := hsyncs _ horder
    obtain ⟨middle, hloop, hjoined, -, hlisted⟩ := syncGroups_ok clock start _ userId d d' hd huser hsync
    obtain ⟨middle', hloop', hlast, hids⟩ := ensureAll_of_isGroupName clock userId _ d hd huser
      (fun name hname => hnames name (List.mem_dedup.mp hname)) (List.nodup_dedup _)
    rw [hloop] at hloop'
    cases hloop'
    rw [← hlast, ← hids]
    exact hlisted m ((hjoined.memberships m).mpr (.inl hm)) htype hmember
  · exact alwaysSyncs_of_syncable clock claims start userId d hd huser

/-- The user `ada`, and no groups yet. -/
def firstLogin : Database :=
  { Database.empty with
    users := [⟨1, "ada", none, [0], 0, true⟩]
    lastUserId := 1
    constraints := by constructor <;> simp [Database.empty] }

/-- One group; the identity provider has it with a blank at the end. -/
def blankClaims : OrderedDict String Json := [("groups", .arr [.str "app:files:eng "])]

theorem alwaysSyncs_iff_firstLogin :
    AlwaysSyncs (fun _ => 0) [("groups", .arr [.str "app:files:eng", .int 7])] "app:files:" 1 firstLogin := by
  apply (alwaysSyncs_iff _ _ _ 1 firstLogin (by simp [Database.GroupsNamed, firstLogin, Database.empty])
    (by decide)).mpr
  refine ⟨?_, by simp [firstLogin, Database.empty]⟩
  have hclaimed : claimedGroups [("groups", .arr [.str "app:files:eng", .int 7])] "app:files:" = ["app:files:eng"] := by
    decide +kernel
  rw [hclaimed]
  simp only [List.mem_singleton, forall_eq]
  exact ⟨by decide +kernel, by decide⟩

theorem not_alwaysSyncs_blank : ¬ AlwaysSyncs (fun _ => 0) blankClaims "app:files:" 1 firstLogin := by
  intro hsyncs
  have hclaimed : claimedGroups blankClaims "app:files:" = ["app:files:eng "] := by decide +kernel
  obtain ⟨d', hsync, hsynced⟩ := hsyncs ["app:files:eng "] ⟨by decide, by simp [hclaimed]⟩
  have hmemberships : d'.memberships = [] := by
    have heval : (match syncGroups (fun _ => 0) "app:files:" ["app:files:eng "] 1 firstLogin with
        | .ok d' => decide (d'.memberships = [])
        | .error _ => false) = true := by decide +kernel
    rw [hsync] at heval
    exact of_decide_eq_true heval
  rw [hclaimed] at hsynced
  obtain ⟨g, hg, hname⟩ := hsynced.exist _ (List.mem_singleton.mpr rfl)
  have hkept := (hsynced.members g hg (by rw [hname]; decide +kernel)).mpr (by simp [hname])
  rw [hmemberships] at hkept
  cases hkept

end NetworkFileServer.Relay
