import Mathlib.Logic.Relation
import NetworkFileServer.Framework.TransitionSystem

/-!
# Calls that share one transaction

Coroutines on one database connection. A connection has one implicit transaction: the first write
opens it, and the commit or the rollback of any call ends it for all of them. A call is a position in
its code, and at a position it awaits one statement, a commit or a rollback.

The logs say which call made which write, and which writes have been committed.
-/

namespace SharedTransaction

variable {δ π ρ : Type*}

/-- What a call awaits. A statement that writes nothing is `none`; the call goes on with what the
statement found in the database. -/
inductive Await (δ π : Type*) where
  | statement (write : δ → Option δ) (next : δ → π)
  | commit (next : π)
  | rollback (next : π)
  | returned
  | raised

/-- A call that is part of another one. -/
def Await.map {τ : Type*} (f : π → τ) : Await δ π → Await δ τ
  | .statement write next => .statement write fun d => f (next d)
  | .commit next => .commit (f next)
  | .rollback next => .rollback (f next)
  | .returned => .returned
  | .raised => .raised

theorem Await.map_eq_statement {τ : Type*} (f : π → τ) (a : Await δ π) (write : δ → Option δ) (next : δ → τ)
    (h : a.map f = .statement write next) : ∃ next', a = .statement write next' := by
  cases a with
  | statement write' next' =>
      simp only [Await.map, Await.statement.injEq] at h
      obtain ⟨rfl, -⟩ := h
      exact ⟨next', rfl⟩
  | _ => cases h

/-- A write with the call that made it. -/
structure Write (δ : Type*) where
  owner : Nat
  run : δ → Option δ

/-- The database that results from these writes. -/
def replay (writes : List (Write δ)) (d : δ) : δ := writes.foldl (fun d w => (w.run d).getD d) d

structure Connection (δ π : Type*) where
  /-- The database without the open transaction. -/
  durable : δ
  /-- The database as the statements see it. -/
  current : δ
  calls : List π
  /-- The writes that their calls have not taken back by a rollback. -/
  written : List (Write δ)
  /-- The writes of the open transaction. -/
  pending : List (Write δ)
  committed : List (Write δ)

def connect (d : δ) : Connection δ π := ⟨d, d, [], [], [], []⟩

inductive Action (ρ : Type*) where
  | start (request : ρ)
  | resume (i : Nat)
deriving DecidableEq

/-- A call begins, or what a call awaits is done and the call runs to its next await. -/
def step (entry : ρ → π) (awaits : π → Await δ π) (s : Connection δ π) :
    Action ρ → Option (Connection δ π)
  | .start request => some { s with calls := s.calls ++ [entry request] }
  | .resume i =>
      match s.calls[i]? with
      | none => none
      | some p =>
          match awaits p with
          | .statement write next =>
              match write s.current with
              | none => some { s with calls := s.calls.set i (next s.current) }
              | some d =>
                  some
                    { s with
                      current := d
                      calls := s.calls.set i (next s.current)
                      written := s.written ++ [⟨i, write⟩]
                      pending := s.pending ++ [⟨i, write⟩] }
          | .commit next =>
              some
                { s with
                  durable := s.current
                  calls := s.calls.set i next
                  pending := []
                  committed := s.committed ++ s.pending }
          | .rollback next =>
              some
                { s with
                  current := s.durable
                  calls := s.calls.set i next
                  written := s.written.filter fun w => w.owner ≠ i
                  pending := [] }
          | .returned | .raised => none

/-- The writes of one call. -/
def ownedBy (i : Nat) (writes : List (Write δ)) : List (Write δ) := writes.filter fun w => w.owner = i

/-- The call at the position has returned with all of its writes committed, or it has raised and none
of them is, or it is still running. -/
def AtomicAt (awaits : π → Await δ π) (s : Connection δ π) (i : Nat) (p : π) : Prop :=
  match awaits p with
  | .returned => ownedBy i s.committed = ownedBy i s.written
  | .raised => ownedBy i s.committed = []
  | .statement _ _ | .commit _ | .rollback _ => True

/-- Every call is atomic. -/
def Atomic (awaits : π → Await δ π) (s : Connection δ π) : Prop :=
  ∀ i p, s.calls[i]? = some p → AtomicAt awaits s i p

/-- A rollback takes back the writes of its own call, all of them and no others. -/
def OwnRollback (awaits : π → Await δ π) (s : Connection δ π) : Action ρ → Prop
  | .start _ => True
  | .resume i =>
      match s.calls[i]?.map awaits with
      | some (.rollback _) => (∀ w ∈ s.pending, w.owner = i) ∧ ∀ w ∈ s.committed, w.owner ≠ i
      | _ => True

instance decidableOwnRollback (awaits : π → Await δ π) (s : Connection δ π) (a : Action ρ) :
    Decidable (OwnRollback awaits s a) :=
  match a with
  | .start _ => isTrue trivial
  | .resume i =>
      match h : s.calls[i]?.map awaits with
      | some (.rollback _) =>
          decidable_of_iff ((∀ w ∈ s.pending, w.owner = i) ∧ ∀ w ∈ s.committed, w.owner ≠ i)
            (by simp [OwnRollback, h])
      | none | some (.statement _ _) | some (.commit _) | some .returned | some .raised =>
          isTrue (by simp [OwnRollback, h])

theorem step_resume_cases (entry : ρ → π) (awaits : π → Await δ π) (s t : Connection δ π) (i : Nat)
    (h : step entry awaits s (.resume i) = some t) :
    ∃ p, s.calls[i]? = some p ∧
      ((∃ write next, awaits p = .statement write next ∧ write s.current = none ∧
          t = { s with calls := s.calls.set i (next s.current) }) ∨
        (∃ write next d, awaits p = .statement write next ∧ write s.current = some d ∧
          t = { s with
            current := d, calls := s.calls.set i (next s.current), written := s.written ++ [⟨i, write⟩],
            pending := s.pending ++ [⟨i, write⟩] }) ∨
        (∃ next, awaits p = .commit next ∧
          t = { s with
            durable := s.current, calls := s.calls.set i next, pending := [],
            committed := s.committed ++ s.pending }) ∨
        ∃ next, awaits p = .rollback next ∧
          t = { s with
            current := s.durable, calls := s.calls.set i next,
            written := s.written.filter fun w => w.owner ≠ i, pending := [] }) := by
  unfold step at h
  cases hp : s.calls[i]? with
  | none => simp [hp] at h
  | some p =>
      refine ⟨p, rfl, ?_⟩
      simp only [hp] at h
      cases hawaits : awaits p with
      | statement write next =>
          simp only [hawaits] at h
          cases hwrite : write s.current with
          | none => exact .inl ⟨write, next, rfl, hwrite, by simpa [hwrite] using h.symm⟩
          | some d => exact .inr (.inl ⟨write, next, d, rfl, hwrite, by simpa [hwrite] using h.symm⟩)
      | commit next => exact .inr (.inr (.inl ⟨next, rfl, by simpa [hawaits] using h.symm⟩))
      | rollback next => exact .inr (.inr (.inr ⟨next, rfl, by simpa [hawaits] using h.symm⟩))
      | returned => simp [hawaits] at h
      | raised => simp [hawaits] at h

theorem step_start (entry : ρ → π) (awaits : π → Await δ π) (s t : Connection δ π) (request : ρ)
    (h : step entry awaits s (.start request) = some t) :
    t = { s with calls := s.calls ++ [entry request] } := (Option.some.inj h).symm

/-- `Q` of the database as it is and without the open transaction, and `R` of every call. -/
structure Holds (Q : δ → Prop) (R : π → Prop) (s : Connection δ π) : Prop where
  current : Q s.current
  durable : Q s.durable
  calls : ∀ (i : Nat) (p : π), s.calls[i]? = some p → R p

/-- Calls that go on as `R` says leave only their writes to look at: a commit and a rollback make no
database that is not there before. -/
theorem holds_step (entry : ρ → π) (awaits : π → Await δ π) (Q : δ → Prop) (R : π → Prop)
    (hentry : ∀ request, R (entry request))
    (hnext : ∀ p write next d, awaits p = .statement write next → R p → R (next d))
    (hends : ∀ p next, awaits p = .commit next ∨ awaits p = .rollback next → R next)
    (s : Connection δ π) (a : Action ρ) (t : Connection δ π) (hs : Holds Q R s)
    (hwrite : ∀ i p write next d, a = .resume i → s.calls[i]? = some p →
      awaits p = .statement write next → write s.current = some d → Q d)
    (h : step entry awaits s a = some t) : Holds Q R t := by
  cases a with
  | start request =>
      cases step_start entry awaits s t request h
      refine ⟨hs.current, hs.durable, ?_⟩
      intro i p hp
      rcases TransitionSystem.getElem?_concat_cases hp with hold | ⟨-, rfl⟩
      · exact hs.calls i p hold
      · exact hentry request
  | resume i =>
      obtain ⟨p, hp, hcases⟩ := step_resume_cases entry awaits s t i h
      have hset : ∀ q, R q → ∀ (j : Nat) (r : π), (s.calls.set i q)[j]? = some r → R r := by
        intro q hq j r hr
        rcases TransitionSystem.getElem?_set_cases hr with ⟨-, rfl⟩ | ⟨-, hold⟩
        · exact hq
        · exact hs.calls j r hold
      rcases hcases with ⟨write, next, hawaits, -, rfl⟩ | ⟨write, next, d, hawaits, hd, rfl⟩ |
        ⟨next, hawaits, rfl⟩ | ⟨next, hawaits, rfl⟩
      · have hq := hnext p write next s.current hawaits (hs.calls i p hp)
        exact ⟨hs.current, hs.durable, hset _ hq⟩
      · have hq := hnext p write next s.current hawaits (hs.calls i p hp)
        exact ⟨hwrite i p write next d rfl hp hawaits hd, hs.durable, hset _ hq⟩
      · exact ⟨hs.current, hs.current, hset next (hends p next (.inl hawaits))⟩
      · exact ⟨hs.durable, hs.durable, hset next (hends p next (.inr hawaits))⟩

theorem replay_append (ws ws' : List (Write δ)) (d : δ) :
    replay (ws ++ ws') d = replay ws' (replay ws d) := by
  simp [replay]

/-- The logs account for both databases. -/
structure Logged (initial : δ) (s : Connection δ π) : Prop where
  durable : s.durable = replay s.committed initial
  current : s.current = replay s.pending s.durable
  owners : ∀ w, w ∈ s.written ∨ w ∈ s.pending ∨ w ∈ s.committed → w.owner < s.calls.length

theorem logged_connect (d : δ) : Logged d (connect d : Connection δ π) :=
  ⟨rfl, rfl, by simp [connect]⟩

/-- In every run the committed database is what the committed writes make of the initial one. -/
theorem logged_step (entry : ρ → π) (awaits : π → Await δ π) (initial : δ) (s : Connection δ π)
    (a : Action ρ) (t : Connection δ π) (hs : Logged initial s) (h : step entry awaits s a = some t) :
    Logged initial t := by
  cases a with
  | start request =>
      cases step_start entry awaits s t request h
      refine ⟨hs.durable, hs.current, ?_⟩
      intro w hw
      have hlt := hs.owners w hw
      simp only [List.length_append, List.length_cons, List.length_nil]
      omega
  | resume i =>
      obtain ⟨p, hp, hcases⟩ := step_resume_cases entry awaits s t i h
      have hi : i < s.calls.length := (List.getElem?_eq_some_iff.mp hp).1
      rcases hcases with ⟨write, next, -, -, rfl⟩ | ⟨write, next, d, -, hwrite, rfl⟩ | ⟨next, -, rfl⟩ |
        ⟨next, -, rfl⟩
      · exact ⟨hs.durable, hs.current, by simpa using hs.owners⟩
      · refine ⟨hs.durable, ?_, ?_⟩
        · rw [replay_append, ← hs.current]
          simp [replay, hwrite]
        · intro w hw
          simp only [List.mem_append, List.mem_singleton] at hw
          simp only [List.length_set]
          rcases hw with (hw | rfl) | (hw | rfl) | hw
          · exact hs.owners w (.inl hw)
          · exact hi
          · exact hs.owners w (.inr (.inl hw))
          · exact hi
          · exact hs.owners w (.inr (.inr hw))
      · refine ⟨?_, rfl, ?_⟩
        · rw [replay_append, ← hs.durable, ← hs.current]
        · intro w hw
          simp only [List.mem_append, List.not_mem_nil, false_or] at hw
          simp only [List.length_set]
          rcases hw with hw | hw | hw
          · exact hs.owners w (.inl hw)
          · exact hs.owners w (.inr (.inr hw))
          · exact hs.owners w (.inr (.inl hw))
      · refine ⟨hs.durable, rfl, ?_⟩
        intro w hw
        simp only [List.mem_filter, List.not_mem_nil, false_or] at hw
        simp only [List.length_set]
        rcases hw with hw | hw
        · exact hs.owners w (.inl hw.1)
        · exact hs.owners w (.inr (.inr hw))

/-- How far a call is: it has written nothing that it has not taken back, it has writes that it has
not committed itself, or it has committed. -/
inductive Stage where
  | clean
  | writing
  | settled
deriving DecidableEq

/-- A call does not write after its commit, does not return with writes of its own left open, and does
not raise after it has written and not rolled back. -/
structure Disciplined (awaits : π → Await δ π) (stage : π → Stage) : Prop where
  reads : ∀ p write next d, awaits p = .statement write next → write d = none →
    stage (next d) = stage p
  writes : ∀ p write next d d', awaits p = .statement write next → write d = some d' →
    stage p ≠ .settled ∧ stage (next d) = .writing
  commits : ∀ p next, awaits p = .commit next → stage next = .settled
  rollsBack : ∀ p next, awaits p = .rollback next → stage next = .clean
  returns : ∀ p, awaits p = .returned → stage p ≠ .writing
  raises : ∀ p, awaits p = .raised → stage p = .clean

/-- What the logs hold of a call at a stage. -/
structure StageOk (s : Connection δ π) (i : Nat) (stage : Stage) : Prop where
  accounted : ownedBy i s.written = ownedBy i s.committed ++ ownedBy i s.pending
  clean : stage = .clean → ownedBy i s.written = []
  settled : stage = .settled → ownedBy i s.pending = []

/-- Every call is as far as the logs say. -/
def Staged (stage : π → Stage) (s : Connection δ π) : Prop :=
  ∀ i p, s.calls[i]? = some p → StageOk s i (stage p)

theorem ownedBy_append (i : Nat) (ws ws' : List (Write δ)) :
    ownedBy i (ws ++ ws') = ownedBy i ws ++ ownedBy i ws' := List.filter_append _ _

theorem ownedBy_eq_nil (i : Nat) (ws : List (Write δ)) :
    ownedBy i ws = [] ↔ ∀ w ∈ ws, w.owner ≠ i := by
  simp [ownedBy, List.filter_eq_nil_iff]

theorem ownedBy_singleton_ne {i j : Nat} (write : δ → Option δ) (hij : j ≠ i) :
    ownedBy j [(⟨i, write⟩ : Write δ)] = [] := by
  simp [ownedBy, Ne.symm hij]

theorem ownedBy_filter_self (i : Nat) (ws : List (Write δ)) :
    ownedBy i (ws.filter fun w => w.owner ≠ i) = [] := by
  simp [ownedBy, List.filter_filter]

theorem ownedBy_filter_ne {i j : Nat} (ws : List (Write δ)) (hij : j ≠ i) :
    ownedBy j (ws.filter fun w => w.owner ≠ i) = ownedBy j ws := by
  unfold ownedBy
  rw [List.filter_filter]
  apply List.filter_congr
  intro w _
  by_cases hw : w.owner = j <;> simp [hw, hij]

private theorem staged_start (stage : π → Stage) (s : Connection δ π) (p : π) (initial : δ)
    (hlogged : Logged initial s) (hs : Staged stage s) (hp : stage p = .clean) :
    Staged stage { s with calls := s.calls ++ [p] } := by
  intro i q hq
  rcases TransitionSystem.getElem?_concat_cases hq with hold | ⟨rfl, rfl⟩
  · obtain ⟨haccounted, hclean, hsettled⟩ := hs i q hold
    exact ⟨haccounted, hclean, hsettled⟩
  · -- No write belongs to a call that has not begun.
    have hnone : ∀ ws : List (Write δ), (∀ w ∈ ws, w.owner < s.calls.length) →
        ownedBy s.calls.length ws = [] := by
      intro ws hws
      apply (ownedBy_eq_nil _ _).mpr
      intro w hw
      exact Nat.ne_of_lt (hws w hw)
    have hwritten := hnone s.written fun w hw => hlogged.owners w (.inl hw)
    have hpending := hnone s.pending fun w hw => hlogged.owners w (.inr (.inl hw))
    have hcommitted := hnone s.committed fun w hw => hlogged.owners w (.inr (.inr hw))
    exact ⟨by rw [hwritten, hpending, hcommitted]; rfl, fun _ => hwritten, fun _ => hpending⟩

private theorem staged_write (stage : π → Stage) (s : Connection δ π) (hs : Staged stage s) (i : Nat) (p q : π)
    (hp : s.calls[i]? = some p) (write : δ → Option δ) (d : δ) (hq : stage q = .writing) :
    Staged stage { s with
      current := d, calls := s.calls.set i q, written := s.written ++ [⟨i, write⟩],
      pending := s.pending ++ [⟨i, write⟩] } := by
  intro j r hr
  rcases TransitionSystem.getElem?_set_cases hr with ⟨rfl, rfl⟩ | ⟨hne, hold⟩
  · refine ⟨?_, by simp [hq], by simp [hq]⟩
    simp only [ownedBy_append, (hs j p hp).accounted, List.append_assoc]
  · obtain ⟨haccounted, hclean, hsettled⟩ := hs j r hold
    refine ⟨?_, ?_, ?_⟩
    · simpa only [ownedBy_append, ownedBy_singleton_ne write hne, List.append_nil] using haccounted
    · simpa only [ownedBy_append, ownedBy_singleton_ne write hne, List.append_nil] using hclean
    · simpa only [ownedBy_append, ownedBy_singleton_ne write hne, List.append_nil] using hsettled

private theorem staged_commit (stage : π → Stage) (s : Connection δ π) (hs : Staged stage s) (i : Nat)
    (p q : π) (hp : s.calls[i]? = some p) (hq : stage q = .settled) :
    Staged stage { s with
      durable := s.current, calls := s.calls.set i q, pending := [],
      committed := s.committed ++ s.pending } := by
  intro j r hr
  rcases TransitionSystem.getElem?_set_cases hr with ⟨rfl, rfl⟩ | ⟨-, hold⟩
  · refine ⟨?_, by simp [hq], fun _ => rfl⟩
    rw [(hs j p hp).accounted]
    simp [ownedBy]
  · obtain ⟨haccounted, hclean, -⟩ := hs j r hold
    refine ⟨?_, hclean, fun _ => rfl⟩
    rw [haccounted]
    simp [ownedBy]

private theorem staged_rollback (stage : π → Stage) (s : Connection δ π) (hs : Staged stage s) (i : Nat)
    (q : π) (hpending : ∀ w ∈ s.pending, w.owner = i) (hcommitted : ∀ w ∈ s.committed, w.owner ≠ i)
    (hq : stage q = .clean) :
    Staged stage { s with
      current := s.durable, calls := s.calls.set i q, written := s.written.filter fun w => w.owner ≠ i,
      pending := [] } := by
  intro j r hr
  rcases TransitionSystem.getElem?_set_cases hr with ⟨rfl, rfl⟩ | ⟨hne, hold⟩
  · have hnone := (ownedBy_eq_nil j s.committed).mpr hcommitted
    refine ⟨?_, fun _ => ownedBy_filter_self j s.written, by simp [hq]⟩
    rw [ownedBy_filter_self, hnone]
    rfl
  · obtain ⟨haccounted, hclean, -⟩ := hs j r hold
    have hnone : ownedBy j s.pending = [] := by
      apply (ownedBy_eq_nil j s.pending).mpr
      intro w hw hj
      exact hne (hj.symm.trans (hpending w hw))
    rw [hnone] at haccounted
    refine ⟨?_, ?_, fun _ => rfl⟩
    · rw [ownedBy_filter_ne s.written hne, haccounted]
      rfl
    · rw [ownedBy_filter_ne s.written hne]
      exact hclean

/-- Calls that end their own transactions keep in step with the logs as long as a rollback takes back
the writes of its own call only. -/
theorem staged_step (entry : ρ → π) (awaits : π → Await δ π) (stage : π → Stage)
    (hdisciplined : Disciplined awaits stage) (hentry : ∀ request, stage (entry request) = .clean)
    (initial : δ) (s : Connection δ π) (a : Action ρ) (t : Connection δ π)
    (hs : Logged initial s ∧ Staged stage s) (hcond : OwnRollback awaits s a)
    (h : step entry awaits s a = some t) : Logged initial t ∧ Staged stage t := by
  refine ⟨logged_step entry awaits initial s a t hs.1 h, ?_⟩
  cases a with
  | start request =>
      cases step_start entry awaits s t request h
      exact staged_start stage s (entry request) initial hs.1 hs.2 (hentry request)
  | resume i =>
      obtain ⟨p, hp, hcases⟩ := step_resume_cases entry awaits s t i h
      rcases hcases with ⟨write, next, hawaits, hnone, rfl⟩ | ⟨write, next, d, hawaits, hwrite, rfl⟩ |
        ⟨next, hawaits, rfl⟩ | ⟨next, hawaits, rfl⟩
      · intro j r hr
        rcases TransitionSystem.getElem?_set_cases hr with ⟨rfl, rfl⟩ | ⟨-, hold⟩
        · obtain ⟨haccounted, hclean, hsettled⟩ := hs.2 j p hp
          rw [hdisciplined.reads p write next s.current hawaits hnone]
          exact ⟨haccounted, hclean, hsettled⟩
        · obtain ⟨haccounted, hclean, hsettled⟩ := hs.2 j r hold
          exact ⟨haccounted, hclean, hsettled⟩
      · have hwriting := (hdisciplined.writes p write next s.current d hawaits hwrite).2
        exact staged_write stage s hs.2 i p _ hp write d hwriting
      · exact staged_commit stage s hs.2 i p next hp (hdisciplined.commits p next hawaits)
      · simp only [OwnRollback, hp, Option.map_some, hawaits] at hcond
        exact staged_rollback stage s hs.2 i next hcond.1 hcond.2
          (hdisciplined.rollsBack p next hawaits)

theorem atomic_of_staged (awaits : π → Await δ π) (stage : π → Stage)
    (hdisciplined : Disciplined awaits stage) (s : Connection δ π) (hs : Staged stage s) :
    Atomic awaits s := by
  intro i p hp
  obtain ⟨haccounted, hclean, hsettled⟩ := hs i p hp
  unfold AtomicAt
  cases hawaits : awaits p with
  | statement write next => trivial
  | commit next => trivial
  | rollback next => trivial
  | returned =>
      simp only
      have hpending : ownedBy i s.pending = [] := by
        cases hstage : stage p with
        | clean =>
            have hnone := hclean hstage
            rw [haccounted] at hnone
            exact (List.append_eq_nil_iff.mp hnone).2
        | writing => exact absurd hstage (hdisciplined.returns p hawaits)
        | settled => exact hsettled hstage
      rw [haccounted, hpending, List.append_nil]
  | raised =>
      simp only
      have hnone := hclean (hdisciplined.raises p hawaits)
      rw [haccounted] at hnone
      exact (List.append_eq_nil_iff.mp hnone).1

/-- Calls that end their own transactions are atomic in every interleaving in which each rollback takes
back the writes of its own call, all of them and no others. -/
theorem atomic_throughout (entry : ρ → π) (awaits : π → Await δ π) (stage : π → Stage)
    (hdisciplined : Disciplined awaits stage) (hentry : ∀ request, stage (entry request) = .clean)
    (d : δ) (as : List (Action ρ))
    (hguard : TransitionSystem.Guarded (step entry awaits) (OwnRollback awaits) (connect d) as) :
    TransitionSystem.Throughout (step entry awaits)
      (fun s => Atomic awaits s ∧ s.durable = replay s.committed d) (connect d) as := by
  apply TransitionSystem.throughout_of_guarded _ (OwnRollback awaits)
    (fun s => Logged d s ∧ Staged stage s) _ _
    (staged_step entry awaits stage hdisciplined hentry d) _ hguard
  · intro s hs
    exact ⟨atomic_of_staged awaits stage hdisciplined s hs.2, hs.1.durable⟩
  · refine ⟨logged_connect d, ?_⟩
    intro i p hp
    simp [connect] at hp

/-- The next await of a call, given the committed and the current database. -/
def advance (awaits : π → Await δ π) : δ × δ × π → Option (δ × δ × π)
  | (durable, current, p) =>
      match awaits p with
      | .statement write next => some (durable, (write current).getD current, next current)
      | .commit next => some (current, current, next)
      | .rollback next => some (durable, durable, next)
      | .returned | .raised => none

/-- The call gets from one position to another without any other call moving. -/
def Alone (awaits : π → Await δ π) : δ × δ × π → δ × δ × π → Prop :=
  Relation.ReflTransGen fun x y => advance awaits x = some y

theorem step_of_advance (entry : ρ → π) (awaits : π → Await δ π) (s : Connection δ π) (p q : π) (d d' : δ)
    (hcalls : s.calls = [p]) (h : advance awaits (s.durable, s.current, p) = some (d, d', q)) :
    ∃ t, step entry awaits s (.resume 0) = some t ∧ t.durable = d ∧ t.current = d' ∧ t.calls = [q] := by
  unfold advance at h
  simp only [step, hcalls, List.getElem?_cons_zero]
  cases hawaits : awaits p with
  | statement write next =>
      simp only [hawaits, Option.some.injEq, Prod.mk.injEq] at h ⊢
      obtain ⟨rfl, rfl, rfl⟩ := h
      cases hwrite : write s.current with
      | none => exact ⟨_, rfl, rfl, rfl, rfl⟩
      | some written => exact ⟨_, rfl, rfl, rfl, rfl⟩
  | commit next =>
      simp only [hawaits, Option.some.injEq, Prod.mk.injEq] at h
      obtain ⟨rfl, rfl, rfl⟩ := h
      exact ⟨_, rfl, rfl, rfl, rfl⟩
  | rollback next =>
      simp only [hawaits, Option.some.injEq, Prod.mk.injEq] at h
      obtain ⟨rfl, rfl, rfl⟩ := h
      exact ⟨_, rfl, rfl, rfl, rfl⟩
  | returned => simp [hawaits] at h
  | raised => simp [hawaits] at h

theorem run_of_alone (entry : ρ → π) (awaits : π → Await δ π) (s : Connection δ π) (p : π)
    (y : δ × δ × π) (hcalls : s.calls = [p]) (h : Alone awaits (s.durable, s.current, p) y) :
    ∃ n t, TransitionSystem.run (step entry awaits) s (List.replicate n (.resume 0)) = some t ∧
      t.durable = y.1 ∧ t.current = y.2.1 ∧ t.calls = [y.2.2] := by
  generalize hx : (s.durable, s.current, p) = x at h
  induction h using Relation.ReflTransGen.head_induction_on generalizing s p with
  | refl =>
      subst hx
      exact ⟨0, s, rfl, rfl, rfl, hcalls⟩
  | @head _ x hstep _ ih =>
      subst hx
      obtain ⟨t, ht, hdurable, hcurrent, htcalls⟩ :=
        step_of_advance entry awaits s p x.2.2 x.1 x.2.1 hcalls hstep
      obtain ⟨n, u, hu, hend⟩ := ih t x.2.2 htcalls (by rw [hdurable, hcurrent])
      exact ⟨n + 1, u, (TransitionSystem.run_cons_eq_some _ _ _ _ _).mpr ⟨t, ht, hu⟩, hend⟩

theorem run_start_of_alone (entry : ρ → π) (awaits : π → Await δ π) (d : δ) (request : ρ) (y : δ × δ × π)
    (h : Alone awaits (d, d, entry request) y) :
    ∃ n t, TransitionSystem.run (step entry awaits) (connect d)
        (.start request :: List.replicate n (.resume 0)) = some t ∧
      t.durable = y.1 ∧ t.current = y.2.1 ∧ t.calls = [y.2.2] := by
  obtain ⟨n, t, hrun, hend⟩ :=
    run_of_alone entry awaits { connect d with calls := [entry request] } (entry request) y rfl h
  exact ⟨n, t, (TransitionSystem.run_cons_eq_some _ _ _ _ _).mpr ⟨_, rfl, hrun⟩, hend⟩

end SharedTransaction
