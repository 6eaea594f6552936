import RelayControl.RestartFlag
import Mathlib.Data.List.Basic
import Mathlib.Tactic.Tauto

/-!
The restart flag among any number of callers. Their uses, in whatever order they take turns, are
answered like those of one run; and in a run the flag is set just while a mark waits for a consume.
-/

namespace RelayControl

namespace RestartFlag

variable {f : RestartFlag} {u : Use} {uses : List Use}

def Outstanding (uses : List Use) : Prop :=
  ∃ before after, uses = before ++ .mark :: after ∧ .consume ∉ after

theorem not_outstanding_nil : ¬Outstanding [] := by
  rintro ⟨before, after, nothing, -⟩
  cases before <;> cases nothing

theorem outstanding_cons :
    Outstanding (u :: uses) ↔ Outstanding uses ∨ u = .mark ∧ .consume ∉ uses := by
  constructor
  · rintro ⟨before, after, split, unconsumed⟩
    cases before with
    | nil =>
        obtain ⟨rfl, rfl⟩ := List.cons.inj split
        exact .inr ⟨rfl, unconsumed⟩
    | cons first before => exact .inl ⟨before, after, (List.cons.inj split).2, unconsumed⟩
  · rintro (⟨before, after, rfl, unconsumed⟩ | ⟨rfl, unconsumed⟩)
    · exact ⟨u :: before, after, rfl, unconsumed⟩
    · exact ⟨[], uses, rfl, unconsumed⟩

theorem outstanding_append {first second : List Use} :
    Outstanding (first ++ second) ↔
      Outstanding second ∨ Outstanding first ∧ .consume ∉ second := by
  induction first with
  | nil => simp [not_outstanding_nil]
  | cons u rest ih =>
      rw [List.cons_append, outstanding_cons, outstanding_cons, ih, List.mem_append]
      tauto

theorem Outstanding.mark_mem (outstanding : Outstanding uses) : .mark ∈ uses := by
  obtain ⟨before, after, rfl, -⟩ := outstanding
  simp

/-! One run of uses. -/

theorem run_cons_fst : (f.run (u :: uses)).1 = (f.use u).1 :: ((f.use u).2.run uses).1 := rfl

theorem run_cons_snd : (f.run (u :: uses)).2 = ((f.use u).2.run uses).2 := rfl

theorem run_append (f : RestartFlag) (first second : List Use) :
    f.run (first ++ second) =
      ((f.run first).1 ++ ((f.run first).2.run second).1, ((f.run first).2.run second).2) := by
  induction first generalizing f with
  | nil => rfl
  | cons u rest ih => simp [run, ih]

@[simp] theorem length_run (f : RestartFlag) (uses : List Use) :
    (f.run uses).1.length = uses.length := by
  induction uses generalizing f with
  | nil => rfl
  | cons u rest ih => rw [run_cons_fst, List.length_cons, List.length_cons, ih]

theorem dirty_run_iff (f : RestartFlag) (uses : List Use) :
    (f.run uses).2.dirty = true ↔ Outstanding uses ∨ f.dirty = true ∧ .consume ∉ uses := by
  induction uses generalizing f with
  | nil => simp [not_outstanding_nil]
  | cons u rest ih =>
      rw [run_cons_snd, ih, outstanding_cons]
      cases u with
      | mark =>
          simp only [use, mark_dirty, true_and, List.mem_cons, reduceCtorEq, false_or]
          tauto
      | consume => simp [use]

/-- A mark pays for one consume that finds the flag set, or for the flag that is set at the end. -/
theorem count_true_add_dirty_le (f : RestartFlag) (uses : List Use) :
    (f.run uses).1.count (some true) + (f.run uses).2.dirty.toNat ≤
      uses.count .mark + f.dirty.toNat := by
  induction uses generalizing f with
  | nil => simp
  | cons u rest ih =>
      have later := ih (f.use u).2
      rw [run_cons_fst, run_cons_snd, List.count_cons, List.count_cons]
      cases u with
      | mark =>
          have set : (f.use .mark).2.dirty.toNat = 1 := rfl
          have unanswered : ((f.use .mark).1 == some true) = false := rfl
          rw [set] at later
          rw [unanswered, if_neg Bool.false_ne_true, beq_self_eq_true, if_pos rfl]
          omega
      | consume =>
          have cleared : (f.use .consume).2.dirty.toNat = 0 := rfl
          have told : (if (f.use .consume).1 == some true then 1 else 0) = f.dirty.toNat := by
            cases f with
            | mk dirty => cases dirty <;> rfl
          rw [cleared] at later
          rw [told]
          omega

example : (run {} [.mark, .mark, .consume, .consume]).1 = [none, none, some true, some false] := rfl

/-! The callers together. -/

variable {Caller : Type} {journal before after : List (Entry Caller)} {e : Entry Caller}

theorem outstanding_map_use_iff :
    Outstanding (journal.map (·.use)) ↔
      ∃ before m after, journal = before ++ m :: after ∧ m.use = .mark ∧
        ∀ e ∈ after, e.use ≠ .consume := by
  constructor
  · rintro ⟨_, _, split, unconsumed⟩
    obtain ⟨before, rest, rfl, rfl, behind⟩ := List.map_eq_append_iff.mp split
    obtain ⟨m, after, rfl, mark, rfl⟩ := List.map_eq_cons_iff.mp behind
    refine ⟨before, m, after, rfl, mark, fun e member consume => unconsumed ?_⟩
    exact List.mem_map.mpr ⟨e, member, consume⟩
  · rintro ⟨before, m, after, rfl, mark, unconsumed⟩
    refine ⟨before.map (·.use), after.map (·.use), by simp [mark], fun member => ?_⟩
    obtain ⟨e, inside, consume⟩ := List.mem_map.mp member
    exact unconsumed e inside consume

def Entry.Took (e : Entry Caller) : Prop := e.use = .consume ∧ e.answer = some true

instance : DecidablePred (@Entry.Took Caller) :=
  fun _ => inferInstanceAs (Decidable (_ ∧ _))

namespace Sharing

variable {s : Sharing Caller}

structure OneRun (s : Sharing Caller) : Prop where
  answers : s.journal.map (·.answer) = (run {} (s.journal.map (·.use))).1
  flag : s.flag = (run {} (s.journal.map (·.use))).2

theorem OneRun.answer_of_split (oneRun : OneRun s) (split : s.journal = before ++ e :: after) :
    e.answer = ((run {} (before.map (·.use))).2.use e.use).1 := by
  have answers := oneRun.answers
  rw [split, List.map_append, List.map_append, run_append, List.map_cons, List.map_cons,
    run_cons_fst] at answers
  exact (List.cons.inj (List.append_inj answers (by simp)).2).1

theorem OneRun.took_iff (oneRun : OneRun s) (split : s.journal = before ++ e :: after) :
    e.Took ↔ e.use = .consume ∧ Outstanding (before.map (·.use)) := by
  apply and_congr_right
  intro consume
  have told : e.answer = some (run {} (before.map (·.use))).2.dirty := by
    rw [oneRun.answer_of_split split, consume]
    rfl
  rw [told, Option.some.injEq, dirty_run_iff]
  simp

structure Accurate (s : Sharing Caller) : Prop where
  /-- Between two consumes that find the flag set, it is marked. -/
  not_doubled : ∀ before first between second after,
    s.journal = before ++ first :: between ++ second :: after → first.Took → second.Took →
    ∃ m ∈ between, m.use = .mark
  /-- The first consume after a mark finds the flag set. -/
  not_lost : ∀ before m between e after,
    s.journal = before ++ m :: between ++ e :: after → m.use = .mark →
    (∀ other ∈ between, other.use ≠ .consume) → e.use = .consume → e.Took
  paid : s.journal.countP (·.Took) ≤ s.journal.countP (·.use = .mark)
  dirty_iff : s.flag.dirty = true ↔
    ∃ before m after, s.journal = before ++ m :: after ∧ m.use = .mark ∧
      ∀ e ∈ after, e.use ≠ .consume

theorem OneRun.accurate (oneRun : OneRun s) : Accurate s where
  not_doubled before first between second after split took again := by
    have waiting := ((oneRun.took_iff split).mp again).2
    rw [List.map_append, List.map_cons, took.1, outstanding_append, outstanding_cons] at waiting
    obtain (later | ⟨marked, -⟩) | ⟨-, unconsumed⟩ := waiting
    · obtain ⟨m, inside, mark⟩ := List.mem_map.mp later.mark_mem
      exact ⟨m, inside, mark⟩
    · cases marked
    · exact absurd List.mem_cons_self unconsumed
  not_lost before m between e after split mark unconsumed consume :=
    (oneRun.took_iff split).mpr
      ⟨consume, outstanding_map_use_iff.mpr ⟨before, m, between, rfl, mark, unconsumed⟩⟩
  paid := by
    have bound := count_true_add_dirty_le {} (s.journal.map (·.use))
    rw [← oneRun.answers, List.count_eq_countP, List.count_eq_countP, List.countP_map,
      List.countP_map] at bound
    calc s.journal.countP (·.Took)
      _ ≤ s.journal.countP ((· == some true) ∘ (·.answer)) :=
          List.countP_mono_left fun e _ took => by simpa using (of_decide_eq_true took).2
      _ ≤ s.journal.countP ((· == Use.mark) ∘ (·.use)) := by
          have unset : ({} : RestartFlag).dirty.toNat = 0 := rfl
          omega
      _ = s.journal.countP (·.use = .mark) := List.countP_congr fun e _ => by simp
  dirty_iff := by
    rw [oneRun.flag, dirty_run_iff, outstanding_map_use_iff]
    simp

variable [DecidableEq Caller]

theorem turn_of_done {caller : Caller} (done : s.pending caller = []) : s.turn caller = s := by
  rw [turn, done]

theorem turn_of_pending {caller : Caller} {rest : List Use} (next : s.pending caller = u :: rest) :
    s.turn caller =
      { flag := (s.flag.use u).2
        pending := fun other => if other = caller then rest else s.pending other
        journal := s.journal ++ [{ caller, use := u, answer := (s.flag.use u).1 }] } := by
  rw [turn, next]

theorem OneRun.turn (oneRun : OneRun s) (caller : Caller) : OneRun (s.turn caller) := by
  cases next : s.pending caller with
  | nil => rwa [turn_of_done next]
  | cons u rest =>
      rw [turn_of_pending next]
      constructor
      · simp [run_append, ← oneRun.answers, ← oneRun.flag, run]
      · simp [run_append, ← oneRun.flag, run]

def InOrder (programs : Caller → List Use) (s : Sharing Caller) : Prop :=
  ∀ caller, programs caller = s.doneBy caller ++ s.pending caller

theorem InOrder.turn {programs : Caller → List Use} (inOrder : InOrder programs s)
    (caller : Caller) : InOrder programs (s.turn caller) := by
  cases next : s.pending caller with
  | nil => rwa [turn_of_done next]
  | cons u rest =>
      intro other
      rw [inOrder other, turn_of_pending next]
      by_cases own : other = caller
      · subst own
        simp [doneBy, next]
      · simp [doneBy, own, Ne.symm own]

theorem foldl_turn {programs : Caller → List Use} (schedule : List Caller)
    (inOrder : InOrder programs s) (oneRun : OneRun s) :
    InOrder programs (schedule.foldl Sharing.turn s) ∧ OneRun (schedule.foldl Sharing.turn s) := by
  induction schedule generalizing s with
  | nil => exact ⟨inOrder, oneRun⟩
  | cons caller rest ih => exact ih (inOrder.turn caller) (oneRun.turn caller)

end Sharing

/-- However the callers take turns, each makes its uses in its own order, and taken together they
neither lose a mark nor are told of one twice. -/
theorem marks_neither_lost_nor_doubled [DecidableEq Caller] (programs : Caller → List Use)
    (schedule : List Caller) :
    let s := schedule.foldl Sharing.turn { pending := programs }
    s.InOrder programs ∧ s.Accurate := by
  have inOrder : Sharing.InOrder programs { pending := programs } := fun _ => rfl
  have oneRun : Sharing.OneRun { pending := programs } := ⟨rfl, rfl⟩
  obtain ⟨inOrder, oneRun⟩ := Sharing.foldl_turn schedule inOrder oneRun
  exact ⟨inOrder, oneRun.accurate⟩

end RestartFlag

end RelayControl
