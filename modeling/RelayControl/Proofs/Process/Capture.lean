import RelayControl.Process.Capture
import Mathlib.Data.List.Basic

/-!
The tail of the output holds the lines that were pushed last, as many as its limit allows. Two readers
push side by side: in the middle of a push the tail has room for the line, never a line too many, and
whoever takes the lock finds it as if the lines had been pushed one after another.
-/

namespace RelayControl

namespace OutputTail

variable {t : OutputTail} {pushed : List String} {line : String}

/-- The tail holds the last lines that were pushed, as many as there are up to its limit. -/
structure HoldsLast (t : OutputTail) (pushed : List String) : Prop where
  recent : t.lines <:+ pushed
  length : t.lines.length = min t.limit pushed.length

theorem HoldsLast.start (limit : Nat) : HoldsLast { limit } [] :=
  ⟨List.suffix_rfl, (Nat.min_zero limit).symm⟩

theorem HoldsLast.length_le (holds : HoldsLast t pushed) : t.lines.length ≤ t.limit := by
  have length := holds.length
  omega

theorem evict_cases (t : OutputTail) :
    t.lines.length = t.limit ∧ t.evict.lines = t.lines.drop 1 ∨
      t.lines.length ≠ t.limit ∧ t.evict.lines = t.lines := by
  unfold evict
  split
  · rename_i full
    exact .inl ⟨full, rfl⟩
  · rename_i room
    exact .inr ⟨room, rfl⟩

theorem length_evict_le (t : OutputTail) : t.evict.lines.length ≤ t.lines.length := by
  obtain ⟨-, dropped⟩ | ⟨-, kept⟩ := t.evict_cases
  · rw [dropped, List.length_drop]
    exact Nat.sub_le ..
  · exact Nat.le_of_eq (congrArg List.length kept)

theorem HoldsLast.push (holds : HoldsLast t pushed) (line : String) :
    HoldsLast (t.push line) (pushed ++ [line]) := by
  obtain ⟨⟨earlier, rfl⟩, length⟩ := holds
  rw [List.length_append] at length
  by_cases kept : 0 < t.limit
  · have lines : (t.push line).lines = t.evict.lines ++ [line] := by
      rw [OutputTail.push, append, evict_limit, if_pos kept]
    obtain ⟨full, dropped⟩ | ⟨room, all⟩ := t.evict_cases
    · refine ⟨⟨earlier ++ t.lines.take 1, ?_⟩, ?_⟩
      · rw [lines, dropped, ← List.append_assoc, List.append_assoc earlier, List.take_append_drop]
      · rw [lines, dropped, push_limit]
        simp only [List.length_append, List.length_drop, List.length_singleton]
        omega
    · refine ⟨⟨earlier, ?_⟩, ?_⟩
      · rw [lines, all, List.append_assoc]
      · rw [lines, all, push_limit]
        simp only [List.length_append, List.length_singleton]
        omega
  · -- Nothing is kept: the tail is full with no line, and the line is not put in.
    have lines : (t.push line).lines = [] := by
      have shrinks := t.length_evict_le
      rw [OutputTail.push, append, evict_limit, if_neg kept]
      exact List.length_eq_zero_iff.mp (by omega)
    refine ⟨lines ▸ List.nil_suffix, ?_⟩
    rw [lines, push_limit, List.length_nil]
    omega

theorem pushAll_concat (t : OutputTail) (lines : List String) (line : String) :
    t.pushAll (lines ++ [line]) = (t.pushAll lines).push line := by
  simp [pushAll]

theorem HoldsLast.pushAll (holds : HoldsLast t pushed) (lines : List String) :
    HoldsLast (t.pushAll lines) (pushed ++ lines) := by
  induction lines generalizing t pushed with
  | nil => rwa [List.append_nil]
  | cons line rest ih =>
      rw [List.append_cons]
      exact ih (holds.push line)

@[simp] theorem limit_pushAll (t : OutputTail) (lines : List String) :
    (t.pushAll lines).limit = t.limit := by
  induction lines generalizing t with
  | nil => rfl
  | cons line rest ih => exact (ih (t.push line)).trans (push_limit t line)

end OutputTail

namespace Capture

variable {c : Capture} {p : Push} {limit : Nat} {streams : OutputStream → List String}
  {stream : OutputStream}

def settled (limit : Nat) (c : Capture) : OutputTail :=
  OutputTail.pushAll { limit } (c.pushed.map (·.2))

theorem holdsLast_settled (limit : Nat) (c : Capture) :
    (settled limit c).HoldsLast (c.pushed.map (·.2)) :=
  (OutputTail.HoldsLast.start limit).pushAll _

/-- Between two pushes the tail is settled; in the middle of one it has made room already. -/
structure Orderly (limit : Nat) (c : Capture) : Prop where
  halfway : ∀ p, c.lock = some p → p.stage = .appending → c.tail = (settled limit c).evict
  whole : (∀ p, c.lock = some p → p.stage ≠ .appending) → c.tail = settled limit c

theorem Orderly.length_le (orderly : Orderly limit c) : c.tail.lines.length ≤ limit := by
  have bound : (settled limit c).lines.length ≤ limit := by
    simpa [settled] using (holdsLast_settled limit c).length_le
  by_cases middle : ∃ p, c.lock = some p ∧ p.stage = .appending
  · obtain ⟨p, held, appending⟩ := middle
    rw [orderly.halfway p held appending]
    exact Nat.le_trans (OutputTail.length_evict_le _) bound
  · rw [orderly.whole fun p held appending => middle ⟨p, held, appending⟩]
    exact bound

theorem proceed_of_evicting (stage : p.stage = .evicting) :
    c.proceed p = { c with tail := c.tail.evict, lock := some { p with stage := .appending } } := by
  rw [proceed, stage]

theorem proceed_of_appending (stage : p.stage = .appending) :
    c.proceed p =
      { c with
        tail := c.tail.append p.line
        lock := some { p with stage := .releasing }
        pushed := c.pushed ++ [(p.stream, p.line)] } := by
  rw [proceed, stage]

theorem proceed_of_releasing (stage : p.stage = .releasing) :
    c.proceed p = { c with lock := none } := by
  rw [proceed, stage]

theorem Orderly.proceed (orderly : Orderly limit c) (held : c.lock = some p) :
    Orderly limit (c.proceed p) := by
  have whole : p.stage ≠ .appending → c.tail = settled limit c := by
    intro differs
    apply orderly.whole
    rintro q held'
    cases held.symm.trans held'
    exact differs
  cases stage : p.stage with
  | evicting =>
      rw [proceed_of_evicting stage]
      constructor
      · rintro _ ⟨⟩ -
        exact congrArg OutputTail.evict (whole (by simp [stage]))
      · exact fun other => absurd rfl (other _ rfl)
  | appending =>
      rw [proceed_of_appending stage]
      constructor
      · rintro _ ⟨⟩ ⟨⟩
      · intro _
        rw [orderly.halfway p held stage]
        simp [settled, OutputTail.pushAll_concat, OutputTail.push]
  | releasing =>
      rw [proceed_of_releasing stage]
      constructor
      · rintro _ ⟨⟩
      · exact fun _ => whole (by simp [stage])

theorem turn_of_held (held : c.lock = some p) :
    c.turn stream = if p.stream = stream then c.proceed p else c := by
  rw [turn, held]

theorem turn_of_idle (free : c.lock = none) (idle : c.unread stream = []) : c.turn stream = c := by
  rw [turn, free, idle]

theorem turn_of_waiting {line : String} {rest : List String} (free : c.lock = none)
    (waiting : c.unread stream = line :: rest) :
    c.turn stream =
      { c with
        unread := fun other => if other = stream then rest else c.unread other
        lock := some { stream, line } } := by
  rw [turn, free, waiting]

theorem Orderly.turn (orderly : Orderly limit c) (stream : OutputStream) :
    Orderly limit (c.turn stream) := by
  cases held : c.lock with
  | some p =>
      rw [turn_of_held held]
      split
      · exact orderly.proceed held
      · exact orderly
  | none =>
      have whole : c.tail = settled limit c := by
        apply orderly.whole
        simp [held]
      cases waiting : c.unread stream with
      | nil => rwa [turn_of_idle held waiting]
      | cons line rest =>
          rw [turn_of_waiting held waiting]
          constructor
          · rintro _ ⟨⟩ ⟨⟩
          · exact fun _ => whole

/-- Each reader's lines are pushed in their own order, and none of them is left out. -/
def InOrder (streams : OutputStream → List String) (c : Capture) : Prop :=
  ∀ stream, streams stream = c.pushedBy stream ++ c.inHand stream ++ c.unread stream

theorem InOrder.proceed (inOrder : InOrder streams c) (held : c.lock = some p) :
    InOrder streams (c.proceed p) := by
  intro stream
  rw [inOrder stream]
  cases stage : p.stage with
  | evicting =>
      rw [proceed_of_evicting stage]
      simp [pushedBy, inHand, held, stage]
  | appending =>
      rw [proceed_of_appending stage]
      by_cases own : p.stream = stream
      · simp [pushedBy, inHand, held, stage, own]
      · simp [pushedBy, inHand, held, own]
  | releasing =>
      rw [proceed_of_releasing stage]
      simp [pushedBy, inHand, held, stage]

theorem InOrder.turn (inOrder : InOrder streams c) (stream : OutputStream) :
    InOrder streams (c.turn stream) := by
  cases held : c.lock with
  | some p =>
      rw [turn_of_held held]
      split
      · exact inOrder.proceed held
      · exact inOrder
  | none =>
      cases waiting : c.unread stream with
      | nil => rwa [turn_of_idle held waiting]
      | cons line rest =>
          intro other
          rw [inOrder other, turn_of_waiting held waiting]
          by_cases own : other = stream
          · subst own
            simp [pushedBy, inHand, held, waiting]
          · simp [pushedBy, inHand, held, own, Ne.symm own]

theorem foldl_turn (schedule : List OutputStream) (orderly : Orderly limit c)
    (inOrder : InOrder streams c) :
    Orderly limit (schedule.foldl turn c) ∧ InOrder streams (schedule.foldl turn c) := by
  induction schedule generalizing c with
  | nil => exact ⟨orderly, inOrder⟩
  | cons stream rest ih => exact ih (orderly.turn stream) (inOrder.turn stream)

theorem lock_turn (held : c.lock = some p) :
    (c.turn p.stream).lock =
      match p.stage with
      | .evicting => some { p with stage := .appending }
      | .appending => some { p with stage := .releasing }
      | .releasing => none := by
  rw [turn_of_held held, if_pos rfl, Capture.proceed]
  cases p.stage <;> rfl

/-- Nobody waits for more than one push: its reader gives the lock back. -/
theorem exists_released (held : c.lock = some p) :
    ∃ turns ≤ 3, ((List.replicate turns p.stream).foldl turn c).lock = none := by
  have next := lock_turn held
  cases stage : p.stage with
  | evicting =>
      rw [stage] at next
      exact ⟨3, by decide, lock_turn (lock_turn next)⟩
  | appending =>
      rw [stage] at next
      exact ⟨2, by decide, lock_turn next⟩
  | releasing =>
      rw [stage] at next
      exact ⟨1, by decide, next⟩

/-- However the readers take turns, each pushes its lines in their own order, the tail never holds
more lines than its limit, and whoever finds its lock free reads the last lines that were pushed; who
does not find it free finds it so after a few turns of the reader that holds it. -/
theorem result_last_pushed (limit : Nat) (streams : OutputStream → List String)
    (schedule : List OutputStream) :
    let c := schedule.foldl turn (opened limit streams)
    c.InOrder streams ∧ c.tail.lines.length ≤ limit ∧
      (c.lock = none → ∃ last, last <:+ c.pushed.map (·.2) ∧
        last.length = min limit c.pushed.length ∧
        c.result? = some (String.intercalate "\n" last)) ∧
      ∀ p, c.lock = some p →
        ∃ turns ≤ 3, ((List.replicate turns p.stream).foldl turn c).lock = none := by
  have orderly : Orderly limit (opened limit streams) := ⟨by rintro _ ⟨⟩, fun _ => rfl⟩
  have inOrder : InOrder streams (opened limit streams) := fun _ => rfl
  intro c
  obtain ⟨orderly, inOrder⟩ : Orderly limit c ∧ InOrder streams c :=
    foldl_turn schedule orderly inOrder
  refine ⟨inOrder, orderly.length_le, fun free => ?_, fun _ => exists_released⟩
  have whole : c.tail = settled limit c := by
    apply orderly.whole
    simp [free]
  obtain ⟨recent, length⟩ := holdsLast_settled limit c
  rw [← whole] at recent length
  refine ⟨c.tail.lines, recent, ?_, ?_⟩
  · simpa [whole, settled] using length
  · rw [result?, free]
    rfl

end Capture

end RelayControl
