import Mathlib.Data.List.SplitBy
import Mathlib.Data.List.Dedup
import RelayControl.Proofs.Stats.Growth

/-!
Conservation of what is collected. Snapshots are taken one after another, and the growth of each is
either persisted or lost on the way. Whatever the snapshots mention, what was persisted for a counter
adds up to the last values of the stretches in which it did not fall.
-/

namespace RelayControl

namespace Growth

def entries (g : Growth) : CounterKey → List Reading
  | (.inbound, name) =>
      (g.tags.filter fun t => t.inbound && !t.outbound && t.tag == name).map fun t => ⟨t.up, t.down⟩
  | (.outbound, name) =>
      (g.tags.filter fun t => !t.inbound && t.outbound && t.tag == name).map fun t => ⟨t.up, t.down⟩
  | (.user, name) => (g.clients.filter (·.email == name)).map fun c => ⟨c.up, c.down⟩

def amount (g : Growth) (key : CounterKey) (d : Direction) : Int :=
  ((g.entries key).map (·.along d)).sum

end Growth

namespace Baseline

theorem entries_growth (b : Baseline) {s : Snapshot} (distinct : s.Distinct) (key : CounterKey) :
    (b.growth s).entries key =
      (((s.reading? key).map (·.since (b.readings.lookup key))).filter (!·.isZero)).toList := by
  obtain ⟨kind, name⟩ := key
  rw [show s.reading? (kind, name) = (s.readings kind).lookup name from rfl,
    ← b.filter_growthOf kind (distinct.readings kind) name]
  unfold Growth.entries growth
  cases kind with
  | inbound =>
      dsimp only
      rw [List.filter_append, List.map_append, map_filter_map_pairs name (by simp) (by simp),
        filter_map_eq_nil (by simp), List.map_nil, List.append_nil]
      rfl
  | outbound =>
      dsimp only
      rw [List.filter_append, filter_map_eq_nil (by simp), List.nil_append]
      exact map_filter_map_pairs name (by simp) (by simp)
  | user => exact map_filter_map_pairs name (by simp) (by simp)

theorem amount_growth (b : Baseline) {s : Snapshot} (distinct : s.Distinct) (key : CounterKey)
    (d : Direction) :
    (b.growth s).amount key d =
      (((s.reading? key).map (·.along d)).map
        (grown · ((b.readings.lookup key).map (·.along d)))).getD 0 := by
  rw [Growth.amount, entries_growth b distinct]
  cases s.reading? key with
  | none => rfl
  | some now =>
      rw [Option.map_some, Option.map_some, Option.map_some, Option.getD_some, ← Reading.along_since,
        Option.filter_some]
      split
      next => simp
      next zero =>
        have unchanged : now.since (b.readings.lookup key) = {} :=
          Reading.eq_default_of_isZero (by simpa using zero)
        simp [unchanged]

end Baseline

/-! The last values of the stretches in which a list does not fall. -/

def crests (values : List Int) : List Int :=
  (values.splitBy (· ≤ ·)).filterMap List.getLast?

theorem crests_append_of_falls {values : List Int} {now : Int}
    (falls : ∀ last ∈ values.getLast?, now < last) : crests (values ++ [now]) = crests values ++ [now] := by
  unfold crests
  rw [List.splitBy_append_cons [] (by simpa using falls), List.filterMap_append]
  rfl

theorem splitBy_append_of_rises {values : List Int} {last now : Int}
    (ends : values.getLast? = some last) (rises : last ≤ now) :
    ∃ earlier stretch, values.splitBy (· ≤ ·) = earlier ++ [stretch] ∧
      stretch.getLast? = some last ∧
      (values ++ [now]).splitBy (· ≤ ·) = earlier ++ [stretch ++ [now]] := by
  have nonempty : values ≠ [] := by
    rintro rfl
    cases ends
  have parted : values.splitBy (· ≤ ·) ≠ [] := List.splitBy_ne_nil.mpr nonempty
  obtain ⟨earlier, stretch, split⟩ : ∃ earlier stretch,
      values.splitBy (fun a b => decide (a ≤ b)) = earlier ++ [stretch] :=
    ⟨_, _, (List.dropLast_append_getLast parted).symm⟩
  obtain ⟨joined, full, chains, apart⟩ := List.splitBy_eq_iff.mp split
  have stretchFull : stretch ≠ [] := fun empty => full (by simp [empty])
  have stretchEnds : stretch.getLast? = some last := by
    rw [joined, List.flatten_append, List.flatten_singleton,
      List.getLast?_append_of_ne_nil _ stretchFull] at ends
    exact ends
  refine ⟨earlier, stretch, split, stretchEnds, List.splitBy_eq_iff.mpr ⟨?_, ?_, ?_, ?_⟩⟩
  · rw [joined]
    simp
  · intro empty
    rcases List.mem_append.mp empty with member | member
    · exact full (List.mem_append_left _ member)
    · simp at member
  · intro part member
    rcases List.mem_append.mp member with member | member
    · exact chains part (List.mem_append_left _ member)
    · rw [List.mem_singleton.mp member, List.isChain_append]
      refine ⟨chains stretch (by simp), by simp, ?_⟩
      intro a atEnd b atHead
      rw [stretchEnds] at atEnd
      cases atEnd
      cases atHead
      simpa using rises
  · rw [List.isChain_append] at apart ⊢
    refine ⟨apart.1, by simp, ?_⟩
    intro part atEnd part' atHead
    cases atHead
    obtain ⟨partFull, _, falls⟩ := apart.2.2 part atEnd stretch rfl
    refine ⟨partFull, by simp, ?_⟩
    rwa [List.head_append_of_ne_nil stretchFull]

theorem sum_crests_append (values : List Int) (now : Int) :
    (crests (values ++ [now])).sum = (crests values).sum + grown now values.getLast? := by
  cases ends : values.getLast? with
  | none =>
      rw [crests_append_of_falls (by simp [ends]), List.sum_append, List.sum_singleton]
      rfl
  | some last =>
      by_cases rises : last ≤ now
      · obtain ⟨earlier, stretch, before, lastBefore, after⟩ := splitBy_append_of_rises ends rises
        simp only [crests, before, after, List.filterMap_append, List.filterMap_cons, lastBefore,
          List.filterMap_nil, List.getLast?_append, List.getLast?_singleton, Option.some_or,
          List.sum_append, List.sum_singleton, grown, if_pos rises]
        omega
      · rw [crests_append_of_falls (by simpa [ends] using rises), List.sum_append]
        simp only [grown, if_neg rises, List.sum_singleton]

namespace Baseline

@[simp] theorem process_ofProcess (process : Nat) (baseline : Option Baseline) :
    (ofProcess process baseline).process = process := by
  unfold ofProcess
  split
  next =>
    split
    next owned => exact owned
    next => rfl
  next => rfl

end Baseline

/-! Snapshots taken one after another. -/

structure Advance (ε α : Type) where
  process : Nat
  snapshot : Snapshot
  persist : Growth → Except ε α

namespace Advance

variable {ε α : Type}

/-- A write that also tells what it was given. -/
def recorded (persist : Growth → Except ε α) (given : Growth) : Except ε (Growth × α) :=
  (persist given).map (given, ·)

def carryOut (a : Advance ε α) (baseline : Option Baseline) :
    Except ε (Growth × Growth × α) × Option Baseline :=
  Baseline.advance baseline a.process a.snapshot (recorded a.persist)

/-- That the write tells what it was given changes neither the answer nor the baseline. -/
theorem carryOut_eq_advance (a : Advance ε α) (baseline : Option Baseline) :
    Baseline.advance baseline a.process a.snapshot a.persist =
      ((a.carryOut baseline).1.map fun (grown, _, x) => (grown, x), (a.carryOut baseline).2) := by
  simp only [carryOut, Baseline.advance, recorded]
  cases a.persist ((Baseline.ofProcess a.process baseline).growth a.snapshot) with
  | ok x => rfl
  | error f => rfl

def baselineAfter (baseline : Option Baseline) (calls : List (Advance ε α)) : Option Baseline :=
  calls.foldl (fun b a => (a.carryOut b).2) baseline

/-- The calls whose write succeeded, with what the write was given. -/
def persisted (baseline : Option Baseline) :
    List (Advance ε α) → List (Advance ε α × Growth)
  | [] => []
  | a :: rest =>
      match a.carryOut baseline with
      | (.ok (_, given, _), after) => (a, given) :: persisted after rest
      | (.error _, after) => persisted after rest

def handed (calls : List (Advance ε α)) (key : CounterKey) (d : Direction) : Int :=
  ((persisted none calls).map fun p => p.2.amount key d).sum

def values (calls : List (Advance ε α)) (key : CounterKey) (d : Direction) (process : Nat) :
    List Int :=
  ((persisted none calls).filter (·.1.process == process)).filterMap fun p =>
    (p.1.snapshot.reading? key).map (·.along d)

/-- A process that comes again comes at once: none is gone back to. -/
def Onward (processes : List Nat) : Prop :=
  ∀ earlier process later, processes = earlier ++ process :: later → process ∈ earlier →
    earlier.getLast? = some process

theorem onward_of_sorted {processes : List Nat} (sorted : processes.Pairwise (· ≤ ·)) :
    Onward processes := by
  rintro earlier process later rfl member
  obtain ⟨ascending, -, below⟩ := List.pairwise_append.mp sorted
  obtain ⟨front, last, rfl⟩ := List.eq_nil_or_concat' earlier |>.resolve_left (List.ne_nil_of_mem member)
  have upper : last ≤ process := below last (by simp) process (by simp)
  have lower : process ≤ last := by
    rcases List.mem_append.mp member with inside | atEnd
    · exact (List.pairwise_append.mp ascending).2.2 process inside last (by simp)
    · exact (List.mem_singleton.mp atEnd).le
  rw [List.getLast?_concat, Nat.le_antisymm upper lower]

theorem Onward.of_append {processes later : List Nat} (onward : Onward (processes ++ later)) :
    Onward processes := by
  intro earlier process rest equal member
  apply onward earlier process (rest ++ later) _ member
  rw [equal, List.append_assoc, List.cons_append]

theorem persisted_append (baseline : Option Baseline) (calls later : List (Advance ε α)) :
    persisted baseline (calls ++ later) =
      persisted baseline calls ++ persisted (baselineAfter baseline calls) later := by
  induction calls generalizing baseline with
  | nil => rfl
  | cons a rest ih =>
      simp only [List.cons_append, persisted, baselineAfter, List.foldl_cons]
      match a.carryOut baseline with
      | (.ok (_, given, _), after) => simp [ih, baselineAfter]
      | (.error _, after) => simp [ih, baselineAfter]

theorem baselineAfter_append (baseline : Option Baseline) (calls later : List (Advance ε α)) :
    baselineAfter baseline (calls ++ later) =
      baselineAfter (baselineAfter baseline calls) later :=
  List.foldl_append

theorem persisted_singleton_cases (a : Advance ε α) (baseline : Option Baseline) :
    let b := Baseline.ofProcess a.process baseline
    (persisted baseline [a] = [(a, b.growth a.snapshot)] ∧
        baselineAfter baseline [a] = some (b.extend a.snapshot)) ∨
      (persisted baseline [a] = [] ∧ baselineAfter baseline [a] = some b) := by
  simp only [persisted, baselineAfter, List.foldl_cons, List.foldl_nil, carryOut, Baseline.advance,
    recorded]
  cases a.persist ((Baseline.ofProcess a.process baseline).growth a.snapshot) with
  | ok x => exact .inl ⟨rfl, rfl⟩
  | error f => exact .inr ⟨rfl, rfl⟩

theorem mem_of_mem_persisted {baseline : Option Baseline} {calls : List (Advance ε α)}
    {p : Advance ε α × Growth} (member : p ∈ persisted baseline calls) : p.1 ∈ calls := by
  induction calls generalizing baseline with
  | nil => cases member
  | cons a rest ih =>
      unfold persisted at member
      split at member
      next =>
        rcases List.mem_cons.mp member with rfl | member
        · exact List.mem_cons_self
        · exact List.mem_cons_of_mem a (ih member)
      next => exact List.mem_cons_of_mem a (ih member)

theorem values_of_not_mem {calls : List (Advance ε α)} {process : Nat}
    (absent : process ∉ calls.map (·.process)) (key : CounterKey) (d : Direction) :
    values calls key d process = [] := by
  have none_left : (persisted none calls).filter (·.1.process == process) = [] := by
    rw [List.filter_eq_nil_iff]
    intro p member same
    exact absent (List.mem_map.mpr ⟨p.1, mem_of_mem_persisted member, by simpa using same⟩)
  rw [values, none_left]
  rfl

theorem values_append (calls later : List (Advance ε α)) (key : CounterKey) (d : Direction)
    (process : Nat) :
    values (calls ++ later) key d process = values calls key d process ++
      ((persisted (baselineAfter none calls) later).filter (·.1.process == process)).filterMap
        fun p => (p.1.snapshot.reading? key).map (·.along d) := by
  rw [values, persisted_append, List.filter_append, List.filterMap_append]
  rfl

theorem values_append_of_ne (calls : List (Advance ε α)) {a : Advance ε α} {process : Nat}
    (other : a.process ≠ process) (key : CounterKey) (d : Direction) :
    values (calls ++ [a]) key d process = values calls key d process := by
  rw [values_append]
  rcases a.persisted_singleton_cases (baselineAfter none calls) with ⟨done, -⟩ | ⟨done, -⟩
  · simp [done, other]
  · simp [done]

theorem lookup_baselineAfter {calls : List (Advance ε α)} {process : Nat}
    (onward : Onward (calls.map (·.process) ++ [process])) (key : CounterKey) (d : Direction) :
    ((Baseline.ofProcess process (baselineAfter none calls)).readings.lookup key).map (·.along d) =
      (values calls key d process).getLast? := by
  induction calls using List.reverseRecOn generalizing process with
  | nil => rfl
  | append_singleton earlier a ih =>
      have cases := a.persisted_singleton_cases (baselineAfter none earlier)
      have owned := Baseline.process_ofProcess a.process (baselineAfter none earlier)
      have earlierOnward : Onward (earlier.map (·.process) ++ [a.process]) := by
        simpa using onward.of_append
      have before := ih earlierOnward
      generalize Baseline.ofProcess a.process (baselineAfter none earlier) = b at cases owned before
      by_cases same : a.process = process
      · subst same
        rw [baselineAfter_append, values_append]
        rcases cases with ⟨done, after⟩ | ⟨done, after⟩
        · have own : Baseline.ofProcess a.process (some (b.extend a.snapshot)) =
              b.extend a.snapshot := if_pos owned
          rw [done, after, own, Baseline.lookup_extend]
          cases mentioned : a.snapshot.reading? key with
          | none => simpa [mentioned] using before
          | some now => simp [mentioned]
        · have own : Baseline.ofProcess a.process (some b) = b := if_pos owned
          rw [done, after, own]
          simpa using before
      · -- Nothing is known of a process when the last call was for another one.
        have new : process ∉ (earlier ++ [a]).map (·.process) := by
          intro member
          have last := onward _ process [] rfl member
          simp [same] at last
        have fresh : Baseline.ofProcess process (baselineAfter none (earlier ++ [a])) =
            ⟨process, []⟩ := by
          rw [baselineAfter_append]
          rcases cases with ⟨-, after⟩ | ⟨-, after⟩
          · rw [after]
            exact if_neg (owned.trans_ne same)
          · rw [after]
            exact if_neg (owned.trans_ne same)
        rw [values_of_not_mem new, fresh]
        rfl

theorem handed_eq_sum_over {calls : List (Advance ε α)} {processes : List Nat}
    (distinct : processes.Nodup) (listed : ∀ a ∈ calls, a.process ∈ processes)
    (sound : ∀ a ∈ calls, a.snapshot.Distinct) (onward : Onward (calls.map (·.process)))
    (key : CounterKey) (d : Direction) :
    handed calls key d =
      (processes.map fun process => (crests (values calls key d process)).sum).sum := by
  induction calls using List.reverseRecOn with
  | nil => simp [handed, persisted, values, crests]
  | append_singleton earlier a ih =>
      rw [List.map_append, List.map_singleton] at onward
      have before := ih (fun a' member => listed a' (List.mem_append_left _ member))
        (fun a' member => sound a' (List.mem_append_left _ member)) onward.of_append
      have known := lookup_baselineAfter onward key d
      have cases := a.persisted_singleton_cases (baselineAfter none earlier)
      generalize Baseline.ofProcess a.process (baselineAfter none earlier) = b at cases known
      -- Only the stretches of the process that was asked can change.
      have moved := sum_map_eq_add_sub
        (f := fun process => (crests (values (earlier ++ [a]) key d process)).sum)
        (g := fun process => (crests (values earlier key d process)).sum)
        distinct (listed a (by simp)) (by
          intro process _ other
          rw [values_append_of_ne earlier (Ne.symm other)])
      rw [moved, ← before, handed, persisted_append, List.map_append, List.sum_append,
        values_append]
      rcases cases with ⟨done, -⟩ | ⟨done, -⟩
      · have grows := b.amount_growth (sound a (by simp)) key d
        rw [known] at grows
        cases mentioned : a.snapshot.reading? key with
        | none => simp [done, handed, mentioned, grows]
        | some now => simp [done, handed, mentioned, grows, sum_crests_append]
      · simp [done, handed]

/--
Whatever is mentioned and whichever writes fail, the growth persisted for a counter is the sum of the
last values of the stretches in which it did not fall, process by process.
-/
theorem handed_eq_sum_crests {calls : List (Advance ε α)}
    (sound : ∀ a ∈ calls, a.snapshot.Distinct) (onward : Onward (calls.map (·.process)))
    (key : CounterKey) (d : Direction) :
    handed calls key d =
      ((calls.map (·.process)).dedup.map fun process =>
        (crests (values calls key d process)).sum).sum :=
  handed_eq_sum_over (List.nodup_dedup _)
    (fun _ member => List.mem_dedup.mpr (List.mem_map_of_mem member)) sound onward key d

/--
Writes that take a hundred bytes of a client at most. The second is given more and fails; the counter
is left out, later falls, and another relay takes over.
-/
def resuming : List (Advance String Unit) :=
  let user (n : Int) : Snapshot := { users := [("a@x", ⟨n, 0⟩)] }
  let limited (given : Growth) : Except String Unit :=
    if given.amount (.user, "a@x") .up ≤ 100 then .ok () else .error "too much"
  [⟨1, user 100, limited⟩, ⟨1, user 260, limited⟩, ⟨1, {}, limited⟩,
    ⟨1, user 170, limited⟩, ⟨1, user 40, limited⟩, ⟨2, user 20, limited⟩]

theorem handed_eq_sum_crests_resuming :
    (∀ a ∈ resuming, a.snapshot.Distinct) ∧ Onward (resuming.map (·.process)) ∧
      values resuming (.user, "a@x") .up 1 = [100, 170, 40] ∧
      handed resuming (.user, "a@x") .up = 170 + 40 + 20 :=
  have sound : ∀ a ∈ resuming, a.snapshot.Distinct := by decide
  have onward : Onward (resuming.map (·.process)) := onward_of_sorted (by decide)
  ⟨sound, onward, by decide, (handed_eq_sum_crests sound onward (.user, "a@x") .up).trans (by decide)⟩

end Advance

end RelayControl
