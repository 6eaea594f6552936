import RelayControl.Proofs.Basic

/-!
Overlapping registration calls without their texts. What the calls do is kept as a list of events,
the latest first; from it follows which device is stored and which one the cached configuration is
of. The order of the events alone decides whether a stored registration is ever lost.
-/

namespace RelayControl

inductive RegistrationEvent where
  /-- The call reads the stored credential, of which it takes the device. -/
  | asked (call : Nat) (device : String)
  /-- The endpoint registers a device for the call. -/
  | registered (call : Nat) (device : String)
  /-- The credential of the registered device is stored. -/
  | saved (call : Nat)
  /-- The credential that was read is stored under another license. -/
  | relicensed (call : Nat)
  /-- The configuration of the device that the call is about is stored. -/
  | cached (call : Nat)
  deriving DecidableEq, Repr

def RegistrationEvent.call : RegistrationEvent → Nat
  | .asked n _ => n
  | .registered n _ => n
  | .saved n => n
  | .relicensed n => n
  | .cached n => n

/-- Which device is where. Devices are numbered in the order in which they were registered, from one
on; zero is the device of the credential that was stored in the beginning. -/
structure Ledger where
  devices : Nat := 0
  subject : Nat → Nat := fun _ => 0
  stored : Nat := 0
  cached : Nat := 0

namespace Ledger

def note (l : Ledger) : RegistrationEvent → Ledger
  | .asked n _ => { l with subject := fun m => if m = n then l.stored else l.subject m }
  | .registered n _ =>
      { l with
        devices := l.devices + 1
        subject := fun m => if m = n then l.devices + 1 else l.subject m }
  | .saved n => { l with stored := l.subject n }
  | .relicensed n => { l with stored := l.subject n }
  | .cached n => { l with cached := l.subject n }

def after : List RegistrationEvent → Ledger
  | [] => {}
  | e :: earlier => (after earlier).note e

theorem bounded (events : List RegistrationEvent) :
    (∀ n, (after events).subject n ≤ (after events).devices) ∧
    (after events).stored ≤ (after events).devices ∧
    (after events).cached ≤ (after events).devices := by
  induction events with
  | nil => exact ⟨fun _ => Nat.le_refl 0, Nat.le_refl 0, Nat.le_refl 0⟩
  | cons e earlier ih =>
      obtain ⟨subject, stored, cached⟩ := ih
      cases e with
      | asked n device =>
          refine ⟨fun m => ?_, stored, cached⟩
          change (if m = n then _ else _) ≤ _
          split
          · exact stored
          · exact subject m
      | registered n device =>
          refine ⟨fun m => ?_, Nat.le_succ_of_le stored, Nat.le_succ_of_le cached⟩
          change (if m = n then _ else _) ≤ _
          split
          · exact Nat.le_refl _
          · exact Nat.le_succ_of_le (subject m)
      | saved n => exact ⟨subject, subject n, cached⟩
      | relicensed n => exact ⟨subject, subject n, cached⟩
      | cached n => exact ⟨subject, stored, subject n⟩

def deviceOf (first : String) : List RegistrationEvent → Nat → String
  | [], _ => first
  | .registered _ device :: earlier, k =>
      if k = (after earlier).devices + 1 then device else deviceOf first earlier k
  | _ :: earlier, k => deviceOf first earlier k

def Informed (n : Nat) (events : List RegistrationEvent) : Prop :=
  (∃ device, .asked n device ∈ events) ∨ .saved n ∈ events

/-- The events of calls each of which goes its own way in order. -/
inductive Feasible (first : String) : List RegistrationEvent → Prop
  | nil : Feasible first []
  | asked {events : List RegistrationEvent} {n : Nat} (feasible : Feasible first events)
      (new : ∀ e ∈ events, e.call ≠ n) :
      Feasible first (.asked n (deviceOf first events (after events).stored) :: events)
  | registered {events : List RegistrationEvent} {n : Nat} {device : String}
      (feasible : Feasible first events) (new : ∀ e ∈ events, e.call ≠ n) :
      Feasible first (.registered n device :: events)
  | saved {events : List RegistrationEvent} {n : Nat} {device : String}
      (feasible : Feasible first events) (owned : .registered n device ∈ events)
      (unsaved : .saved n ∉ events) : Feasible first (.saved n :: events)
  | relicensed {events : List RegistrationEvent} {n : Nat} {device : String}
      (feasible : Feasible first events) (owned : .asked n device ∈ events) :
      Feasible first (.relicensed n :: events)
  | cached {events : List RegistrationEvent} {n : Nat} (feasible : Feasible first events)
      (informed : Informed n events) : Feasible first (.cached n :: events)

/-- Whenever a device is stored, no device that was registered before it is stored later. -/
def NeverSetBack (events : List RegistrationEvent) : Prop :=
  ∀ early late, early <:+ late → late <:+ events → (after early).stored ≤ (after late).stored

def Paired (events : List RegistrationEvent) : Prop :=
  (after events).cached = (after events).stored

/-- Since the call read the credential, or stored its own, no other registration was stored. -/
def UpToDate (n : Nat) : List RegistrationEvent → Prop
  | [] => False
  | .asked m _ :: earlier => m = n ∨ UpToDate n earlier
  | .saved m :: _ => m = n
  | _ :: earlier => UpToDate n earlier

/-- Registrations are stored in the order in which the endpoint made them, and no license is given
to a credential that was read before another registration was stored. -/
def Orderly : List RegistrationEvent → Prop
  | [] => True
  | .saved n :: earlier =>
      (∀ m, .saved m ∈ earlier → (after earlier).subject m < (after earlier).subject n) ∧
      Orderly earlier
  | .relicensed n :: earlier => UpToDate n earlier ∧ Orderly earlier
  | _ :: earlier => Orderly earlier

/-- The call that cached last was up to date, and no registration was stored since. -/
def CacheUpToDate : List RegistrationEvent → Prop
  | [] => True
  | .saved _ :: _ => False
  | .cached n :: earlier => UpToDate n earlier
  | _ :: earlier => CacheUpToDate earlier

variable {first : String} {events : List RegistrationEvent}

theorem neverSetBack_cons {e : RegistrationEvent} :
    NeverSetBack (e :: events) ↔
      (after events).stored ≤ (after (e :: events)).stored ∧ NeverSetBack events := by
  constructor
  · intro never
    refine ⟨never _ _ (List.suffix_cons e events) (List.suffix_refl _), ?_⟩
    intro early late below inside
    exact never early late below (inside.trans (List.suffix_cons e events))
  · rintro ⟨last, never⟩ early late below inside
    rcases List.suffix_cons_iff.mp inside with rfl | inside
    · rcases List.suffix_cons_iff.mp below with rfl | below
      · exact Nat.le_refl _
      · exact Nat.le_trans (never early events below (List.suffix_refl _)) last
    · exact never early late below inside

namespace Feasible

theorem deviceOf_subject (feasible : Feasible first events) {n : Nat} {device : String}
    (owned : .asked n device ∈ events ∨ .registered n device ∈ events) :
    deviceOf first events ((after events).subject n) = device := by
  induction feasible with
  | nil => simp at owned
  | @asked events m feasible new ih =>
      change deviceOf first events (if n = m then _ else _) = device
      by_cases own : n = m
      · subst own
        have absent : ∀ d, .asked n d ∉ events ∧ .registered n d ∉ events := fun d =>
          ⟨fun member => new _ member rfl, fun member => new _ member rfl⟩
        simp [absent] at owned
        rw [if_pos rfl, owned]
      · rw [if_neg own]
        exact ih (by simpa [own] using owned)
  | @registered events m d feasible new ih =>
      change (if (if n = m then _ else _) = (after events).devices + 1 then d
        else deviceOf first events (if n = m then _ else _)) = device
      by_cases own : n = m
      · subst own
        have absent : ∀ d, .asked n d ∉ events ∧ .registered n d ∉ events := fun d =>
          ⟨fun member => new _ member rfl, fun member => new _ member rfl⟩
        simp [absent] at owned
        rw [if_pos rfl, if_pos rfl, owned]
      · have older : (after events).subject n ≠ (after events).devices + 1 := by
          have bound := (bounded events).1 n
          omega
        rw [if_neg own, if_neg older]
        exact ih (by simpa [own] using owned)
  | saved feasible _ _ ih => exact ih (by simpa using owned)
  | relicensed feasible _ ih => exact ih (by simpa using owned)
  | cached feasible _ ih => exact ih (by simpa using owned)

theorem not_registered_of_asked (feasible : Feasible first events) {n : Nat} {device other : String}
    (asked : .asked n device ∈ events) : .registered n other ∉ events := by
  induction feasible with
  | nil => simp
  | @asked events m feasible new ih =>
      rcases List.mem_cons.mp asked with same | member
      · cases same
        intro registered
        exact new _ (by simpa using registered) rfl
      · simpa using ih member
  | @registered events m d feasible new ih =>
      have member : .asked n device ∈ events := by simpa using asked
      have differs : n ≠ m := fun same => new _ member same
      simpa [differs] using ih member
  | saved feasible _ _ ih => simpa using ih (by simpa using asked)
  | relicensed feasible _ ih => simpa using ih (by simpa using asked)
  | cached feasible _ ih => simpa using ih (by simpa using asked)

end Feasible

structure Settled (events : List RegistrationEvent) : Prop where
  le : ∀ n, Informed n events → (after events).subject n ≤ (after events).stored
  newest : (after events).stored = 0 ∨
    ∃ n, .saved n ∈ events ∧ (after events).subject n = (after events).stored
  /-- A device whose credential is not stored yet is known to its own call only. -/
  apart : ∀ n device, .registered n device ∈ events → .saved n ∉ events →
    (after events).stored ≠ (after events).subject n ∧
    (after events).cached ≠ (after events).subject n ∧
    ∀ m ≠ n, (after events).subject m ≠ (after events).subject n
  upToDate : ∀ n, Informed n events →
    (UpToDate n events ↔ (after events).subject n = (after events).stored)
  cacheUpToDate : CacheUpToDate events ↔ (after events).cached = (after events).stored

namespace Informed

variable {n m : Nat} {device : String}

@[simp] theorem cons_asked :
    Informed m (.asked n device :: events) ↔ m = n ∨ Informed m events := by
  simp [Informed, exists_or, or_assoc]

@[simp] theorem cons_registered :
    Informed m (.registered n device :: events) ↔ Informed m events := by
  simp [Informed]

@[simp] theorem cons_saved : Informed m (.saved n :: events) ↔ m = n ∨ Informed m events := by
  simp [Informed, or_left_comm]

@[simp] theorem cons_relicensed : Informed m (.relicensed n :: events) ↔ Informed m events := by
  simp [Informed]

@[simp] theorem cons_cached : Informed m (.cached n :: events) ↔ Informed m events := by
  simp [Informed]

theorem ne_of_new (informed : Informed m events) (new : ∀ e ∈ events, e.call ≠ n) : m ≠ n := by
  rcases informed with ⟨device, member⟩ | member <;> exact new _ member

end Informed

namespace Settled

theorem stored_le_iff_saved (settled : Settled events) {n : Nat} {device : String}
    (owned : .registered n device ∈ events) (unsaved : .saved n ∉ events) :
    (after events).stored ≤ (after events).subject n ↔
      ∀ m, .saved m ∈ events → (after events).subject m < (after events).subject n := by
  obtain ⟨-, -, alone⟩ := settled.apart n device owned unsaved
  constructor
  · intro later m saved
    have below := settled.le m (.inr saved)
    have differs := alone m fun same => unsaved (same ▸ saved)
    omega
  · intro later
    rcases settled.newest with unset | ⟨m, saved, same⟩
    · omega
    · have below := later m saved
      omega

theorem stored_le_iff_upToDate (settled : Settled events) {n : Nat} (informed : Informed n events) :
    (after events).stored ≤ (after events).subject n ↔ UpToDate n events := by
  have below := settled.le n informed
  rw [settled.upToDate n informed]
  omega

theorem newest_cons (settled : Settled events) {e : RegistrationEvent} {n : Nat}
    (new : ∀ e ∈ events, e.call ≠ n) (stored : (after (e :: events)).stored = (after events).stored)
    (kept : ∀ m ≠ n, (after (e :: events)).subject m = (after events).subject m) :
    (after (e :: events)).stored = 0 ∨ ∃ m, .saved m ∈ e :: events ∧
      (after (e :: events)).subject m = (after (e :: events)).stored := by
  rw [stored]
  rcases settled.newest with unset | ⟨m, saved, same⟩
  · exact .inl unset
  · exact .inr ⟨m, List.mem_cons_of_mem _ saved, (kept m (new _ saved)).trans same⟩

theorem asked (settled : Settled events) {n : Nat} {device : String}
    (new : ∀ e ∈ events, e.call ≠ n) : Settled (.asked n device :: events) := by
  have moved (m : Nat) : (after (.asked n device :: events)).subject m =
      if m = n then (after events).stored else (after events).subject m := rfl
  refine ⟨fun m informed => ?_, ?_, fun m d owned unsaved => ?_, fun m informed => ?_,
    settled.cacheUpToDate⟩
  · rw [moved]
    split
    · exact Nat.le_refl _
    · rename_i other
      exact settled.le m ((Informed.cons_asked.mp informed).resolve_left other)
  · exact settled.newest_cons new rfl fun m other => if_neg other
  · have member : .registered m d ∈ events := by simpa using owned
    have other : m ≠ n := new _ member
    obtain ⟨stored, cached, alone⟩ := settled.apart m d member (by simpa using unsaved)
    rw [moved, if_neg other]
    refine ⟨stored, cached, fun k differs => ?_⟩
    rw [moved]
    split
    · exact stored
    · exact alone k differs
  · change n = m ∨ UpToDate m events ↔ _
    rw [moved]
    by_cases own : m = n
    · simp [own, after, note]
    · rw [if_neg own, settled.upToDate m ((Informed.cons_asked.mp informed).resolve_left own)]
      simp [Ne.symm own, after, note]

theorem registered (settled : Settled events) {n : Nat} {device : String}
    (new : ∀ e ∈ events, e.call ≠ n) : Settled (.registered n device :: events) := by
  have moved (m : Nat) : (after (.registered n device :: events)).subject m =
      if m = n then (after events).devices + 1 else (after events).subject m := rfl
  obtain ⟨subjects, stored, cached⟩ := bounded events
  refine ⟨fun m informed => ?_, ?_, fun m d owned unsaved => ?_, fun m informed => ?_,
    settled.cacheUpToDate⟩
  · rw [Informed.cons_registered] at informed
    rw [moved, if_neg (informed.ne_of_new new)]
    exact settled.le m informed
  · exact settled.newest_cons new rfl fun m other => if_neg other
  · simp only [moved]
    change (after events).stored ≠ _ ∧ (after events).cached ≠ _ ∧ _
    rcases List.mem_cons.mp owned with same | member
    · cases same
      simp only [if_true]
      refine ⟨by omega, by omega, fun k differs => ?_⟩
      have bound := subjects k
      rw [if_neg differs]
      omega
    · have other : m ≠ n := new _ member
      obtain ⟨apartStored, apartCached, alone⟩ := settled.apart m d member (by simpa using unsaved)
      rw [if_neg other]
      refine ⟨apartStored, apartCached, fun k differs => ?_⟩
      have bound := subjects m
      split
      · omega
      · exact alone k differs
  · rw [Informed.cons_registered] at informed
    rw [moved, if_neg (informed.ne_of_new new)]
    exact settled.upToDate m informed

theorem saved (settled : Settled events) {n : Nat} {device : String}
    (owned : .registered n device ∈ events) (unsaved : .saved n ∉ events)
    (first : ∀ m, .saved m ∈ events → (after events).subject m < (after events).subject n) :
    Settled (.saved n :: events) := by
  obtain ⟨apartStored, apartCached, alone⟩ := settled.apart n device owned unsaved
  have later := (settled.stored_le_iff_saved owned unsaved).mpr first
  refine ⟨fun m informed => ?_, .inr ⟨n, by simp, rfl⟩, fun m d member fresh => ?_,
    fun m informed => ?_, ?_⟩
  · change (after events).subject m ≤ (after events).subject n
    rcases Informed.cons_saved.mp informed with rfl | informed
    · exact Nat.le_refl _
    · exact Nat.le_trans (settled.le m informed) later
  · -- Another registration that waits to be stored is still apart from the one stored now.
    simp only [List.mem_cons, RegistrationEvent.saved.injEq, not_or] at fresh
    obtain ⟨-, cached, unlike⟩ := settled.apart m d (by simpa using member) fresh.2
    exact ⟨unlike n (Ne.symm fresh.1), cached, unlike⟩
  · -- Nobody else knows the new device yet, so every other call is out of date from now on.
    change n = m ↔ (after events).subject m = (after events).subject n
    constructor
    · rintro rfl
      rfl
    · intro same
      by_contra differs
      exact alone m (Ne.symm differs) same
  · exact ⟨False.elim, apartCached⟩

theorem relicensed (settled : Settled events) {n : Nat} (informed : Informed n events)
    (current : UpToDate n events) : Settled (.relicensed n :: events) := by
  have same : (after events).subject n = (after events).stored :=
    (settled.upToDate n informed).mp current
  have unchanged : after (.relicensed n :: events) = after events := by
    rw [after, note, same]
  refine ⟨fun m informed => ?_, ?_, fun m d member unsaved => ?_, fun m informed => ?_, ?_⟩
  all_goals rw [unchanged]
  · exact settled.le m (Informed.cons_relicensed.mp informed)
  · simpa using settled.newest
  · exact settled.apart m d (by simpa using member) (by simpa using unsaved)
  · exact settled.upToDate m (Informed.cons_relicensed.mp informed)
  · exact settled.cacheUpToDate

theorem cached (settled : Settled events) {n : Nat} (informed : Informed n events)
    (owned : ∀ device, .registered n device ∈ events → .saved n ∈ events) :
    Settled (.cached n :: events) := by
  refine ⟨fun m informed => ?_, ?_, fun m d member unsaved => ?_, fun m informed => ?_, ?_⟩
  · exact settled.le m (Informed.cons_cached.mp informed)
  · rcases settled.newest with unset | ⟨m, saved, same⟩
    · exact .inl unset
    · exact .inr ⟨m, List.mem_cons_of_mem _ saved, same⟩
  · have member : .registered m d ∈ events := by simpa using member
    have unsaved : .saved m ∉ events := by simpa using unsaved
    obtain ⟨stored, -, alone⟩ := settled.apart m d member unsaved
    exact ⟨stored, alone n fun same => unsaved (same ▸ owned d (same ▸ member)), alone⟩
  · exact settled.upToDate m (Informed.cons_cached.mp informed)
  · exact settled.upToDate n informed

end Settled

theorem Feasible.settled (feasible : Feasible first events) (orderly : Orderly events) :
    Settled events := by
  induction feasible with
  | nil =>
      exact ⟨by simp [Informed], .inl rfl, by simp, by simp [Informed],
        by simp [CacheUpToDate, after]⟩
  | asked feasible new ih => exact (ih orderly).asked new
  | registered feasible new ih => exact (ih orderly).registered new
  | saved feasible owned unsaved ih => exact (ih orderly.2).saved owned unsaved orderly.1
  | relicensed feasible owned ih => exact (ih orderly.2).relicensed (.inl ⟨_, owned⟩) orderly.1
  | cached feasible informed ih =>
      refine (ih orderly).cached informed fun device registered => ?_
      rcases informed with ⟨d, asked⟩ | saved
      · exact absurd registered (feasible.not_registered_of_asked asked)
      · exact saved

theorem Feasible.neverSetBack_iff (feasible : Feasible first events) :
    NeverSetBack events ↔ Orderly events := by
  induction feasible with
  | nil =>
      refine ⟨fun _ => trivial, fun _ early late below inside => ?_⟩
      rw [List.suffix_nil.mp inside] at below ⊢
      rw [List.suffix_nil.mp below]
  | asked feasible new ih =>
      rw [neverSetBack_cons, ih]
      exact and_iff_right (Nat.le_refl _)
  | registered feasible new ih =>
      rw [neverSetBack_cons, ih]
      exact and_iff_right (Nat.le_refl _)
  | saved feasible owned unsaved ih =>
      rw [neverSetBack_cons, ih]
      exact and_congr_left fun orderly =>
        (feasible.settled orderly).stored_le_iff_saved owned unsaved
  | relicensed feasible owned ih =>
      rw [neverSetBack_cons, ih]
      exact and_congr_left fun orderly =>
        (feasible.settled orderly).stored_le_iff_upToDate (.inl ⟨_, owned⟩)
  | cached feasible informed ih =>
      rw [neverSetBack_cons, ih]
      exact and_iff_right (Nat.le_refl _)

/-- No registration is lost and the two stored texts match exactly when every call was in order and
the one that cached last was up to date. -/
theorem Feasible.kept_iff (feasible : Feasible first events) :
    NeverSetBack events ∧ Paired events ↔ Orderly events ∧ CacheUpToDate events := by
  rw [feasible.neverSetBack_iff]
  exact and_congr_right fun orderly => (feasible.settled orderly).cacheUpToDate.symm

end Ledger

end RelayControl
