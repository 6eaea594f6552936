import Mathlib.Algebra.Ring.Int.Defs
import Mathlib.Data.List.Nodup

/-!
Results that are a value or a fault, taken apart where the value is known to be there, and lists of
pairs in which each key stands once.
-/

namespace RelayControl

@[simp] theorem bind_eq_ok_iff {x : Except ε α} {f : α → Except ε β} {b : β} :
    (x >>= f) = .ok b ↔ ∃ a, x = .ok a ∧ f a = .ok b := by
  cases x with
  | error e => simp [bind, Except.bind]
  | ok a => simp [bind, Except.bind]

theorem bind_eq_error_iff {x : Except ε α} {f : α → Except ε β} {e : ε} :
    (x >>= f) = .error e ↔ x = .error e ∨ ∃ a, x = .ok a ∧ f a = .error e := by
  cases x with
  | error e => simp [bind, Except.bind]
  | ok a => simp [bind, Except.bind]

@[simp] theorem pure_eq_ok_iff {a b : α} : (pure a : Except ε α) = .ok b ↔ a = b := by
  simp [pure, Except.pure]

@[simp] theorem map_eq_ok_iff {x : Except ε α} {f : α → β} {b : β} :
    x.map f = .ok b ↔ ∃ a, x = .ok a ∧ f a = b := by
  cases x with
  | error e => simp [Except.map]
  | ok a => simp [Except.map]

theorem map_eq_map_cases {x : Option α} {y : Option β} {f : α → γ} {g : β → γ}
    (same : x.map f = y.map g) :
    (x = none ∧ y = none) ∨ ∃ a b, x = some a ∧ y = some b ∧ f a = g b := by
  cases x with
  | none =>
      cases y with
      | none => exact .inl ⟨rfl, rfl⟩
      | some b => cases same
  | some a =>
      cases y with
      | none => cases same
      | some b => exact .inr ⟨a, b, rfl, rfl, Option.some.inj same⟩

theorem toOption_eq_some_iff {x : Except ε α} {a : α} : x.toOption = some a ↔ x = .ok a := by
  cases x <;> simp [Except.toOption]

theorem foldlM_keeps {step : σ → α → Except ε σ} {motive : σ → Prop}
    (keeps : ∀ {before a after}, motive before → step before a = .ok after → motive after)
    {items : List α} {before after : σ} (initial : motive before)
    (folded : items.foldlM step before = .ok after) : motive after := by
  induction items generalizing before with
  | nil =>
      cases folded
      exact initial
  | cons a rest ih =>
      rw [List.foldlM_cons, bind_eq_ok_iff] at folded
      obtain ⟨middle, stepped, folded⟩ := folded
      exact ih (keeps initial stepped) folded

/-! Results side by side. -/

/-- Two results that are one fault, or two values in a relation. -/
inductive SameUpTo (R : α → β → Prop) : Except ε α → Except ε β → Prop
  | fault (e : ε) : SameUpTo R (.error e) (.error e)
  | value {a : α} {b : β} (related : R a b) : SameUpTo R (.ok a) (.ok b)

namespace SameUpTo

variable {R : α → β → Prop} {S : γ → δ → Prop} {x : Except ε α} {y : Except ε β}

theorem refl {R : α → α → Prop} (reflexive : ∀ a, R a a) (x : Except ε α) : SameUpTo R x x := by
  cases x with
  | error e => exact .fault e
  | ok a => exact .value (reflexive a)

theorem eq {x y : Except ε α} (same : SameUpTo Eq x y) : x = y := by
  cases same with
  | fault e => rfl
  | value related => rw [related]

theorem bind (same : SameUpTo R x y) {f : α → Except ε γ} {g : β → Except ε δ}
    (next : ∀ a b, R a b → SameUpTo S (f a) (g b)) : SameUpTo S (x >>= f) (y >>= g) := by
  cases same with
  | fault e => exact .fault e
  | value related => exact next _ _ related

theorem map (same : SameUpTo R x y) {f : α → γ} {g : β → δ}
    (next : ∀ a b, R a b → S (f a) (g b)) : SameUpTo S (x.map f) (y.map g) := by
  cases same with
  | fault e => exact .fault e
  | value related => exact .value (next _ _ related)

end SameUpTo

theorem lookup_cons_eq_ite [BEq κ] [LawfulBEq κ] [DecidableEq κ] (key k : κ) (value : α)
    (pairs : List (κ × α)) :
    ((k, value) :: pairs).lookup key = if key = k then some value else pairs.lookup key := by
  by_cases same : key = k
  · simp [same]
  · have differs : (key == k) = false := by simpa using same
    simp [List.lookup_cons, differs, same]

theorem lookup_filter_of_kept [BEq κ] [LawfulBEq κ] (keep : κ → Bool) {key : κ}
    (kept : keep key = true) {pairs : List (κ × α)} :
    (pairs.filter fun (k, _) => keep k).lookup key = pairs.lookup key := by
  induction pairs with
  | nil => rfl
  | cons pair rest ih =>
      obtain ⟨k, value⟩ := pair
      rw [List.filter_cons, List.lookup_cons]
      cases same : key == k with
      | true =>
          rw [← eq_of_beq same, if_pos kept, List.lookup_cons_self]
      | false =>
          cases stays : keep k with
          | true => simpa [List.lookup_cons, same, stays] using ih
          | false => simpa [stays] using ih

theorem lookup_map_values [BEq κ] (f : α → β) (pairs : List (κ × α)) (key : κ) :
    (pairs.map fun (k, value) => (k, f value)).lookup key = (pairs.lookup key).map f := by
  induction pairs with
  | nil => rfl
  | cons pair rest ih =>
      obtain ⟨k, value⟩ := pair
      rw [List.map_cons, List.lookup_cons, List.lookup_cons, ih]
      cases key == k <;> rfl

theorem mem_of_lookup_eq_some [BEq κ] [LawfulBEq κ] {pairs : List (κ × α)} {key : κ} {value : α}
    (found : pairs.lookup key = some value) : (key, value) ∈ pairs := by
  obtain ⟨before, after, rfl, -⟩ := List.lookup_eq_some_iff.mp found
  simp

theorem lookup_eq_none_iff_notMem [BEq κ] [LawfulBEq κ] {pairs : List (κ × α)} {key : κ} :
    pairs.lookup key = none ↔ key ∉ pairs.map (·.1) := by
  rw [List.lookup_eq_none_iff, List.mem_map]
  constructor
  · rintro absent ⟨pair, member, rfl⟩
    simpa using absent pair member
  · intro absent pair member
    simpa using fun same => absent ⟨pair, member, Eq.symm same⟩

theorem lookup_eq_some_iff_mem [BEq κ] [LawfulBEq κ] {pairs : List (κ × α)} {key : κ} {value : α}
    (distinct : (pairs.map (·.1)).Nodup) :
    pairs.lookup key = some value ↔ (key, value) ∈ pairs := by
  induction pairs with
  | nil => simp
  | cons pair rest ih =>
      obtain ⟨k, v⟩ := pair
      rw [List.map_cons, List.nodup_cons] at distinct
      by_cases same : key = k
      · subst key
        have absent : ∀ w, (k, w) ∉ rest := fun w member =>
          distinct.1 (List.mem_map.mpr ⟨(k, w), member, rfl⟩)
        simp [absent, eq_comm]
      · have differs : (key == k) = false := by simpa using same
        simp [List.lookup_cons, differs, ih distinct.2, same]

theorem lookup_reverse [BEq κ] [LawfulBEq κ] {pairs : List (κ × α)}
    (distinct : (pairs.map (·.1)).Nodup) (key : κ) :
    pairs.reverse.lookup key = pairs.lookup key := by
  have distinct' : (pairs.reverse.map (·.1)).Nodup := by
    rwa [List.map_reverse, List.nodup_reverse]
  ext value
  rw [lookup_eq_some_iff_mem distinct', lookup_eq_some_iff_mem distinct, List.mem_reverse]

theorem keys_zip_sublist (keys : List κ) (values : List α) :
    ((keys.zip values).map (·.1)).Sublist keys := by
  induction keys generalizing values with
  | nil => simp
  | cons key keys ih =>
      cases values with
      | nil => simp
      | cons value values => exact (ih values).cons_cons key

theorem filter_fst_beq [BEq κ] [LawfulBEq κ] {pairs : List (κ × α)}
    (distinct : (pairs.map (·.1)).Nodup) (key : κ) :
    pairs.filter (·.1 == key) = (pairs.lookup key).toList.map fun value => (key, value) := by
  induction pairs with
  | nil => rfl
  | cons pair rest ih =>
      obtain ⟨k, value⟩ := pair
      rw [List.map_cons, List.nodup_cons] at distinct
      rw [List.filter_cons, List.lookup_cons, ih distinct.2]
      by_cases same : k = key
      · subst same
        have absent : rest.lookup k = none := lookup_eq_none_iff_notMem.mpr distinct.1
        simp [absent]
      · have differs : (key == k) = false := by simpa using Ne.symm same
        simp [same, differs]

theorem getLast?_filterMap_append (f : α → Option β) (xs : List α) (x : α) :
    ((xs ++ [x]).filterMap f).getLast? = (f x).or (xs.filterMap f).getLast? := by
  rw [List.filterMap_append]
  cases last : f x <;> simp [last]

theorem exists_last_of_mem {a : α} {items : List α} (member : a ∈ items) :
    ∃ before after, items = before ++ a :: after ∧ a ∉ after := by
  obtain ⟨after, before, reversed, fresh⟩ :=
    List.eq_append_cons_of_mem (List.mem_reverse.mpr member)
  refine ⟨before.reverse, after.reverse, ?_, by simpa using fresh⟩
  simpa using congrArg List.reverse reversed

theorem find?_eq_some_of_nodup [DecidableEq κ] {f : α → κ} {items : List α} {a : α}
    (distinct : (items.map f).Nodup) (member : a ∈ items) :
    items.find? (f · == f a) = some a := by
  induction items with
  | nil => cases member
  | cons b rest ih =>
      rw [List.map_cons, List.nodup_cons] at distinct
      rw [List.find?_cons]
      rcases List.mem_cons.mp member with rfl | member
      · rw [beq_self_eq_true]
      · have differs : (f b == f a) = false := by
          rw [beq_eq_false_iff_ne]
          exact fun same => distinct.1 (same ▸ List.mem_map_of_mem member)
        rw [differs]
        exact ih distinct.2 member

theorem filter_filter_of_imp {keep asked : α → Bool} {items : List α}
    (kept : ∀ a ∈ items, asked a = true → keep a = true) :
    (items.filter keep).filter asked = items.filter asked := by
  rw [List.filter_filter]
  apply List.filter_congr
  intro a member
  rw [Bool.and_eq_left_iff_imp]
  exact kept a member

theorem length_le_one_of_map_eq {f : α → κ} {items : List α} (distinct : (items.map f).Nodup)
    (same : ∀ a ∈ items, ∀ b ∈ items, f a = f b) : items.length ≤ 1 := by
  match items with
  | [] => exact Nat.zero_le 1
  | [_] => exact Nat.le_refl 1
  | a :: b :: rest =>
      rw [List.map_cons, List.nodup_cons] at distinct
      have equal := same a (by simp) b (by simp)
      exact absurd (by simp [equal]) distinct.1

theorem sum_map_eq_add_sub {f g : κ → Int} {keys : List κ} {key : κ} (distinct : keys.Nodup)
    (member : key ∈ keys) (agree : ∀ k ∈ keys, k ≠ key → f k = g k) :
    (keys.map f).sum = (keys.map g).sum + (f key - g key) := by
  induction keys with
  | nil => cases member
  | cons k rest ih =>
      rw [List.nodup_cons] at distinct
      rw [List.map_cons, List.map_cons, List.sum_cons, List.sum_cons]
      rcases List.mem_cons.mp member with rfl | member
      · have same : rest.map f = rest.map g := List.map_congr_left fun other inside =>
          agree other (List.mem_cons_of_mem _ inside) fun equal => distinct.1 (equal ▸ inside)
        rw [same]
        omega
      · have differs : k ≠ key := fun equal => distinct.1 (equal ▸ member)
        rw [agree k (List.mem_cons_self ..) differs,
          ih distinct.2 member fun other inside => agree other (List.mem_cons_of_mem _ inside)]
        omega

theorem sum_map_ite_le [DecidableEq κ] {keys : List κ} {key : κ} {n : Int}
    (distinct : keys.Nodup) (nonneg : 0 ≤ n) :
    (keys.map fun k => if k = key then n else 0).sum ≤ n := by
  have zeros : (keys.map fun _ => (0 : Int)).sum = 0 := by simp
  by_cases member : key ∈ keys
  · have moved := sum_map_eq_add_sub (f := fun k => if k = key then n else 0) (g := fun _ => 0)
      distinct member fun k _ differs => if_neg differs
    rw [moved, zeros, if_pos rfl]
    omega
  · have absent : keys.map (fun k => if k = key then n else 0) = keys.map fun _ => 0 :=
      List.map_congr_left fun k inside => if_neg fun (same : k = key) => member (same ▸ inside)
    rw [absent, zeros]
    exact nonneg

end RelayControl
