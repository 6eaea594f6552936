import Mathlib.Data.String.Basic
import RelayControl.Json.Decode
import RelayControl.Proofs.Basic

/-!
Members in the order of their keys, and values whose members are put in that order. Two lists of
members whose keys differ say the same if each key leads to the same value in both.
-/

namespace RelayControl

namespace Members

variable {α β : Type}

def Sorted (ms : List (String × α)) : Prop := (ms.map (·.1)).Pairwise (· < ·)

/-- The members in the order of their keys; the last one of a key counts. -/
def ofList (ms : List (String × α)) : List (String × α) :=
  ms.foldl (fun acc m => insert m.1 m.2 acc) []

@[simp] theorem sorted_nil : Sorted ([] : List (String × α)) := .nil

theorem Sorted.nodup {ms : List (String × α)} (sorted : Sorted ms) : (ms.map (·.1)).Nodup :=
  sorted.imp fun below => ne_of_lt below

theorem mem_insert {key : String} {value : α} {ms : List (String × α)} {m : String × α}
    (member : m ∈ insert key value ms) : m = (key, value) ∨ m ∈ ms := by
  induction ms with
  | nil => exact .inl (List.mem_singleton.mp member)
  | cons first rest ih =>
      rw [insert] at member
      split at member
      · simpa using member
      · split at member
        · rcases List.mem_cons.mp member with same | member
          · exact .inl same
          · exact .inr (List.mem_cons_of_mem _ member)
        · rcases List.mem_cons.mp member with same | member
          · exact .inr (by simp [same])
          · exact (ih member).imp_right (List.mem_cons_of_mem _)

theorem sorted_insert (key : String) (value : α) {ms : List (String × α)} (sorted : Sorted ms) :
    Sorted (insert key value ms) := by
  induction ms with
  | nil => simp [insert, Sorted]
  | cons first rest ih =>
      obtain ⟨k, v⟩ := first
      obtain ⟨least, later⟩ := List.pairwise_cons.mp sorted
      rw [insert]
      split
      · rename_i below
        refine List.pairwise_cons.mpr ⟨?_, sorted⟩
        intro other member
        rcases List.mem_cons.mp member with rfl | member
        · exact below
        · exact below.trans (least other member)
      · rename_i notBelow
        split
        · rename_i same
          subst same
          exact List.pairwise_cons.mpr ⟨least, later⟩
        · rename_i differs
          refine List.pairwise_cons.mpr ⟨?_, ih later⟩
          intro other member
          obtain ⟨m, inside, rfl⟩ := List.mem_map.mp member
          rcases mem_insert inside with rfl | inside
          · exact lt_of_le_of_ne (not_lt.mp notBelow) (Ne.symm differs)
          · exact least _ (List.mem_map_of_mem inside)

theorem exists_insert_eq (key : String) {ms : List (String × α)} (sorted : Sorted ms) :
    ∃ before after, (∀ m ∈ before ++ after, m.1 ≠ key) ∧
      ∀ value, insert key value ms = before ++ (key, value) :: after := by
  induction ms with
  | nil => exact ⟨[], [], List.forall_mem_nil _, fun _ => rfl⟩
  | cons first rest ih =>
      obtain ⟨k, v⟩ := first
      obtain ⟨least, later⟩ := List.pairwise_cons.mp sorted
      rcases lt_trichotomy key k with below | rfl | above
      · refine ⟨[], (k, v) :: rest, List.forall_mem_cons.mpr ⟨ne_of_gt below, ?_⟩, ?_⟩
        · exact fun m inside => ne_of_gt (below.trans (least m.1 (List.mem_map_of_mem inside)))
        · exact fun value => by rw [insert, if_pos below, List.nil_append]
      · refine ⟨[], rest, fun m inside => ne_of_gt (least m.1 (List.mem_map_of_mem inside)), ?_⟩
        exact fun value => by rw [insert, if_neg (lt_irrefl _), if_pos rfl, List.nil_append]
      · obtain ⟨before, after, others, inserted⟩ := ih later
        refine ⟨(k, v) :: before, after, List.forall_mem_cons.mpr ⟨ne_of_lt above, others⟩, ?_⟩
        intro value
        rw [insert_cons_of_not_lt (not_lt_of_gt above) (ne_of_gt above), inserted,
          List.cons_append]

theorem lookup_insert (key : String) (value : α) (ms : List (String × α)) (k : String) :
    (insert key value ms).lookup k = if k = key then some value else ms.lookup k := by
  by_cases own : k = key
  · subst own
    rw [if_pos rfl, lookup_insert_self]
  · rw [if_neg own]
    induction ms with
    | nil => simp [insert, own]
    | cons first rest ih =>
        obtain ⟨k', v⟩ := first
        rw [insert]
        split
        · rw [lookup_cons_eq_ite, if_neg own]
        · split
          · rename_i same
            subst same
            rw [lookup_cons_eq_ite, lookup_cons_eq_ite, if_neg own, if_neg own]
          · rw [lookup_cons_eq_ite, lookup_cons_eq_ite, ih]

theorem lookup_erase_eq_ite (key : String) (ms : List (String × α)) (k : String) :
    (erase key ms).lookup k = if k = key then none else ms.lookup k := by
  by_cases own : k = key
  · subst own
    rw [if_pos rfl, lookup_erase]
  · rw [if_neg own]
    exact lookup_filter_of_kept (· != key) (by simpa using own)

theorem nodup_erase (key : String) {ms : List (String × α)} (distinct : (ms.map (·.1)).Nodup) :
    ((erase key ms).map (·.1)).Nodup :=
  distinct.sublist (List.filter_sublist.map _)

theorem Sorted.ext {ms ns : List (String × α)} (sorted : Sorted ms) (sorted' : Sorted ns)
    (same : ∀ k, ms.lookup k = ns.lookup k) : ms = ns := by
  induction ms generalizing ns with
  | nil =>
      cases ns with
      | nil => rfl
      | cons n ns =>
          obtain ⟨l, w⟩ := n
          simpa using same l
  | cons m ms ih =>
      obtain ⟨k, v⟩ := m
      cases ns with
      | nil => simpa using same k
      | cons n ns =>
          obtain ⟨l, w⟩ := n
          obtain ⟨least, later⟩ := List.pairwise_cons.mp sorted
          obtain ⟨least', later'⟩ := List.pairwise_cons.mp sorted'
          have first : k = l := by
            rcases lt_trichotomy k l with below | equal | above
            · -- the lesser of the two first keys is missing on the other side
              have found := same k
              rw [lookup_cons_eq_ite, if_pos rfl, lookup_cons_eq_ite, if_neg (ne_of_lt below)]
                at found
              exact absurd (below.trans (least' k (List.mem_map_of_mem
                (mem_of_lookup_eq_some found.symm)))) (lt_irrefl _)
            · exact equal
            · have found := same l
              rw [lookup_cons_eq_ite, if_neg (ne_of_lt above), lookup_cons_eq_ite, if_pos rfl]
                at found
              exact absurd (above.trans (least l (List.mem_map_of_mem
                (mem_of_lookup_eq_some found)))) (lt_irrefl _)
          subst first
          have value : v = w := by simpa using same k
          subst value
          have rest : ms = ns := by
            apply ih later later'
            intro k'
            by_cases own : k' = k
            · subst own
              have absent : ∀ {xs : List (String × α)}, (∀ l ∈ xs.map (·.1), k' < l) →
                  xs.lookup k' = none := fun above =>
                lookup_eq_none_iff_notMem.mpr fun member => lt_irrefl _ (above k' member)
              rw [absent least, absent least']
            · have found := same k'
              rwa [lookup_cons_eq_ite, lookup_cons_eq_ite, if_neg own, if_neg own] at found
          rw [rest]

theorem sorted_foldl_insert (ms : List (String × α)) {acc : List (String × α)}
    (sorted : Sorted acc) : Sorted (ms.foldl (fun acc m => insert m.1 m.2 acc) acc) := by
  induction ms generalizing acc with
  | nil => exact sorted
  | cons m rest ih => exact ih (sorted_insert m.1 m.2 sorted)

theorem sorted_ofList (ms : List (String × α)) : Sorted (ofList ms) :=
  sorted_foldl_insert ms sorted_nil

theorem mem_of_mem_ofList {ms : List (String × α)} {m : String × α} (member : m ∈ ofList ms) :
    m ∈ ms := by
  have fold : ∀ (ms : List (String × α)) {acc : List (String × α)},
      m ∈ ms.foldl (fun acc m => insert m.1 m.2 acc) acc → m ∈ acc ∨ m ∈ ms := by
    intro ms
    induction ms with
    | nil => exact fun member => .inl member
    | cons first rest ih =>
        intro acc member
        rcases ih member with inside | later
        · rcases mem_insert inside with rfl | inside
          · exact .inr (by simp)
          · exact .inl inside
        · exact .inr (List.mem_cons_of_mem _ later)
  simpa using fold ms member

theorem lookup_foldl_insert (ms acc : List (String × α)) (k : String) :
    (ms.foldl (fun acc m => insert m.1 m.2 acc) acc).lookup k =
      (ms.reverse.lookup k).or (acc.lookup k) := by
  induction ms generalizing acc with
  | nil => rfl
  | cons m rest ih =>
      obtain ⟨l, v⟩ := m
      rw [List.foldl_cons, ih, lookup_insert, List.reverse_cons, List.lookup_append, Option.or_assoc,
        lookup_cons_eq_ite, List.lookup_nil]
      by_cases own : k = l <;> simp [own]

theorem lookup_ofList_eq_reverse (ms : List (String × α)) (k : String) :
    (ofList ms).lookup k = ms.reverse.lookup k := by
  rw [ofList, lookup_foldl_insert, List.lookup_nil, Option.or_none]

theorem lookup_ofList {ms : List (String × α)} (distinct : (ms.map (·.1)).Nodup) (k : String) :
    (ofList ms).lookup k = ms.lookup k := by
  rw [lookup_ofList_eq_reverse, lookup_reverse distinct]

theorem ofList_of_sorted {ms : List (String × α)} (sorted : Sorted ms) : ofList ms = ms :=
  (sorted_ofList ms).ext sorted (lookup_ofList sorted.nodup)

@[simp] theorem ofList_ofList (ms : List (String × α)) : ofList (ofList ms) = ofList ms :=
  ofList_of_sorted (sorted_ofList ms)

theorem insert_map (f : α → β) (key : String) (value : α) (ms : List (String × α)) :
    (insert key value ms).map (fun m => (m.1, f m.2)) =
      insert key (f value) (ms.map fun m => (m.1, f m.2)) := by
  induction ms with
  | nil => rfl
  | cons first rest ih =>
      rw [insert, List.map_cons, insert]
      split
      · rfl
      · split
        · rfl
        · rw [List.map_cons, ih]

theorem ofList_map (f : α → β) (ms : List (String × α)) :
    (ofList ms).map (fun m => (m.1, f m.2)) = ofList (ms.map fun m => (m.1, f m.2)) := by
  have fold : ∀ (ms acc : List (String × α)),
      (ms.foldl (fun acc m => insert m.1 m.2 acc) acc).map (fun m => (m.1, f m.2)) =
        (ms.map fun m => (m.1, f m.2)).foldl (fun acc m => insert m.1 m.2 acc)
          (acc.map fun m => (m.1, f m.2)) := by
    intro ms
    induction ms with
    | nil => exact fun _ => rfl
    | cons m rest ih =>
        intro acc
        rw [List.foldl_cons, ih, insert_map]
        rfl
  exact fold ms []

end Members

end RelayControl
