/-!
Paths: names between slashes. Slashes and dots that name nothing change neither the names nor the
directory; the text of the directory is the front of the path as it is written. Main statement: the
directory has the names of the path but the last.
-/

namespace RelayControl.Path

/-- A path at its slashes: what stands before the first one, and the segments that follow it. -/
def cut : List Char → List Char × List (List Char)
  | [] => ([], [])
  | c :: rest =>
      let (first, later) := cut rest
      if c = '/' then ([], first :: later) else (c :: first, later)

def join (first : List Char) (later : List (List Char)) : List Char :=
  first ++ later.flatMap ('/' :: ·)

def isIdle (segment : List Char) : Bool := segment == [] || segment == ['.']

def dropIdle (segments : List (List Char)) : List (List Char) :=
  (segments.reverse.dropWhile isIdle).reverse

def names (path : String) : List String :=
  let (first, later) := cut path.toList
  ((first :: later).filter (! isIdle ·)).map String.ofList

/-- The directory that a path lies in, as it is written there; empty where there is none. -/
def directory (path : String) : String :=
  let (first, later) := cut path.toList
  let named := dropIdle later
  let front := dropIdle named.dropLast
  if named.isEmpty then ""
  else if first.isEmpty && front.isEmpty then "/"
  else String.ofList (join first front)

theorem join_cut (path : List Char) : join (cut path).1 (cut path).2 = path := by
  induction path with
  | nil => rfl
  | cons c rest ih =>
      simp only [cut]
      split <;> simp_all [join]

theorem slash_not_mem_cut (path : List Char) : ∀ s ∈ (cut path).1 :: (cut path).2, '/' ∉ s := by
  induction path with
  | nil => simp [cut]
  | cons c rest ih =>
      simp only [cut]
      split
      · simpa using ih
      · next h =>
          simp only [List.mem_cons, forall_eq_or_imp] at ih ⊢
          exact ⟨fun m => m.elim (fun e => h e.symm) ih.1, ih.2⟩

theorem cut_append {first : List Char} (h : '/' ∉ first) (rest : List Char) :
    cut (first ++ rest) = (first ++ (cut rest).1, (cut rest).2) := by
  induction first with
  | nil => rfl
  | cons c cs ih =>
      simp only [List.mem_cons, not_or] at h
      simp [cut, ih h.2, Ne.symm h.1]

theorem cut_join {first : List Char} {later : List (List Char)} (h : ∀ s ∈ first :: later, '/' ∉ s) :
    cut (join first later) = (first, later) := by
  induction later generalizing first with
  | nil => simpa [join, cut] using cut_append (h first (by simp)) []
  | cons s later ih =>
      have hs : cut (join s later) = (s, later) := ih fun t ht => h t (by simp_all)
      have hj : join first (s :: later) = first ++ '/' :: join s later := by simp [join]
      rw [hj, cut_append (h first (by simp))]
      simp [cut, hs]

theorem filter_dropIdle (segments : List (List Char)) :
    (dropIdle segments).filter (! isIdle ·) = segments.filter (! isIdle ·) := by
  have key : ∀ l : List (List Char),
      (l.dropWhile isIdle).filter (! isIdle ·) = l.filter (! isIdle ·) := by
    intro l
    induction l with
    | nil => rfl
    | cons s l ih => by_cases h : isIdle s <;> simp [h, ih]
  rw [dropIdle, List.filter_reverse, key, ← List.filter_reverse, List.reverse_reverse]

theorem mem_of_mem_dropIdle {s : List Char} {segments : List (List Char)}
    (h : s ∈ dropIdle segments) : s ∈ segments := by
  have := (List.dropWhile_sublist isIdle).subset (List.mem_reverse.1 h)
  exact List.mem_reverse.1 this

theorem getLast_dropIdle {segments : List (List Char)} (h : dropIdle segments ≠ []) :
    isIdle ((dropIdle segments).getLast h) = false := by
  have hne : segments.reverse.dropWhile isIdle ≠ [] := by
    intro e; exact h (by simp [dropIdle, e])
  simpa [dropIdle] using List.head_dropWhile_not isIdle hne

theorem names_directory (path : String) : names (directory path) = (names path).dropLast := by
  have slashes := slash_not_mem_cut path.toList
  generalize hc : cut path.toList = parts at slashes
  obtain ⟨first, later⟩ := parts
  have whole : names path =
      ((first :: dropIdle later).filter (! isIdle ·)).map String.ofList := by
    simp [names, hc, List.filter_cons, filter_dropIdle]
  by_cases empty : dropIdle later = []
  · have : directory path = "" := by simp [directory, hc, empty]
    rw [this, whole, empty]
    cases h : isIdle first <;> simp [names, cut, h, show isIdle [] = true from rfl]
  · have last := getLast_dropIdle empty
    have split := List.dropLast_concat_getLast empty
    have front : (names path).dropLast =
        ((first :: dropIdle (dropIdle later).dropLast).filter (! isIdle ·)).map String.ofList := by
      rw [whole, ← split, ← List.cons_append, List.filter_append, List.map_append]
      simp [last, List.filter_cons, filter_dropIdle]
    rw [front]
    by_cases root : first = [] ∧ dropIdle (dropIdle later).dropLast = []
    · have : directory path = "/" := by simp [directory, hc, empty, root]
      rw [this, root.1, root.2]
      decide
    · have : directory path = String.ofList (join first (dropIdle (dropIdle later).dropLast)) := by
        simp [directory, hc, empty]
        grind
      have kept : ∀ s ∈ first :: dropIdle (dropIdle later).dropLast, '/' ∉ s := by
        intro s hs
        rcases List.mem_cons.1 hs with rfl | hs
        · exact slashes s (by simp)
        · exact slashes s (by
            simp [mem_of_mem_dropIdle (List.dropLast_subset _ (mem_of_mem_dropIdle hs))])
      simp [this, names, cut_join kept]

end RelayControl.Path
