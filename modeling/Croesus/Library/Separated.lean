import Croesus.Library.Lists
import Mathlib.Tactic.SplitIfs

namespace Croesus.Library.Separated

variable {α : Type*} {c : α}

theorem head?_intercalate {l : List α} {ls : List (List α)} (h : c ∉ l) :
    ([c].intercalate (l :: ls)).head? = some c ↔ l = [] ∧ ls ≠ [] := by
  cases l with
  | nil => cases ls <;> simp
  | cons a l =>
    have hac : a ≠ c := fun he ↦ h (by simp [he])
    cases ls <;> simp [hac]

theorem pieces_eq {ls : List (List α)} (h : [] ∉ ls.tail.dropLast) :
    ∃ before after : List (List α), (before = [] ∨ before = [[]]) ∧ (after = [] ∨ after = [[]]) ∧
      ls = before ++ ls.filter (· ≠ []) ++ after := by
  cases ls with
  | nil => exact ⟨[], [], .inl rfl, .inl rfl, rfl⟩
  | cons l ls =>
    have hfirst : ∃ before : List (List α), (before = [] ∨ before = [[]]) ∧
        [l] = before ++ [l].filter (· ≠ []) := by
      by_cases hl : l = []
      · exact ⟨[[]], .inr rfl, by simp [hl]⟩
      · exact ⟨[], .inl rfl, by simp [hl]⟩
    have hlast : ∃ after : List (List α), (after = [] ∨ after = [[]]) ∧
        ls = ls.filter (· ≠ []) ++ after := by
      rcases List.eq_nil_or_concat ls with rfl | ⟨mid, z, rfl⟩
      · exact ⟨[], .inl rfl, rfl⟩
      · have hmid : mid.filter (· ≠ []) = mid := by
          refine List.filter_eq_self.mpr fun x hx ↦ ?_
          have hx' : x ≠ [] := by
            rintro rfl
            exact h (by simpa using hx)
          simpa using hx'
        rw [List.concat_eq_append, List.filter_append, hmid]
        by_cases hz : z = []
        · exact ⟨[[]], .inr rfl, by simp [hz]⟩
        · exact ⟨[], .inl rfl, by simp [hz]⟩
    obtain ⟨before, hbefore, hl⟩ := hfirst
    obtain ⟨after, hafter, hls⟩ := hlast
    refine ⟨before, after, hbefore, hafter, ?_⟩
    calc l :: ls = [l] ++ ls := rfl
      _ = before ++ [l].filter (· ≠ []) ++ (ls.filter (· ≠ []) ++ after) := by rw [← hl, ← hls]
      _ = before ++ (l :: ls).filter (· ≠ []) ++ after := by
        rw [← List.singleton_append (l := ls), List.filter_append]
        simp only [List.append_assoc]

variable [DecidableEq α]

/-- Two separators stand next to each other. -/
def doubled (c : α) : List α → Bool
  | a :: b :: xs => a = c && b = c || doubled c (b :: xs)
  | _ => false

theorem doubled_append {l : List α} (h : c ∉ l) (xs : List α) :
    doubled c (l ++ c :: xs) = (xs.head? = some c || doubled c xs) := by
  induction l with
  | nil => cases xs <;> simp [doubled]
  | cons a l ih =>
    obtain ⟨ha, hl⟩ := not_or.mp (mt List.mem_cons.mpr h)
    have hac : a ≠ c := fun he ↦ ha he.symm
    rw [← ih hl]
    cases l <;> simp [doubled, hac]

theorem doubled_eq_false {l : List α} (h : c ∉ l) : doubled c l = false := by
  induction l with
  | nil => rfl
  | cons a l ih =>
    obtain ⟨ha, hl⟩ := not_or.mp (mt List.mem_cons.mpr h)
    cases l with
    | nil => rfl
    | cons b l =>
      rw [doubled, ih hl]
      simp [Ne.symm ha]

/-- Pieces that are joined leave two separators in a row exactly around an
empty one that is neither the first nor the last. -/
theorem doubled_intercalate {ls : List (List α)} (h : ∀ l ∈ ls, c ∉ l) :
    doubled c ([c].intercalate ls) ↔ [] ∈ ls.tail.dropLast := by
  induction ls with
  | nil => simp [doubled]
  | cons l ls ih =>
    cases ls with
    | nil => simpa using doubled_eq_false (h l (by simp))
    | cons l' ls =>
      have hrest := ih fun x hx ↦ h x (by simp [hx])
      rw [List.intercalate_cons_cons, List.append_assoc, List.singleton_append,
        doubled_append (h l (by simp)), Bool.or_eq_true, decide_eq_true_eq, hrest,
        head?_intercalate (h l' (by simp)), List.tail_cons, List.tail_cons]
      cases ls with
      | nil => simp
      | cons l'' ls => simp [eq_comm]

/-- What is split into non-empty pieces, without two separators in a row, are
the pieces joined together, with at most one separator more at either end. -/
theorem filter_splitOn_iff {xs : List α} {path : List (List α)} :
    (doubled c xs = false ∧ (xs.splitOn c).filter (· ≠ []) = path) ↔
      (∀ l ∈ path, l ≠ [] ∧ c ∉ l) ∧ ∃ before after : List (List α),
        (before = [] ∨ before = [[]]) ∧ (after = [] ∨ after = [[]]) ∧
        xs = [c].intercalate (before ++ path ++ after) := by
  constructor
  · rintro ⟨hdoubled, rfl⟩
    constructor
    · intro l hl
      obtain ⟨hmem, hne⟩ := List.mem_filter.mp hl
      exact ⟨by simpa using hne, Lists.notMem_of_mem_splitOn hmem⟩
    · have hinner : [] ∉ (xs.splitOn c).tail.dropLast := by
        rw [← doubled_intercalate fun l ↦ Lists.notMem_of_mem_splitOn (a := c),
          List.intercalate_splitOn, hdoubled]
        exact Bool.false_ne_true
      obtain ⟨before, after, hbefore, hafter, heq⟩ := pieces_eq hinner
      exact ⟨before, after, hbefore, hafter, by rw [← heq, List.intercalate_splitOn]⟩
  · rintro ⟨hpath, before, after, hbefore, hafter, rfl⟩
    have hpieces : ∀ l ∈ before ++ path ++ after, c ∉ l := by
      intro l hl
      rcases hbefore with rfl | rfl <;> rcases hafter with rfl | rfl <;> simp at hl <;> grind
    have hfilter : (before ++ path ++ after).filter (· ≠ []) = path := by
      have hkeep : path.filter (· ≠ []) = path :=
        List.filter_eq_self.mpr fun l hl ↦ by simpa using (hpath l hl).1
      rw [List.filter_append, List.filter_append, hkeep]
      rcases hbefore with rfl | rfl <;> rcases hafter with rfl | rfl <;> simp
    constructor
    · rw [← Bool.not_eq_true, doubled_intercalate hpieces]
      intro hmem
      -- an empty piece inside would be one of the path
      have hin : [] ∈ path := by
        rcases hbefore with rfl | rfl <;> rcases hafter with rfl | rfl
        · rw [List.nil_append, List.append_nil] at hmem
          exact List.mem_of_mem_tail (List.dropLast_subset _ hmem)
        · cases path with
          | nil => simp at hmem
          | cons l path =>
            simp only [List.nil_append, List.cons_append, List.tail_cons, List.dropLast_concat] at hmem
            exact List.mem_cons_of_mem l hmem
        · simp only [List.append_nil, List.singleton_append, List.tail_cons] at hmem
          exact List.dropLast_subset _ hmem
        · simpa using hmem
      exact (hpath [] hin).1 rfl
    · by_cases hnil : before ++ path ++ after = []
      · rw [hnil] at hfilter ⊢
        simpa using hfilter
      · rw [List.splitOn_intercalate c hpieces hnil, hfilter]

end Croesus.Library.Separated
