import Mathlib.Data.List.Basic
import Mathlib.Data.Nat.Notation

namespace Croesus.Library.IndexedKey

def indexed (name : String) (n : ℕ) : String := name ++ ":" ++ toString n

theorem indexed_toList (name : String) (n : ℕ) :
    (indexed name n).toList = name.toList ++ ':' :: Nat.toDigits 10 n := by
  have hn : toString n = String.ofList (Nat.toDigits 10 n) := rfl
  simp [indexed, hn]

theorem colon_notMem_digits (n : ℕ) : ':' ∉ Nat.toDigits 10 n := by
  intro h
  have hd := Nat.isDigit_of_mem_toDigits (by decide) (by decide) h
  exact absurd hd (by decide)

theorem append_cons_inj {α : Type*} {c : α} {x y u v : List α} (hx : c ∉ x) (hy : c ∉ y)
    (h : x ++ c :: u = y ++ c :: v) : x = y ∧ u = v := by
  rcases List.append_eq_append_iff.mp h with ⟨w, rfl, hw⟩ | ⟨w, rfl, hw⟩
  · cases w with
    | nil => exact ⟨by simp, by simpa using hw⟩
    | cons d w =>
      obtain ⟨rfl, -⟩ := List.cons.inj hw
      simp at hy
  · cases w with
    | nil => exact ⟨by simp, by simpa using hw.symm⟩
    | cons d w =>
      obtain ⟨rfl, -⟩ := List.cons.inj hw
      simp at hx

/-- The number is what follows the last colon, so it can be read back even
when the name contains colons itself. -/
theorem indexed_inj {a b : String} {m n : ℕ} : indexed a m = indexed b n ↔ a = b ∧ m = n := by
  constructor
  · intro h
    have hl := congrArg (fun s ↦ s.toList.reverse) h
    simp only [indexed_toList, List.reverse_append, List.reverse_cons, List.append_assoc,
      List.singleton_append] at hl
    have hm : ':' ∉ (Nat.toDigits 10 m).reverse := by simpa using colon_notMem_digits m
    have hn : ':' ∉ (Nat.toDigits 10 n).reverse := by simpa using colon_notMem_digits n
    -- digits hold no colon, so both names are split at the same place
    obtain ⟨hd, hs⟩ := append_cons_inj hm hn hl
    have hv := congrArg (Nat.ofDigitChars 10 · 0) (List.reverse_inj.mp hd)
    simp only [Nat.ofDigitChars_ten_toDigits] at hv
    exact ⟨String.toList_inj.mp (List.reverse_inj.mp hs), hv⟩
  · rintro ⟨rfl, rfl⟩
    rfl

theorem colon_mem_indexed (a : String) (n : ℕ) : ':' ∈ (indexed a n).toList := by
  simp [indexed_toList]

theorem ne_indexed {s : String} (hs : ':' ∉ s.toList) (a : String) (n : ℕ) : s ≠ indexed a n := by
  rintro rfl
  exact hs (colon_mem_indexed a n)

end Croesus.Library.IndexedKey
