import Croesus.Firestore.Database
import Croesus.Library.Separated

namespace Croesus.Firestore

open Library

namespace ResourcePath

theorem doubleSlash_eq (cs : List Char) : doubleSlash cs = Separated.doubled '/' cs := by
  induction cs with
  | nil => rfl
  | cons a cs ih =>
    cases cs with
    | nil => cases ha : decide (a = '/') <;> simp_all [doubleSlash, Separated.doubled]
    | cons b cs =>
      rw [Separated.doubled, ← ih]
      by_cases h : a = '/' ∧ b = '/'
      · obtain ⟨rfl, rfl⟩ := h
        rfl
      · have hb : (decide (a = '/') && decide (b = '/')) = false := by simpa using h
        rw [hb, Bool.false_or, doubleSlash]
        rintro _ rfl he
        obtain ⟨rfl, -⟩ := List.cons.inj he
        exact h ⟨rfl, rfl⟩

theorem fromString_eq_ok {s : String} {path : List String} : fromString s = .ok path ↔
    Separated.doubled '/' s.toList = false ∧
      (s.toList.splitOn '/').filter (· ≠ []) = path.map String.toList := by
  rw [fromString, doubleSlash_eq]
  split_ifs with h
  · simp [h]
  · have hmap : ∀ ls : List (List Char), ls.map String.ofList = path ↔ ls = path.map String.toList := by
      intro ls
      constructor
      · rintro rfl
        simp [Function.comp_def]
      · rintro rfl
        simp [Function.comp_def]
    rw [Except.ok.injEq, hmap]
    simp [h]

/-- A string is taken for a path exactly if it consists of the segments, with
slashes between them and at most one slash more at either end. -/
theorem fromString_ok_iff {s : String} {path : List String} : fromString s = .ok path ↔
    (∀ segment ∈ path, IsSegment segment) ∧ ∃ before after : List String,
      (before = [] ∨ before = [""]) ∧ (after = [] ∨ after = [""]) ∧
      s = canonicalString (before ++ path ++ after) := by
  rw [fromString_eq_ok, Separated.filter_splitOn_iff]
  have hsegments : (∀ l ∈ path.map String.toList, l ≠ [] ∧ '/' ∉ l) ↔
      ∀ segment ∈ path, IsSegment segment := by
    simp [IsSegment]
  rw [hsegments]
  refine and_congr_right fun _ ↦ ?_
  have hcanonical (before after : List String) : s = canonicalString (before ++ path ++ after) ↔
      s.toList = ['/'].intercalate
        (before.map String.toList ++ path.map String.toList ++ after.map String.toList) := by
    rw [← String.toList_inj, canonicalString, String.toList_intercalate]
    simp
  constructor
  · rintro ⟨before, after, hbefore, hafter, hs⟩
    refine ⟨before.map String.ofList, after.map String.ofList, ?_, ?_, ?_⟩
    · rcases hbefore with rfl | rfl <;> simp
    · rcases hafter with rfl | rfl <;> simp
    · rw [hcanonical, hs]
      simp [Function.comp_def]
  · rintro ⟨before, after, hbefore, hafter, hs⟩
    refine ⟨before.map String.toList, after.map String.toList, ?_, ?_, (hcanonical _ _).mp hs⟩
    · rcases hbefore with rfl | rfl <;> simp
    · rcases hafter with rfl | rfl <;> simp

end ResourcePath

namespace DocumentKey

/-- The strings that name a document of a collection are its identifier, with
or without a slash at either end. -/
theorem document_child_iff (collection : FIRCollectionReference) (id s : String) :
    document collection s = .ok (child collection id) ↔
      IsSegment id ∧ (s = id ∨ s = "/" ++ id ∨ s = id ++ "/" ∨ s = "/" ++ id ++ "/") := by
  have hpath : document collection s = .ok (child collection id) ↔
      ResourcePath.fromString s = .ok [id] := by
    rw [document]
    cases hs : ResourcePath.fromString s with
    | error e => simp [bind, Except.bind]
    | ok path =>
      simp only [bind, Except.bind, Except.ok.injEq]
      constructor
      · intro h
        split_ifs at h
        simpa [child] using congrArg DocumentKey.path (Except.ok.inj h)
      · rintro rfl
        simp [child, pure, Except.pure]
  rw [hpath, ResourcePath.fromString_ok_iff]
  have hsegment : (∀ segment ∈ [id], IsSegment segment) ↔ IsSegment id := by simp
  rw [hsegment]
  refine and_congr_right fun _ ↦ ?_
  constructor
  · rintro ⟨before, after, rfl | rfl, rfl | rfl, rfl⟩
    · exact .inl (by simp)
    · exact .inr (.inr (.inl (by simp [ResourcePath.canonicalString])))
    · exact .inr (.inl (by simp [ResourcePath.canonicalString]))
    · exact .inr (.inr (.inr (by simp [ResourcePath.canonicalString, String.append_assoc])))
  · rintro (rfl | rfl | rfl | rfl)
    · exact ⟨[], [], .inl rfl, .inl rfl, by simp [ResourcePath.canonicalString]⟩
    · exact ⟨[""], [], .inr rfl, .inl rfl, by simp [ResourcePath.canonicalString]⟩
    · exact ⟨[], [""], .inl rfl, .inr rfl, by simp [ResourcePath.canonicalString]⟩
    · exact ⟨[""], [""], .inr rfl, .inr rfl, by
        simp [ResourcePath.canonicalString, String.append_assoc]⟩

end DocumentKey

end Croesus.Firestore
