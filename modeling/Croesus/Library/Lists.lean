import Mathlib.Data.List.Basic
import Mathlib.Data.List.Forall2
import Mathlib.Data.Nat.Notation

namespace Croesus.Library.Lists

variable {α β : Type*}

theorem mapM_eq_some {f : α → Option β} {xs : List α} {ys : List β} :
    xs.mapM f = some ys ↔ xs.map f = ys.map some := by
  induction xs generalizing ys with
  | nil => cases ys <;> simp
  | cons x xs ih =>
    simp only [List.mapM_cons, Option.bind_eq_bind, Option.bind_eq_some_iff, Option.pure_def,
      Option.some.injEq, List.map_cons]
    constructor
    · rintro ⟨y, hy, zs, hzs, rfl⟩
      rw [hy, ih.mp hzs, List.map_cons]
    · intro h
      cases ys with
      | nil => simp at h
      | cons y ys =>
        obtain ⟨hy, hys⟩ := List.cons.inj h
        exact ⟨y, hy, ys, ih.mpr hys, rfl⟩

theorem mapM_isSome {f : α → Option β} {xs : List α} (h : ∀ x ∈ xs, (f x).isSome) :
    ∃ ys, xs.mapM f = some ys := by
  induction xs with
  | nil => exact ⟨[], rfl⟩
  | cons x xs ih =>
    obtain ⟨y, hy⟩ := Option.isSome_iff_exists.mp (h x (by simp))
    obtain ⟨ys, hys⟩ := ih (fun z hz ↦ h z (by simp [hz]))
    exact ⟨y :: ys, by simp [hy, hys]⟩

theorem exists_of_mapM_ok {ε : Type*} {f : α → Except ε β} {xs : List α} {ys : List β}
    (h : xs.mapM f = .ok ys) {x : α} (hx : x ∈ xs) : ∃ y ∈ ys, f x = .ok y := by
  induction xs generalizing ys with
  | nil => cases hx
  | cons x' xs ih =>
    rw [List.mapM_cons] at h
    cases hy : f x' with
    | error e => simp [hy, bind, Except.bind] at h
    | ok y =>
      cases hys : xs.mapM f with
      | error e => simp [hy, hys, bind, Except.bind] at h
      | ok ys' =>
        obtain rfl : y :: ys' = ys := by simpa [hy, hys, bind, Except.bind, pure, Except.pure] using h
        rcases List.mem_cons.mp hx with rfl | hx
        · exact ⟨y, by simp, hy⟩
        · obtain ⟨z, hz, hfz⟩ := ih hys hx
          exact ⟨z, by simp [hz], hfz⟩

theorem forall₂_concat {r : α → β → Prop} {xs : List α} {ys : List β} {x : α} {y : β} :
    List.Forall₂ r (xs ++ [x]) (ys ++ [y]) ↔ List.Forall₂ r xs ys ∧ r x y := by
  rw [← List.forall₂_reverse_iff, List.reverse_concat', List.reverse_concat', List.forall₂_cons,
    List.forall₂_reverse_iff, and_comm]

theorem mapM_ok_of_forall₂ {ε : Type*} {f : α → Except ε β} {xs : List α} {ys : List β}
    (h : List.Forall₂ (fun x y ↦ f x = .ok y) xs ys) : xs.mapM f = .ok ys := by
  induction h with
  | nil => rfl
  | cons hx _ ih =>
    rw [List.mapM_cons, hx, ih]
    rfl

theorem forall₂_of_mapM_ok {ε : Type*} {f : α → Except ε β} {xs : List α} {ys : List β}
    (h : xs.mapM f = .ok ys) : List.Forall₂ (fun x y ↦ f x = .ok y) xs ys := by
  induction xs generalizing ys with
  | nil =>
    obtain rfl : [] = ys := Except.ok.inj h
    exact .nil
  | cons x xs ih =>
    rw [List.mapM_cons] at h
    cases hx : f x with
    | error e => simp [hx, bind, Except.bind] at h
    | ok y =>
      cases hxs : xs.mapM f with
      | error e => simp [hx, hxs, bind, Except.bind] at h
      | ok ys' =>
        obtain rfl : y :: ys' = ys := by simpa [hx, hxs, bind, Except.bind, pure, Except.pure] using h
        exact .cons hx (ih hxs)

theorem notMem_of_mem_splitOn [DecidableEq α] {a : α} {xs l : List α} (h : l ∈ xs.splitOn a) :
    a ∉ l := by
  induction xs generalizing l with
  | nil => simp_all
  | cons x xs ih =>
    rw [List.splitOn_cons_eq_if_modifyHead] at h
    split_ifs at h with hx
    · rcases List.mem_cons.mp h with rfl | h
      · exact List.not_mem_nil
      · exact ih h
    · cases hs : xs.splitOn a with
      | nil => simp [hs] at h
      | cons y ys =>
        rw [hs, List.modifyHead_cons] at h
        rcases List.mem_cons.mp h with rfl | h
        · have hy : a ∉ y := ih (by simp [hs])
          have hxa : a ≠ x := fun he ↦ hx (by simp [he])
          simp [hy, hxa]
        · exact ih (by simp [hs, h])

end Croesus.Library.Lists
