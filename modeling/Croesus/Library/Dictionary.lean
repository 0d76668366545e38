import Mathlib.Data.List.Basic

namespace Croesus.Library.Dictionary

variable {κ β γ : Type*} [DecidableEq κ]

def erase (d : List (κ × β)) (k : κ) : List (κ × β) := d.filter fun x ↦ x.1 ≠ k

def set (d : List (κ × β)) (k : κ) (v : β) : List (κ × β) := (k, v) :: erase d k

theorem erase_cons (x : κ × β) (d : List (κ × β)) (k : κ) :
    erase (x :: d) k = if x.1 = k then erase d k else x :: erase d k := by
  by_cases h : x.1 = k <;> simp [erase, h]

theorem lookup_cons (x : κ × β) (d : List (κ × β)) (k : κ) :
    (x :: d).lookup k = if k = x.1 then some x.2 else d.lookup k := by
  obtain ⟨k', v⟩ := x
  rw [List.lookup_cons]
  by_cases h : k = k'
  · simp [h]
  · have hb : (k == k') = false := beq_eq_false_iff_ne.mpr h
    simp [hb, h]

theorem erase_append (d d' : List (κ × β)) (k : κ) : erase (d ++ d') k = erase d k ++ erase d' k :=
  List.filter_append ..

variable (d : List (κ × β)) (k : κ) (v : β)

theorem mem_erase (x : κ × β) : x ∈ erase d k ↔ x ∈ d ∧ x.1 ≠ k := by
  simp [erase]

theorem mem_set (x : κ × β) : x ∈ set d k v ↔ x = (k, v) ∨ x ∈ d ∧ x.1 ≠ k := by
  simp [set, mem_erase]

theorem lookup_erase_ne {k' : κ} (h : k' ≠ k) : (erase d k).lookup k' = d.lookup k' := by
  induction d with
  | nil => rfl
  | cons x d ih =>
    by_cases hx : x.1 = k
    · have hk : ¬ k' = x.1 := fun he ↦ h (he.trans hx)
      rw [erase_cons, if_pos hx, lookup_cons, if_neg hk, ih]
    · rw [erase_cons, if_neg hx, lookup_cons, lookup_cons, ih]

theorem lookup_set_self : (set d k v).lookup k = some v := by
  simp [set, lookup_cons]

theorem lookup_set_ne {k' : κ} (h : k' ≠ k) : (set d k v).lookup k' = d.lookup k' := by
  rw [set, lookup_cons, if_neg h, lookup_erase_ne d k h]

def mapValues (f : β → γ) (d : List (κ × β)) : List (κ × γ) := d.map fun x ↦ (x.1, f x.2)

theorem erase_mapValues (f : β → γ) : erase (mapValues f d) k = mapValues f (erase d k) := by
  simp [erase, mapValues, List.filter_map, Function.comp_def]

theorem set_mapValues (f : β → γ) : set (mapValues f d) k (f v) = mapValues f (set d k v) := by
  rw [set, erase_mapValues]
  rfl

theorem lookup_mapValues (f : β → γ) : (mapValues f d).lookup k = (d.lookup k).map f := by
  induction d with
  | nil => rfl
  | cons x d ih =>
    rw [mapValues, List.map_cons, ← mapValues, lookup_cons, lookup_cons, ih]
    split_ifs <;> rfl

end Croesus.Library.Dictionary
