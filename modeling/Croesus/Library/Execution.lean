import Mathlib.Logic.Function.Basic
import Mathlib.Data.Nat.Notation

namespace Croesus.Library.Execution

variable {α β ε : Type*}

/-- Every event of the list meets `P` in the state in which it is taken. -/
def Along (step : α → ε → α) (P : α → ε → Prop) : α → List ε → Prop
  | _, [] => True
  | a, e :: es => P a e ∧ Along step P (step a e) es

instance Along.decidable (step : α → ε → α) (P : α → ε → Prop) [∀ a e, Decidable (P a e)] :
    ∀ a es, Decidable (Along step P a es)
  | _, [] => .isTrue trivial
  | a, e :: es =>
    have := Along.decidable step P (step a e) es
    inferInstanceAs (Decidable (P a e ∧ Along step P (step a e) es))

theorem along_nil (step : α → ε → α) (P : α → ε → Prop) (a : α) : Along step P a [] := trivial

theorem along_of_forall {step : α → ε → α} {P : α → ε → Prop} {es : List ε}
    (h : ∀ e ∈ es, ∀ a, P a e) (a : α) : Along step P a es := by
  induction es generalizing a with
  | nil => exact along_nil step P a
  | cons e es ih => exact ⟨h e (by simp) a, ih (fun e' he' ↦ h e' (by simp [he'])) _⟩

theorem along_and {step : α → ε → α} {P Q : α → ε → Prop} {a : α} {es : List ε}
    (hp : Along step P a es) (hq : Along step Q a es) : Along step (fun a e ↦ P a e ∧ Q a e) a es := by
  induction es generalizing a with
  | nil => exact along_nil step _ a
  | cons e es ih => exact ⟨⟨hp.1, hq.1⟩, ih hp.2 hq.2⟩

theorem along_append {step : α → ε → α} {P : α → ε → Prop} {a : α} {es es' : List ε} :
    Along step P a (es ++ es') ↔ Along step P a es ∧ Along step P (es.foldl step a) es' := by
  induction es generalizing a with
  | nil => exact (and_iff_right trivial).symm
  | cons e es ih =>
    refine (and_congr_right' ih).trans ?_
    rw [← and_assoc]
    rfl

/-- What a run of the smaller machine meets is met by the run that it is part of. -/
theorem along_comp {f : α → ε → α} {g : β → ε → β} {P : β → ε → Prop} {m : α → β}
    (hm : ∀ a e, m (f a e) = g (m a) e) {a : α} {es : List ε} (h : Along g P (m a) es) :
    Along f (fun a e ↦ P (m a) e) a es := by
  induction es generalizing a with
  | nil => exact along_nil f _ a
  | cons e es ih =>
    refine ⟨h.1, ih ?_⟩
    rw [hm]
    exact h.2

/-- An invariant kept by the steps that meet `P` holds after every run of such steps. -/
theorem invariant_along {step : α → ε → α} {P : α → ε → Prop} {I : α → Prop}
    (hstep : ∀ a e, I a → P a e → I (step a e)) {a : α} (ha : I a) {es : List ε}
    (hp : Along step P a es) : I (es.foldl step a) := by
  induction es generalizing a with
  | nil => exact ha
  | cons e es ih => exact ih (hstep a e ha hp.1) hp.2

theorem along_of_invariant {step : α → ε → α} {P Q : α → ε → Prop} {I : α → Prop}
    (hstep : ∀ a e, I a → P a e → I (step a e)) (hq : ∀ a e, I a → P a e → Q a e) {a : α}
    (ha : I a) {es : List ε} (hp : Along step P a es) : Along step Q a es := by
  induction es generalizing a with
  | nil => exact along_nil step Q a
  | cons e es ih => exact ⟨hq a e ha hp.1, ih (hstep a e ha hp.1) hp.2⟩

theorem along_congr {step : α → ε → α} {P Q : α → ε → Prop} {I : α → Prop}
    (hstep : ∀ a e, I a → I (step a e)) (hpq : ∀ a e, I a → (P a e ↔ Q a e)) {a : α} (ha : I a)
    (es : List ε) : Along step P a es ↔ Along step Q a es := by
  induction es generalizing a with
  | nil => exact Iff.rfl
  | cons e es ih => exact and_congr (hpq a e ha) (ih (hstep a e ha))

theorem invariant {step : α → ε → α} {I : α → Prop} (hstep : ∀ a e, I a → I (step a e))
    {a : α} (ha : I a) (es : List ε) : I (es.foldl step a) := by
  induction es generalizing a with
  | nil => exact ha
  | cons e es ih => exact ih (hstep a e ha)

/-- What a step keeps exactly if it meets `P`, a run keeps exactly if all of
its steps do: once it is lost it is not made up for. -/
theorem foldl_iff_along {step : α → ε → α} {P H : α → ε → Prop} {I Q : α → Prop}
    (hinv : ∀ a e, I a → I (step a e))
    (hstep : ∀ a e, I a → H a e → (Q (step a e) ↔ Q a ∧ P a e)) {a : α} (ha : I a) {es : List ε}
    (hh : Along step H a es) : Q (es.foldl step a) ↔ Q a ∧ Along step P a es := by
  induction es generalizing a with
  | nil => exact (and_iff_left (along_nil step P a)).symm
  | cons e es ih =>
    rw [List.foldl_cons, ih (hinv a e ha) hh.2, hstep a e ha hh.1, and_assoc]
    rfl

/-- A goal is reached if every state that has not reached it has an event that
lowers its rank. -/
theorem exists_run_of_rank {step : α → ε → α} {I : ℕ → α → Prop} {goal : α → Prop}
    (hstep : ∀ n a, I n a → goal a ∨ ∃ e, ∃ m < n, I m (step a e)) {n : ℕ} {a : α} (h : I n a) :
    ∃ es : List ε, es.length ≤ n ∧ goal (es.foldl step a) := by
  induction n using Nat.strongRecOn generalizing a with
  | ind n ih =>
    rcases hstep n a h with hgoal | ⟨e, m, hm, hrest⟩
    · exact ⟨[], Nat.zero_le n, hgoal⟩
    · obtain ⟨es, hlength, hgoal⟩ := ih m hm hrest
      exact ⟨e :: es, by simp; omega, hgoal⟩

/-- If a quantity never falls and grows with every step that does not meet `P`,
then a run that leaves it as it was has no such step. -/
theorem along_of_unchanged {step : α → ε → α} {P : α → ε → Prop} {m : α → ℕ}
    (hle : ∀ a e, m a ≤ m (step a e)) (hlt : ∀ a e, ¬ P a e → m a < m (step a e)) {a : α}
    {es : List ε} (h : m (es.foldl step a) ≤ m a) : Along step P a es := by
  induction es generalizing a with
  | nil => exact along_nil step P a
  | cons e es ih =>
    have hrest : m (step a e) ≤ m (es.foldl step (step a e)) :=
      invariant (I := fun b ↦ m (step a e) ≤ m b) (fun b e' hb ↦ Nat.le_trans hb (hle b e'))
        (Nat.le_refl _) es
    have hrun : m (es.foldl step (step a e)) ≤ m a := h
    refine ⟨Classical.byContradiction fun hp ↦ ?_, ih (Nat.le_trans hrun (hle a e))⟩
    have hgrows := hlt a e hp
    omega

/-- Two machines driven by the same events stay related, as long as the steps
of the second meet `P`. -/
theorem simulation_along {f : α → ε → α} {g : β → ε → β} {R : α → β → Prop} {P : β → ε → Prop}
    (hstep : ∀ a b e, R a b → P b e → R (f a e) (g b e)) {a : α} {b : β} (h : R a b) {es : List ε}
    (hp : Along g P b es) : R (es.foldl f a) (es.foldl g b) := by
  induction es generalizing a b with
  | nil => exact h
  | cons e es ih => exact ih (hstep a b e h hp.1) hp.2

/-- Two machines driven by the same events are related at every point of the
run exactly if the steps of the first meet `P`. -/
theorem related_iff_along {f : α → ε → α} {g : β → ε → β} {R : α → β → Prop} {P : α → ε → Prop}
    {I : α → Prop} (hinv : ∀ a e, I a → I (f a e))
    (hstep : ∀ a b e, I a → R a b → (R (f a e) (g b e) ↔ P a e)) {a : α} {b : β} (ha : I a)
    (h : R a b) {es : List ε} :
    (∀ pre, pre <+: es → R (pre.foldl f a) (pre.foldl g b)) ↔ Along f P a es := by
  induction es generalizing a b with
  | nil =>
    refine iff_of_true (fun pre hpre ↦ ?_) (along_nil f P a)
    obtain rfl := List.prefix_nil.mp hpre
    exact h
  | cons e es ih =>
    constructor
    · intro hall
      have hfirst : R (f a e) (g b e) := hall [e] (List.cons_prefix_cons.mpr ⟨rfl, es.nil_prefix⟩)
      refine ⟨(hstep a b e ha h).mp hfirst, (ih (hinv a e ha) hfirst).mp fun pre hpre ↦ ?_⟩
      exact hall (e :: pre) (List.cons_prefix_cons.mpr ⟨rfl, hpre⟩)
    · rintro ⟨he, hes⟩ pre hpre
      cases pre with
      | nil => exact h
      | cons e' pre =>
        obtain ⟨rfl, hrest⟩ := List.cons_prefix_cons.mp hpre
        exact (ih (hinv a e' ha) ((hstep a b e' ha h).mpr he)).mpr hes pre hrest

end Croesus.Library.Execution
