import Croesus.ResearchKit.Navigation

namespace Croesus.ResearchKit.ORKTaskViewController

open Library

/-- Closed under what a user does to an answer who types only such texts, and
under handing an answer over to a step whose identifier is the unique key of
another. -/
structure Admits (task : ORKOrderedTask) (typed : String → Prop) (ok : ORKStep → Answer → Prop) :
    Prop where
  empty : ∀ s a, a.isEmpty → ok s a
  edit : ∀ s ∈ task.steps, ∀ text, typed text → ok s (.ofText text)
  shared : ∀ s ∈ task.steps, ∀ t ∈ task.steps, ∀ k a,
    s.identifier = uniqueManagedKey t.identifier k → ok t a → ok s a

structure Fits (task : ORKOrderedTask) (ok : ORKStep → Answer → Prop)
    (vc : ORKStepViewController) : Prop where
  step : vc.step ∈ task.steps
  answer : ok vc.step vc.answer
  original : ok vc.step vc.originalAnswer
  rows : ∀ s ∈ vc.rows, s ∈ task.steps
  parent : ∀ s ∈ vc.parentReviewStep, s ∈ task.steps

/-- The result is one that a controller of some step can have, filed under the
identifier of that step or under one of its unique keys. -/
def Stems (task : ORKOrderedTask) (ok : ORKStep → Answer → Prop) (key : String)
    (result : ORKStepResult) : Prop :=
  ∃ vc, Fits task ok vc ∧ result = vc.result ∧
    (key = vc.step.identifier ∨ ∃ k, key = uniqueManagedKey vc.step.identifier k)

structure Answers (task : ORKOrderedTask) (ok : ORKStep → Answer → Prop)
    (tvc : ORKTaskViewController) : Prop where
  onTask : tvc.task = task
  results : ∀ key result, tvc.managedResults key = some result → Stems task ok key result
  current : ∀ vc, tvc.currentStepViewController = some vc → Fits task ok vc

variable {task : ORKOrderedTask} {typed : String → Prop} {ok : ORKStep → Answer → Prop}
  {tvc : ORKTaskViewController} {vc : ORKStepViewController} {s : ORKStep}

theorem eq_of_identifier {t : ORKStep} (hs : s ∈ task.steps) (ht : t ∈ task.steps)
    (h : s.identifier = t.identifier) : s = t := by
  obtain ⟨p, hp⟩ := List.getElem?_of_mem hs
  obtain ⟨q, hq⟩ := List.getElem?_of_mem ht
  obtain rfl := ORKOrderedTask.index_unique task hp hq h
  exact Option.some.inj (hp.symm.trans hq)

theorem mem_of_stepAfterStep {current : Option ORKStep} (h : task.stepAfterStep current = some s) :
    s ∈ task.steps := by
  unfold ORKOrderedTask.stepAfterStep at h
  split at h
  · exact List.mem_of_getElem? h
  · split at h
    · cases h
    · split_ifs at h
      exact List.mem_of_getElem? h

theorem mem_of_stepBeforeStep {current : Option ORKStep}
    (h : task.stepBeforeStep current = some s) : s ∈ task.steps := by
  unfold ORKOrderedTask.stepBeforeStep at h
  split at h
  · cases h
  · split at h
    · cases h
    · split_ifs at h
      exact List.mem_of_getElem? h

theorem mem_of_collect {reviewStep : ORKStep} {stack : List String}
    (h : s ∈ stepsForReviewStep.collect tvc reviewStep stack) : s ∈ tvc.task.steps := by
  induction stack with
  | nil => cases h
  | cons identifier stack ih =>
    rw [stepsForReviewStep.collect] at h
    split at h
    · cases h
    · next hfind =>
      split_ifs at h
      · cases h
      · rcases List.mem_cons.mp h with rfl | h
        · exact List.mem_of_find?_eq_some hfind
        · exact ih h

namespace Fits

theorem withAnswer (h : Fits task ok vc) {answer : Answer} (ha : ok vc.step answer) :
    Fits task ok { vc with answer := answer } :=
  { h with answer := ha }

theorem withParent (h : Fits task ok vc) (hs : s ∈ task.steps) :
    Fits task ok { vc with parentReviewStep := some s } :=
  { h with
    parent := by
      intro t ht
      obtain rfl : s = t := by simpa using ht
      exact hs }

/-- What a step's controller restores from a result of its own, or from one
that stems from a step it shares a key with. -/
theorem initWithStep (hadmits : Admits task typed ok) (hs : s ∈ task.steps) {result : ORKStepResult}
    (hresult : result.results = [] ∨ Stems task ok s.identifier result) :
    Fits task ok (.initWithStep s result) := by
  have hunset (a : Answer) (ha : a = .unset) : ok s a := hadmits.empty s a (by rw [ha]; rfl)
  have hok : ok s (if s.isQuestionStep then .restore result.results else .unset) := by
    split_ifs
    · rcases hresult with hnil | ⟨vc, hvc, rfl, hkey⟩
      · exact hunset _ (by rw [hnil]; rfl)
      · by_cases hq : vc.step.isQuestionStep
        · simp only [ORKStepViewController.result, hq, if_true, Answer.restore_results]
          rcases hkey with hkey | ⟨k, hkey⟩
          · obtain rfl := eq_of_identifier hs hvc.step hkey
            exact hvc.answer
          · exact hadmits.shared s hs vc.step hvc.step k vc.answer hkey hvc.answer
        · exact hunset _ (by simp [ORKStepViewController.result, hq, Answer.restore])
    · exact hunset _ rfl
  exact ⟨hs, hok, hok, by simp [ORKStepViewController.initWithStep],
    by simp [ORKStepViewController.initWithStep]⟩

theorem initWithReviewStep (hadmits : Admits task typed ok) (hs : s ∈ task.steps)
    {steps : List ORKStep} (hsteps : ∀ t ∈ steps, t ∈ task.steps) :
    Fits task ok (.initWithReviewStep s steps) where
  step := hs
  answer := hadmits.empty _ _ rfl
  original := hadmits.empty _ _ rfl
  rows t ht := hsteps t (List.mem_of_mem_filter ht)
  parent := by simp [ORKStepViewController.initWithReviewStep]

end Fits

namespace Answers

theorem set (h : Answers task ok tvc) (hvc : Fits task ok vc) :
    Answers task ok (tvc.setManagedResult vc.result vc.step.identifier) where
  onTask := h.onTask
  results key result hresult := by
    simp only [setManagedResult_eq, Function.update_apply] at hresult
    split_ifs at hresult with hunique hplain
    · exact ⟨vc, hvc, (Option.some.inj hresult).symm, .inr ⟨_, hunique⟩⟩
    · exact ⟨vc, hvc, (Option.some.inj hresult).symm, .inl hplain⟩
    · exact h.results key result hresult
  current := h.current

theorem updateCurrentResult (h : Answers task ok tvc) : Answers task ok tvc.updateCurrentResult := by
  unfold ORKTaskViewController.updateCurrentResult
  split
  · exact h
  · next hc => exact h.set (h.current _ hc)

theorem removeLastIdentifier (h : Answers task ok tvc) : Answers task ok tvc.removeLastIdentifier :=
  ⟨h.onTask, h.results, h.current⟩

theorem saveAnswer (h : Answers task ok tvc) (hvc : Fits task ok vc) {answer : Answer}
    (ha : ok vc.step answer) : Answers task ok (tvc.saveAnswer vc answer).2 := by
  have hanswer := hvc.withAnswer ha
  have hcurrent : Answers task ok
      { tvc with currentStepViewController := some { vc with answer := answer } } := by
    refine ⟨h.onTask, h.results, ?_⟩
    rintro _ ⟨⟩
    exact hanswer
  exact hcurrent.set hanswer

theorem viewControllerForStep (h : Answers task ok tvc) (hadmits : Admits task typed ok)
    (hs : s ∈ task.steps) : Fits task ok (tvc.viewControllerForStep s).1 ∧
      Answers task ok (tvc.viewControllerForStep s).2 := by
  unfold ORKTaskViewController.viewControllerForStep
  split
  · have hvc : Fits task ok (.initWithReviewStep s (tvc.stepsForReviewStep s)) :=
      .initWithReviewStep hadmits hs fun t ht ↦ h.onTask ▸ mem_of_collect ht
    exact ⟨hvc, h.updateCurrentResult.set hvc⟩
  · have hvc : Fits task ok
        (.initWithStep s ((tvc.managedResults s.identifier).getD ⟨s.identifier, []⟩)) := by
      refine .initWithStep hadmits hs ?_
      cases hr : tvc.managedResults s.identifier with
      | none => exact .inl rfl
      | some result => exact .inr (h.results _ _ hr)
    exact ⟨hvc, h.set hvc⟩

theorem showViewController (h : Answers task ok tvc) (hvc : Fits task ok vc) :
    Answers task ok (tvc.showViewController vc) := by
  unfold ORKTaskViewController.showViewController
  refine updateCurrentResult ⟨h.updateCurrentResult.onTask, h.updateCurrentResult.results, ?_⟩
  rintro _ ⟨⟩
  exact hvc

theorem flipToNextPage (h : Answers task ok tvc) (hadmits : Admits task typed ok)
    (hvc : Fits task ok vc) : Answers task ok (tvc.flipToNextPage vc) := by
  unfold ORKTaskViewController.flipToNextPage
  cases hparent : vc.parentReviewStep with
  | some step =>
    obtain ⟨hstep, hview⟩ := h.viewControllerForStep hadmits (hvc.parent step hparent)
    dsimp only
    split_ifs
    · exact hview.removeLastIdentifier.showViewController hstep
    · exact hview.showViewController hstep
  | none =>
    have hu := h.updateCurrentResult
    dsimp only
    split
    · exact ⟨hu.onTask, hu.results, hu.current⟩
    · next hnext =>
      obtain ⟨hstep, hview⟩ := hu.viewControllerForStep hadmits
        (h.onTask ▸ mem_of_stepAfterStep hnext)
      split_ifs
      · exact hview.removeLastIdentifier.showViewController hstep
      · exact hview.showViewController hstep

theorem flipToPreviousPage (h : Answers task ok tvc) (hadmits : Admits task typed ok)
    (hvc : Fits task ok vc) : Answers task ok (tvc.flipToPreviousPage vc) := by
  unfold ORKTaskViewController.flipToPreviousPage
  cases hparent : vc.parentReviewStep with
  | some step =>
    obtain ⟨hstep, hview⟩ := h.viewControllerForStep hadmits (hvc.parent step hparent)
    exact hview.removeLastIdentifier.showViewController hstep
  | none =>
    have hu := h.updateCurrentResult
    dsimp only
    split
    · exact hu
    · next hprevious =>
      obtain ⟨hstep, hview⟩ := hu.viewControllerForStep hadmits
        (h.onTask ▸ mem_of_stepBeforeStep hprevious)
      exact hview.removeLastIdentifier.showViewController hstep

theorem goForward (h : Answers task ok tvc) (hadmits : Admits task typed ok) (hvc : Fits task ok vc) :
    Answers task ok (tvc.goForward vc) := by
  unfold ORKTaskViewController.goForward
  split_ifs
  · exact (h.set hvc).flipToPreviousPage hadmits hvc
  · exact (h.set hvc).flipToNextPage hadmits hvc
  · exact h

theorem goBackward (h : Answers task ok tvc) (hadmits : Admits task typed ok) (hvc : Fits task ok vc) :
    Answers task ok (tvc.goBackward vc) := by
  unfold ORKTaskViewController.goBackward
  split_ifs
  · have hback := hvc.withAnswer hvc.original
    exact ((h.saveAnswer hvc hvc.original).set hback).flipToPreviousPage hadmits hback
  · exact (h.set hvc).flipToPreviousPage hadmits hvc

theorem edit (h : Answers task ok tvc) (hadmits : Admits task typed ok) (hvc : Fits task ok vc)
    {text : String} (htyped : typed text) : Answers task ok (tvc.edit vc text) := by
  unfold ORKTaskViewController.edit
  split
  · split_ifs
    · exact h.saveAnswer hvc (hadmits.edit _ hvc.step text htyped)
    · exact h
  · exact h

theorem willReviewStep (h : Answers task ok tvc) (hadmits : Admits task typed ok) (hvc : Fits task ok vc)
    (row : ℕ) : Answers task ok (tvc.willReviewStep vc row) := by
  unfold ORKTaskViewController.willReviewStep
  split
  · exact h
  · next hrow =>
    obtain ⟨hstep, hview⟩ := h.viewControllerForStep hadmits
      (hvc.rows _ (List.mem_of_getElem? hrow))
    exact hview.showViewController (hstep.withParent hvc.step)

theorem handle (h : Answers task ok tvc) (hadmits : Admits task typed ok) {event : Event}
    (htyped : ∀ text, event = .edit text → typed text) : Answers task ok (tvc.handle event) := by
  unfold ORKTaskViewController.handle
  split
  · next vc hopen hcurrent =>
    have hvc := h.current vc hcurrent
    have hnull : ok vc.step .null := hadmits.empty _ _ rfl
    cases event with
    | edit text => exact h.edit hadmits hvc (htyped text rfl)
    | next =>
      dsimp only
      split_ifs
      · exact h.goForward hadmits hvc
      · exact h
    | skip =>
      dsimp only
      split_ifs
      · exact (h.saveAnswer hvc hnull).goForward hadmits (hvc.withAnswer hnull)
      · exact h
    | back => exact h.goBackward hadmits hvc
    | selectRow row => exact h.willReviewStep hadmits hvc row
    | abandon reason =>
      dsimp only
      split_ifs
      · exact h
      · exact ⟨h.onTask, h.results, h.current⟩
  · exact h

end Answers

theorem present_answers (hadmits : Admits task typed ok) : Answers task ok (present task) := by
  have hempty : Answers task ok { task := task } := by
    refine ⟨rfl, ?_, ?_⟩ <;> simp
  unfold present
  dsimp only
  split
  · exact hempty
  · next hfirst =>
    obtain ⟨hstep, hview⟩ := hempty.viewControllerForStep hadmits (mem_of_stepAfterStep hfirst)
    exact hview.showViewController hstep

theorem answers_run (hadmits : Admits task typed ok) (events : List Event)
    (htyped : ∀ text, .edit text ∈ events → typed text) : Answers task ok (run task events) := by
  refine Execution.invariant_along (I := Answers task ok)
    (P := fun _ event ↦ ∀ text, event = .edit text → typed text) ?_ (present_answers hadmits)
    (Execution.along_of_forall ?_ _)
  · intro _ _ h hevent
    exact h.handle hadmits hevent
  · rintro _ hmem _ text rfl
    exact htyped text hmem

end Croesus.ResearchKit.ORKTaskViewController
