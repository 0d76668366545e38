import Croesus.ResearchKit.Answers
import Mathlib.Data.List.Forall2

namespace Croesus.ResearchKit.ORKTaskViewController

open Library

/-- No step's identifier is a unique key of another's. -/
def Keyed (task : ORKOrderedTask) : Prop :=
  ∀ s ∈ task.steps, ∀ t ∈ task.steps, ∀ k, s.identifier ≠ uniqueManagedKey t.identifier k

def Settled (vc : ORKStepViewController) : Prop :=
  vc.step.isQuestionStep → vc.answer ≠ .unset ∧ vc.shouldContinue

/-- The questions below the top of the stack have been answered or skipped. -/
def Passed (tvc : ORKTaskViewController) : Prop :=
  ∀ j, ∀ s ∈ tvc.task.steps, s.isQuestionStep → j + 1 < tvc.managedStepIdentifiers.length →
    tvc.managedStepIdentifiers[j]? = some s.identifier →
    ∃ vc, vc.step = s ∧ Settled vc ∧
      tvc.managedResults (uniqueManagedKey s.identifier j) = some vc.result

variable {task : ORKOrderedTask} {tvc : ORKTaskViewController} {vc vc' : ORKStepViewController}
  {p r : ℕ} {s : ORKStep}

theorem length_le_managedIndex (stack : List String) (key : String) :
    stack.length ≤ managedIndex stack key + 1 := by
  unfold managedIndex
  split_ifs <;> omega

namespace Passed

theorem set (h : Passed tvc) (hkeyed : Keyed tvc.task) (hs : s ∈ tvc.task.steps)
    (result : ORKStepResult) : Passed (tvc.setManagedResult result s.identifier) := by
  intro j t ht hq hj hstack
  rw [setManagedResult_stack] at hj hstack
  obtain ⟨old, hold, hsettled, hfiled⟩ := h j t ht hq hj hstack
  refine ⟨old, hold, hsettled, ?_⟩
  have hbelow := length_le_managedIndex tvc.managedStepIdentifiers s.identifier
  rw [setManagedResult_eq]
  dsimp only
  rw [Function.update_of_ne, Function.update_of_ne, hfiled]
  · exact (hkeyed s hs t ht j).symm
  · intro he
    have := (IndexedKey.indexed_inj.mp he).2
    omega

theorem updateCurrentResult (h : Passed tvc) (hkeyed : Keyed tvc.task)
    (hcurrent : ∀ vc, tvc.currentStepViewController = some vc → vc.step ∈ tvc.task.steps) :
    Passed tvc.updateCurrentResult := by
  unfold ORKTaskViewController.updateCurrentResult
  split
  · exact h
  · next hc => exact h.set hkeyed (hcurrent _ hc) _

theorem removeLastIdentifier (h : Passed tvc) : Passed tvc.removeLastIdentifier := by
  intro j s hs hq hj hstack
  rw [removeLastIdentifier_stack] at hj hstack
  rw [List.length_dropLast] at hj
  refine h j s hs hq (by omega) ?_
  rw [List.getElem?_dropLast] at hstack
  split_ifs at hstack
  exact hstack

theorem viewControllerForStep (h : Passed tvc) (hkeyed : Keyed tvc.task)
    (hcurrent : ∀ vc, tvc.currentStepViewController = some vc → vc.step ∈ tvc.task.steps)
    (hs : s ∈ tvc.task.steps) : Passed (tvc.viewControllerForStep s).2 := by
  unfold ORKTaskViewController.viewControllerForStep
  split
  · exact (h.updateCurrentResult hkeyed hcurrent).set (by simpa using hkeyed) (by simpa using hs) _
  · exact h.set hkeyed hs _

/-- Only what is pushed on the stack puts another step below its top. -/
theorem showViewController (h : Passed tvc) (hkeyed : Keyed tvc.task)
    (hcurrent : ∀ vc, tvc.currentStepViewController = some vc → vc.step ∈ tvc.task.steps)
    (hs : vc.step ∈ tvc.task.steps)
    (htop : ∀ identifier, tvc.managedStepIdentifiers.getLast? = some identifier →
      identifier = vc.step.identifier ∨ ∃ vc', tvc.currentStepViewController = some vc' ∧
        identifier = vc'.step.identifier ∧ Settled vc') :
    Passed (tvc.showViewController vc) := by
  have hu := h.updateCurrentResult hkeyed hcurrent
  unfold ORKTaskViewController.showViewController
  refine Passed.updateCurrentResult ?_ (by simpa using hkeyed) ?_
  · intro j t ht hq hj hstack
    dsimp only at ht hj hstack ⊢
    rw [updateCurrentResult_task] at ht
    rw [updateCurrentResult_stack] at hj hstack
    split_ifs at hj hstack with hlast
    · exact hu j t (by simpa using ht) hq (by simpa using hj) (by simpa using hstack)
    · rw [List.length_append, List.length_singleton] at hj
      by_cases hbelow : j + 1 < tvc.managedStepIdentifiers.length
      · rw [List.getElem?_append_left (by omega)] at hstack
        exact hu j t (by simpa using ht) hq (by simpa using hbelow) (by simpa using hstack)
      · -- the step that was on top until now
        have hj' : j = tvc.managedStepIdentifiers.length - 1 := by omega
        have hget : tvc.managedStepIdentifiers.getLast? = some t.identifier := by
          rw [List.getLast?_eq_getElem?, ← hj', ← hstack, List.getElem?_append_left (by omega)]
        obtain he | ⟨vc', hc, he, hsettled⟩ := htop _ hget
        · exact absurd (hget.trans (congrArg some he)) hlast
        · obtain rfl := eq_of_identifier ht (hcurrent vc' hc) he
          obtain ⟨stack, hconcat⟩ := List.getLast?_eq_some_iff.mp hget
          have hlength : j = stack.length := by simp [hj', hconcat]
          refine ⟨vc', rfl, hsettled, ?_⟩
          rw [hlength]
          exact updateCurrentResult_last vc' hc hconcat
  · rintro _ ⟨⟩
    simpa using hs

theorem saveAnswer (h : Passed tvc) (hkeyed : Keyed tvc.task) (hs : vc.step ∈ tvc.task.steps)
    (answer : Answer) : Passed (tvc.saveAnswer vc answer).2 := by
  have hcurrent : Passed
      { tvc with currentStepViewController := some { vc with answer := answer } } := h
  exact hcurrent.set hkeyed hs _

end Passed

theorem OnPage.mem (h : OnPage tvc vc p) : vc.step ∈ tvc.task.steps := List.mem_of_getElem? h.step

theorem OnRow.mem (h : OnRow tvc vc p r) : vc.step ∈ tvc.task.steps := List.mem_of_getElem? h.step

theorem mem_of_current (hcurrent : tvc.currentStepViewController = some vc)
    (hs : vc.step ∈ tvc.task.steps) :
    ∀ vc', tvc.currentStepViewController = some vc' → vc'.step ∈ tvc.task.steps := by
  intro vc' hc
  rwa [← Option.some.inj (hcurrent.symm.trans hc)]

namespace OnPage

theorem passed_flipToNextPage (h : OnPage tvc vc p) (hkeyed : Keyed tvc.task) (hpassed : Passed tvc)
    (hsettled : Settled vc) : Passed (tvc.flipToNextPage vc) := by
  have hcurrent := mem_of_current h.current h.mem
  have hu := hpassed.updateCurrentResult hkeyed hcurrent
  cases hs : tvc.task.steps[p + 1]? with
  | none =>
    rw [h.flipToNextPage_last hs]
    exact hu
  | some s =>
    have hmem := List.mem_of_getElem? hs
    rw [h.flipToNextPage_eq hs]
    refine (hu.viewControllerForStep (s := s) ?_ ?_ ?_).showViewController ?_ ?_ ?_ ?_
    · simpa using hkeyed
    · simpa using hcurrent
    · simpa using hmem
    · simpa using hkeyed
    · simpa using hcurrent
    · simpa using hmem
    · intro identifier hlast
      rw [viewControllerForStep_stack, updateCurrentResult_stack, h.last] at hlast
      exact .inr ⟨vc, by simpa using h.current, (Option.some.inj hlast).symm, hsettled⟩

theorem passed_flipToPreviousPage (h : OnPage tvc vc p) (hkeyed : Keyed tvc.task)
    (hpassed : Passed tvc) : Passed (tvc.flipToPreviousPage vc) := by
  have hcurrent := mem_of_current h.current h.mem
  have hu := hpassed.updateCurrentResult hkeyed hcurrent
  cases p with
  | zero =>
    rw [h.flipToPreviousPage_first]
    exact hu
  | succ p =>
    obtain ⟨s, hs⟩ := h.previous
    have hmem := List.mem_of_getElem? hs
    rw [h.flipToPreviousPage_eq hs]
    refine (hu.viewControllerForStep (s := s) ?_ ?_ ?_).removeLastIdentifier.showViewController
      ?_ ?_ ?_ ?_
    · simpa using hkeyed
    · simpa using hcurrent
    · simpa using hmem
    · simpa using hkeyed
    · simpa using hcurrent
    · simpa using hmem
    · intro identifier hlast
      rw [removeLastIdentifier_stack, viewControllerForStep_stack, updateCurrentResult_stack, h.stack,
        dropLast_identifiers h.step, getLast?_identifiers hs] at hlast
      exact .inl (by simpa using (Option.some.inj hlast).symm)

theorem passed_willReviewStep (h : OnPage tvc vc p) (hkeyed : Keyed tvc.task)
    (hpassed : Passed tvc) (row : ℕ) : Passed (tvc.willReviewStep vc row) := by
  have hcurrent := mem_of_current h.current h.mem
  cases hrow : vc.rows[row]? with
  | none => simpa [ORKTaskViewController.willReviewStep, hrow] using hpassed
  | some s =>
    obtain ⟨hreview, -, q, -, hs⟩ := h.mem_rows (List.mem_of_getElem? hrow)
    have hmem := List.mem_of_getElem? hs
    rw [willReviewStep_eq hrow]
    refine (hpassed.viewControllerForStep hkeyed hcurrent hmem).showViewController ?_ ?_ ?_ ?_
    · simpa using hkeyed
    · simpa using hcurrent
    · simpa using hmem
    · intro identifier hlast
      rw [viewControllerForStep_stack, h.last] at hlast
      refine .inr ⟨vc, by simpa using h.current, (Option.some.inj hlast).symm, fun hq ↦ ?_⟩
      simp [ORKStep.isQuestionStep, hreview] at hq

end OnPage

theorem OnRow.passed_flipToPreviousPage (h : OnRow tvc vc p r) (hkeyed : Keyed tvc.task)
    (hpassed : Passed tvc) : Passed (tvc.flipToPreviousPage vc) := by
  have hcurrent := mem_of_current h.current h.mem
  obtain ⟨reviewStep, hs, hparent⟩ := h.parent
  have hmem := List.mem_of_getElem? hs
  rw [OnRow.flipToPreviousPage_eq hparent]
  refine (hpassed.viewControllerForStep hkeyed hcurrent hmem).removeLastIdentifier.showViewController
    ?_ ?_ ?_ ?_
  · simpa using hkeyed
  · simpa using hcurrent
  · simpa using hmem
  · intro identifier hlast
    rw [removeLastIdentifier_stack, viewControllerForStep_stack, h.stack, List.dropLast_concat,
      getLast?_identifiers hs] at hlast
    exact .inl (by simpa using (Option.some.inj hlast).symm)

/-- Nothing is left unsettled behind the current step, nor is the last step
when the task is completed. -/
structure Passing (tvc : ORKTaskViewController) : Prop where
  located : Located tvc
  passed : Passed tvc
  done : tvc.finished = some .completed →
    ∀ vc, tvc.currentStepViewController = some vc → Settled vc

theorem Passing.of_open (hlocated : Located tvc) (hpassed : Passed tvc)
    (h : tvc.finished ≠ some .completed) : Passing tvc :=
  ⟨hlocated, hpassed, fun hdone ↦ absurd hdone h⟩

theorem ne_unset_of_enabled (h : vc.continueButtonEnabled) (hq : vc.step.isQuestionStep) :
    vc.answer ≠ .unset := by
  intro hunset
  simp [ORKStepViewController.continueButtonEnabled, hq, hunset, Answer.isEmpty] at h

namespace OnPage

/-- A question is settled if it lets go of its user. -/
theorem passing_goForward (h : OnPage tvc vc p) (hkeyed : Keyed tvc.task) (hpassed : Passed tvc)
    (hopen : tvc.finished = none) (hne : vc.step.isQuestionStep → vc.answer ≠ .unset) :
    Passing (tvc.goForward vc) := by
  have hlocated := h.goForward hopen
  have hset := h.setManagedResult vc.result vc.step.identifier
  rw [h.goForward_eq] at hlocated ⊢
  split_ifs at hlocated ⊢ with hcontinue
  · have hsettled : Settled vc := fun hq ↦ ⟨hne hq, hcontinue⟩
    have hnext := hset.passed_flipToNextPage hkeyed (hpassed.set hkeyed h.mem vc.result) hsettled
    refine ⟨hlocated, hnext, fun hdone vc' hc ↦ ?_⟩
    cases hs : tvc.task.steps[p + 1]? with
    | none =>
      rw [hset.flipToNextPage_last hs] at hc
      have hc' : tvc.currentStepViewController = some vc' := by
        simpa [finishWithReason] using hc
      rwa [← Option.some.inj (h.current.symm.trans hc')]
    | some s =>
      obtain ⟨-, -, hfinished⟩ := hset.flipToNextPage hs
      exact absurd (hfinished.symm.trans hdone) (by simp [hopen])
  · exact .of_open hlocated hpassed (by simp [hopen])

theorem passing_handle (h : OnPage tvc vc p) (hkeyed : Keyed tvc.task) (hpassed : Passed tvc)
    (hopen : tvc.finished = none) (event : Event) : Passing (tvc.handle event) := by
  have hlocated := h.handle hopen event
  have hlive : tvc.finished ≠ some .completed := by simp [hopen]
  have hset := h.setManagedResult vc.result vc.step.identifier
  simp only [ORKTaskViewController.handle, hopen, h.current] at hlocated ⊢
  cases event with
  | edit text =>
    dsimp only at hlocated ⊢
    unfold ORKTaskViewController.edit at hlocated ⊢
    split at hlocated
    · split_ifs at hlocated ⊢
      · exact .of_open hlocated (hpassed.saveAnswer hkeyed h.mem _) hlive
      · exact .of_open hlocated hpassed hlive
    · exact .of_open hlocated hpassed hlive
  | next =>
    dsimp only at hlocated ⊢
    split_ifs at hlocated ⊢ with henabled
    · exact h.passing_goForward hkeyed hpassed hopen (ne_unset_of_enabled henabled)
    · exact .of_open hlocated hpassed hlive
  | skip =>
    dsimp only at hlocated ⊢
    split_ifs at hlocated ⊢
    · exact (h.saveAnswer .null).passing_goForward hkeyed (hpassed.saveAnswer hkeyed h.mem .null)
        hopen fun _ ↦ by simp [ORKTaskViewController.saveAnswer]
    · exact .of_open hlocated hpassed hlive
  | back =>
    dsimp only at hlocated ⊢
    refine .of_open hlocated ?_ (by simp [hopen])
    rw [h.goBackward_eq]
    exact hset.passed_flipToPreviousPage hkeyed (hpassed.set hkeyed h.mem vc.result)
  | selectRow row =>
    exact .of_open hlocated (h.passed_willReviewStep hkeyed hpassed row) (by simp [hopen])
  | abandon reason =>
    dsimp only at hlocated ⊢
    split_ifs at hlocated ⊢ with hr
    · exact .of_open hlocated hpassed hlive
    · exact .of_open hlocated hpassed fun hdone ↦ hr (Option.some.inj hdone)

end OnPage

namespace OnRow

theorem passed_leave (h : OnRow tvc vc p r) (hkeyed : Keyed tvc.task) (hpassed : Passed tvc) :
    Passed ((tvc.setManagedResult vc.result vc.step.identifier).flipToPreviousPage vc) :=
  (h.setManagedResult _ _).passed_flipToPreviousPage hkeyed (hpassed.set hkeyed h.mem vc.result)

theorem passed_goForward (h : OnRow tvc vc p r) (hkeyed : Keyed tvc.task) (hpassed : Passed tvc) :
    Passed (tvc.goForward vc) := by
  rw [h.goForward_eq]
  split_ifs
  · exact h.passed_leave hkeyed hpassed
  · exact hpassed

theorem passed_goBackward (h : OnRow tvc vc p r) (hkeyed : Keyed tvc.task) (hpassed : Passed tvc) :
    Passed (tvc.goBackward vc) := by
  unfold ORKTaskViewController.goBackward
  split_ifs
  · exact (h.saveAnswer _).passed_leave hkeyed (hpassed.saveAnswer hkeyed h.mem _)
  · exact h.passed_leave hkeyed hpassed

theorem passed_handle (h : OnRow tvc vc p r) (hkeyed : Keyed tvc.task) (hpassed : Passed tvc)
    (hopen : tvc.finished = none) (event : Event) : Passed (tvc.handle event) := by
  simp only [ORKTaskViewController.handle, hopen, h.current]
  cases event with
  | edit text =>
    dsimp only
    unfold ORKTaskViewController.edit
    split
    · split_ifs
      · exact hpassed.saveAnswer hkeyed h.mem _
      · exact hpassed
    · exact hpassed
  | next =>
    dsimp only
    split_ifs
    · exact h.passed_goForward hkeyed hpassed
    · exact hpassed
  | skip =>
    dsimp only
    split_ifs
    · exact (h.saveAnswer .null).passed_goForward hkeyed (hpassed.saveAnswer hkeyed h.mem .null)
    · exact hpassed
  | back => exact h.passed_goBackward hkeyed hpassed
  | selectRow row => simpa [ORKTaskViewController.willReviewStep, h.rows] using hpassed
  | abandon reason =>
    dsimp only
    split_ifs <;> exact hpassed

theorem handle_not_completed (h : OnRow tvc vc p r) (hopen : tvc.finished = none) (event : Event) :
    (tvc.handle event).finished ≠ some .completed := by
  have hforward (tvc' : ORKTaskViewController) (vc' : ORKStepViewController)
      (h' : OnRow tvc' vc' p r) (hopen' : tvc'.finished = none) :
      (tvc'.goForward vc').finished ≠ some .completed := by
    rw [h'.goForward_eq]
    split_ifs <;> simp [hopen']
  simp only [ORKTaskViewController.handle, hopen, h.current]
  cases event with
  | edit text =>
    dsimp only
    unfold ORKTaskViewController.edit
    split
    · split_ifs <;> simp [hopen]
    · simp [hopen]
  | next =>
    dsimp only
    split_ifs
    · exact hforward tvc vc h hopen
    · simp [hopen]
  | skip =>
    dsimp only
    split_ifs
    · exact hforward _ _ (h.saveAnswer .null) hopen
    · simp [hopen]
  | back => simp [hopen]
  | selectRow row => simp [hopen]
  | abandon reason =>
    dsimp only
    split_ifs with hr
    · simp [hopen]
    · exact fun hdone ↦ hr (Option.some.inj hdone)

end OnRow

theorem Passing.handle (h : Passing tvc) (hkeyed : Keyed tvc.task) (event : Event) :
    Passing (tvc.handle event) := by
  cases hopen : tvc.finished with
  | some reason => rwa [handle_finished hopen]
  | none =>
    cases h.located with
    | page vc p hpage => exact hpage.passing_handle hkeyed h.passed hopen event
    | row vc p r hrow =>
      exact .of_open (h.located.handle event) (hrow.passed_handle hkeyed h.passed hopen event)
        (hrow.handle_not_completed hopen event)

end Croesus.ResearchKit.ORKTaskViewController
