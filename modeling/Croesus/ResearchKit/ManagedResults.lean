import Croesus.Library.Execution
import Croesus.Library.Lists
import Croesus.ResearchKit.TaskViewController

namespace Croesus.ResearchKit.ORKTaskViewController

open Library

variable (tvc : ORKTaskViewController) (vc : ORKStepViewController) (r : ORKStepResult)

/-- The number that goes into the unique key of a result filed while the
identifiers are on the stack. -/
def managedIndex (stack : List String) (key : String) : ℕ :=
  if stack.getLast? = some key then stack.length - 1 else stack.length

theorem managedIndex_last (stack : List String) (key : String) :
    managedIndex (stack ++ [key]) key = stack.length := by
  simp [managedIndex]

theorem managedIndex_other {stack : List String} {key : String} (h : stack.getLast? ≠ some key) :
    managedIndex stack key = stack.length := if_neg h

theorem setManagedResult_eq (key : String) :
    tvc.setManagedResult r key = { tvc with
      managedResults := Function.update (Function.update tvc.managedResults key (some r))
        (uniqueManagedKey key (managedIndex tvc.managedStepIdentifiers key)) (some r) } := rfl

variable {tvc vc} in
theorem updateCurrentResult_eq (hc : tvc.currentStepViewController = some vc) :
    tvc.updateCurrentResult = tvc.setManagedResult vc.result vc.step.identifier := by
  simp [updateCurrentResult, hc]

@[simp] theorem setManagedResult_task (key : String) :
    (tvc.setManagedResult r key).task = tvc.task := rfl

@[simp] theorem setManagedResult_stack (key : String) :
    (tvc.setManagedResult r key).managedStepIdentifiers = tvc.managedStepIdentifiers := rfl

@[simp] theorem setManagedResult_current (key : String) :
    (tvc.setManagedResult r key).currentStepViewController = tvc.currentStepViewController := rfl

@[simp] theorem setManagedResult_finished (key : String) :
    (tvc.setManagedResult r key).finished = tvc.finished := rfl

@[simp] theorem updateCurrentResult_task : tvc.updateCurrentResult.task = tvc.task := by
  unfold updateCurrentResult; split <;> rfl

@[simp] theorem updateCurrentResult_stack :
    tvc.updateCurrentResult.managedStepIdentifiers = tvc.managedStepIdentifiers := by
  unfold updateCurrentResult; split <;> rfl

@[simp] theorem updateCurrentResult_current :
    tvc.updateCurrentResult.currentStepViewController = tvc.currentStepViewController := by
  unfold updateCurrentResult; split <;> rfl

@[simp] theorem updateCurrentResult_finished : tvc.updateCurrentResult.finished = tvc.finished := by
  unfold updateCurrentResult; split <;> rfl

@[simp] theorem removeLastIdentifier_finished : tvc.removeLastIdentifier.finished = tvc.finished :=
  rfl

@[simp] theorem viewControllerForStep_finished (step : ORKStep) :
    (tvc.viewControllerForStep step).2.finished = tvc.finished := by
  unfold viewControllerForStep; split <;> simp

@[simp] theorem showViewController_finished :
    (tvc.showViewController vc).finished = tvc.finished := by simp [showViewController]

/-- Every step on the stack has its result on file. -/
def Filed (tvc : ORKTaskViewController) : Prop :=
  ∀ i identifier, tvc.managedStepIdentifiers[i]? = some identifier →
    (tvc.managedResults (uniqueManagedKey identifier i)).isSome

variable {tvc}

theorem set_keeps {key : String} (k : String) (h : (tvc.managedResults k).isSome) :
    ((tvc.setManagedResult r key).managedResults k).isSome := by
  simp only [setManagedResult_eq, Function.update_apply]
  split_ifs <;> simp [h]

theorem Filed.set (h : Filed tvc) (key : String) : Filed (tvc.setManagedResult r key) :=
  fun i identifier hi ↦ set_keeps r _ (h i identifier hi)

theorem Filed.updateCurrentResult (h : Filed tvc) : Filed tvc.updateCurrentResult := by
  unfold ORKTaskViewController.updateCurrentResult
  split
  · exact h
  · exact h.set _ _

theorem Filed.removeLastIdentifier (h : Filed tvc) : Filed tvc.removeLastIdentifier := by
  intro i identifier hi
  refine h i identifier ?_
  have hlt := (List.getElem?_eq_some_iff.mp hi).1
  simp only [ORKTaskViewController.removeLastIdentifier, List.getElem?_dropLast] at hi
  split_ifs at hi with hb
  exact hi

theorem Filed.viewControllerForStep (h : Filed tvc) (step : ORKStep) :
    Filed (tvc.viewControllerForStep step).2 := by
  unfold ORKTaskViewController.viewControllerForStep
  split
  · exact h.updateCurrentResult.set _ _
  · exact h.set _ _

theorem updateCurrentResult_last {stack : List String}
    (hc : tvc.currentStepViewController = some vc)
    (hs : tvc.managedStepIdentifiers = stack ++ [vc.step.identifier]) :
    tvc.updateCurrentResult.managedResults
      (uniqueManagedKey vc.step.identifier stack.length) = some vc.result := by
  simp [ORKTaskViewController.updateCurrentResult, hc, setManagedResult_eq, managedIndex, hs]

theorem Filed.showViewController (h : Filed tvc) : Filed (tvc.showViewController vc) := by
  unfold ORKTaskViewController.showViewController
  dsimp only
  split_ifs with hlast
  · exact Filed.updateCurrentResult h.updateCurrentResult
  · intro i identifier hi
    simp only [updateCurrentResult_stack, List.getElem?_append] at hi
    split_ifs at hi with hlt
    · simp only [ORKTaskViewController.updateCurrentResult]
      exact set_keeps _ _ (h.updateCurrentResult i identifier (by simpa using hi))
    · obtain ⟨hz, rfl⟩ := List.getElem?_eq_some_iff.mp hi
      have hi' : i = tvc.managedStepIdentifiers.length := by simp at hz; omega
      subst hi'
      let shown := { tvc.updateCurrentResult with
        managedStepIdentifiers := tvc.managedStepIdentifiers ++ [vc.step.identifier]
        currentStepViewController := some vc }
      have hl : shown.updateCurrentResult.managedResults (uniqueManagedKey vc.step.identifier
          tvc.managedStepIdentifiers.length) = some vc.result := updateCurrentResult_last vc rfl rfl
      simp only [Nat.sub_self, List.getElem_cons_zero, updateCurrentResult_stack]
      rw [hl]
      rfl

theorem Filed.flipToPreviousPage (h : Filed tvc) : Filed (tvc.flipToPreviousPage vc) := by
  unfold ORKTaskViewController.flipToPreviousPage
  cases vc.parentReviewStep with
  | some step => exact ((h.viewControllerForStep step).removeLastIdentifier).showViewController _
  | none =>
    dsimp only
    split
    · exact h.updateCurrentResult
    · exact ((h.updateCurrentResult.viewControllerForStep _).removeLastIdentifier).showViewController _

theorem Filed.flipToNextPage (h : Filed tvc) : Filed (tvc.flipToNextPage vc) := by
  unfold ORKTaskViewController.flipToNextPage
  cases vc.parentReviewStep with
  | some step =>
    dsimp only
    split_ifs
    · exact ((h.viewControllerForStep step).removeLastIdentifier).showViewController _
    · exact (h.viewControllerForStep step).showViewController _
  | none =>
    dsimp only
    split
    · exact h.updateCurrentResult
    · split_ifs
      · exact ((h.updateCurrentResult.viewControllerForStep _).removeLastIdentifier).showViewController _
      · exact (h.updateCurrentResult.viewControllerForStep _).showViewController _

theorem Filed.goForward (h : Filed tvc) : Filed (tvc.goForward vc) := by
  unfold ORKTaskViewController.goForward
  split_ifs
  · exact (h.set _ _).flipToPreviousPage vc
  · exact (h.set _ _).flipToNextPage vc
  · exact h

theorem Filed.saveAnswer (h : Filed tvc) (answer : Answer) : Filed (tvc.saveAnswer vc answer).2 := by
  have hcurrent : Filed { tvc with currentStepViewController := some { vc with answer := answer } } := h
  exact hcurrent.set _ _

theorem Filed.goBackward (h : Filed tvc) : Filed (tvc.goBackward vc) := by
  unfold ORKTaskViewController.goBackward
  split_ifs
  · exact ((h.saveAnswer vc _).set _ _).flipToPreviousPage _
  · exact (h.set _ _).flipToPreviousPage vc

theorem Filed.edit (h : Filed tvc) (text : String) : Filed (tvc.edit vc text) := by
  unfold ORKTaskViewController.edit
  split
  · split_ifs
    · exact h.saveAnswer vc _
    · exact h
  · exact h

theorem Filed.willReviewStep (h : Filed tvc) (row : ℕ) : Filed (tvc.willReviewStep vc row) := by
  unfold ORKTaskViewController.willReviewStep
  split
  · exact h
  · exact (h.viewControllerForStep _).showViewController _

theorem filed_handle (h : Filed tvc) (event : Event) : Filed (tvc.handle event) := by
  unfold handle
  split
  · cases event with
    | edit text => exact h.edit _ text
    | next => dsimp only; split_ifs <;> [exact h.goForward _; exact h]
    | skip => dsimp only; split_ifs <;> [exact (h.saveAnswer _ _).goForward _; exact h]
    | back => exact h.goBackward _
    | selectRow row => exact h.willReviewStep _ row
    | abandon reason => dsimp only; split_ifs <;> exact h
  · exact h

theorem filed_run (task : ORKOrderedTask) (events : List Event) : Filed (run task events) := by
  refine Execution.invariant (I := Filed) (fun _ e h ↦ filed_handle h e) ?_ events
  have hempty : Filed { task := task } := fun i identifier hi ↦ by simp at hi
  unfold present
  dsimp only
  split
  · exact hempty
  · exact (hempty.viewControllerForStep _).showViewController _

/-- The assertion in `managedResults` never fails. -/
theorem result_run (task : ORKOrderedTask) (events : List Event) :
    ∃ results, (run task events).result = some results := by
  have h := (filed_run task events).updateCurrentResult
  have hm : ∃ results, (run task events).updateCurrentResult.managedResultList = some results :=
    Lists.mapM_isSome fun x hx ↦ h x.2 x.1 (List.mem_zipIdx_iff_getElem?.mp hx)
  obtain ⟨results, hr⟩ := hm
  exact ⟨results.map ORKStepResult.toResult, by simp [result, hr]⟩

end Croesus.ResearchKit.ORKTaskViewController
