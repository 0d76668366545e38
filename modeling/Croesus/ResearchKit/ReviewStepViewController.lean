import Croesus.ResearchKit.ManagedResults
import Mathlib.Tactic.SplitIfs

namespace Croesus.ResearchKit

open Library

def ORKResult.identifier : ORKResult → String
  | .stepResult identifier _ | .textQuestionResult identifier _ | .otherResult identifier => identifier

/-- The last result counts, as a task that goes back and forth may hold several. -/
def resultForIdentifier (results : List ORKResult) (identifier : String) : Option ORKResult :=
  results.reverse.find? fun result ↦ result.identifier = identifier

namespace ORKTextAnswerFormat

def isAnswerValidWithString (format : ORKTextAnswerFormat) (text : String) : Bool :=
  !(0 < utf16Length text) || format.isTextLengthValid text

def stringForAnswer (format : ORKTextAnswerFormat) (answer : String) : Option String :=
  if format.isAnswerValidWithString answer then some answer else none

end ORKTextAnswerFormat

def answerStringForStep (step : ORKStep) (stepResult : Option ORKResult) : Option String :=
  match step.stepClass, stepResult with
  | .questionStep format, some (.stepResult identifier (.textQuestionResult _ (some answer) :: _)) =>
    if step.identifier = identifier then format.stringForAnswer answer else none
  | _, _ => none

/-- A row of the review: the step's title, or its text if it has none, and the answer. -/
def cellForRow (resultSource : List ORKResult) (step : ORKStep) : Option String × Option String :=
  (step.title <|> step.text,
    answerStringForStep step (resultForIdentifier resultSource step.identifier))

namespace ORKTaskViewController

theorem result_setManagedResult {tvc : ORKTaskViewController} {vc : ORKStepViewController}
    (hc : tvc.currentStepViewController = some vc) :
    (tvc.setManagedResult vc.result vc.step.identifier).result = tvc.result := by
  have hagain : ((tvc.setManagedResult vc.result vc.step.identifier).setManagedResult
      vc.result vc.step.identifier).managedResults =
      (tvc.setManagedResult vc.result vc.step.identifier).managedResults := by
    funext key
    simp only [setManagedResult_eq, Function.update_apply]
    split_ifs <;> rfl
  simp only [result, updateCurrentResult, setManagedResult_current, hc, managedResultList,
    setManagedResult_stack, hagain]

@[simp] theorem result_updateCurrentResult (tvc : ORKTaskViewController) :
    tvc.updateCurrentResult.result = tvc.result := by
  cases hc : tvc.currentStepViewController with
  | none => simp [updateCurrentResult, hc]
  | some vc => rw [updateCurrentResult_eq hc, result_setManagedResult hc]

/-- A task view controller, with the result that the review step's view
controller that was made last has been handed. -/
structure Sourced where
  controller : ORKTaskViewController
  resultSource : Option (List ORKResult) := none

namespace Sourced

def viewControllerForStep (s : Sourced) (step : ORKStep) : ORKStepViewController × Sourced :=
  let (vc, tvc) := s.controller.viewControllerForStep step
  match step.stepClass with
  | .reviewStep => (vc, ⟨tvc, s.controller.result⟩)
  | _ => (vc, ⟨tvc, s.resultSource⟩)

def flipToNextPage (s : Sourced) (fromController : ORKStepViewController) : Sourced :=
  let (step, s) := match fromController.parentReviewStep with
    | some step => (some step, s)
    | none => (s.controller.task.stepAfterStep s.controller.currentStep,
        { s with controller := s.controller.updateCurrentResult })
  match step with
  | none => { s with controller := s.controller.finishWithReason .completed }
  | some step =>
    let (vc, s) := s.viewControllerForStep step
    let tvc := if fromController.isBeingReviewed then s.controller.removeLastIdentifier
      else s.controller
    { s with controller := tvc.showViewController vc }

def flipToPreviousPage (s : Sourced) (fromController : ORKStepViewController) : Sourced :=
  let (step, s) := match fromController.parentReviewStep with
    | some step => (some step, s)
    | none => (s.controller.task.stepBeforeStep s.controller.currentStep,
        { s with controller := s.controller.updateCurrentResult })
  match step with
  | none => s
  | some step =>
    let (vc, s) := s.viewControllerForStep step
    { s with controller := s.controller.removeLastIdentifier.showViewController vc }

def goForward (s : Sourced) (vc : ORKStepViewController) : Sourced :=
  if vc.shouldContinue then
    let s := { s with controller := s.controller.setManagedResult vc.result vc.step.identifier }
    if vc.isBeingReviewed then s.flipToPreviousPage vc else s.flipToNextPage vc
  else s

def goBackward (s : Sourced) (vc : ORKStepViewController) : Sourced :=
  let (vc, tvc) :=
    if vc.step.isQuestionStep && vc.isBeingReviewed then s.controller.saveAnswer vc vc.originalAnswer
    else (vc, s.controller)
  flipToPreviousPage { s with controller := tvc.setManagedResult vc.result vc.step.identifier } vc

def skip (s : Sourced) (vc : ORKStepViewController) : Sourced :=
  let (vc, tvc) := s.controller.saveAnswer vc .null
  goForward { s with controller := tvc } vc

def willReviewStep (s : Sourced) (vc : ORKStepViewController) (row : ℕ) : Sourced :=
  match vc.rows[row]? with
  | none => s
  | some step =>
    let (stepVC, s) := s.viewControllerForStep step
    { s with
      controller := s.controller.showViewController { stepVC with parentReviewStep := some vc.step } }

def handle (s : Sourced) (event : Event) : Sourced :=
  match s.controller.finished, s.controller.currentStepViewController with
  | none, some vc =>
    match event with
    | .edit text => { s with controller := s.controller.edit vc text }
    | .next => if vc.continueButtonEnabled then s.goForward vc else s
    | .skip => if vc.skipButtonEnabled then s.skip vc else s
    | .back => s.goBackward vc
    | .selectRow row => s.willReviewStep vc row
    | .abandon reason =>
      if reason = .completed then s else { s with controller := s.controller.finishWithReason reason }
  | _, _ => s

def present (task : ORKOrderedTask) : Sourced :=
  let s : Sourced := { controller := { task := task } }
  match task.stepAfterStep none with
  | none => s
  | some step =>
    let (vc, s) := s.viewControllerForStep step
    { s with controller := s.controller.showViewController vc }

def run (task : ORKOrderedTask) (events : List Event) : Sourced := events.foldl handle (present task)

/-- What the page of a review step lists. -/
def cells (s : Sourced) (vc : ORKStepViewController) : List (Option String × Option String) :=
  vc.rows.map (cellForRow (s.resultSource.getD []))

variable (s : Sourced) (vc : ORKStepViewController)

@[simp] theorem viewControllerForStep_fst (step : ORKStep) :
    (s.viewControllerForStep step).1 = (s.controller.viewControllerForStep step).1 := by
  unfold viewControllerForStep
  cases step.stepClass <;> rfl

@[simp] theorem viewControllerForStep_controller (step : ORKStep) :
    (s.viewControllerForStep step).2.controller = (s.controller.viewControllerForStep step).2 := by
  unfold viewControllerForStep
  cases step.stepClass <;> rfl

theorem flipToNextPage_controller :
    (s.flipToNextPage vc).controller = s.controller.flipToNextPage vc := by
  simp only [flipToNextPage, ORKTaskViewController.flipToNextPage]
  cases vc.parentReviewStep with
  | some step => simp
  | none => cases s.controller.task.stepAfterStep s.controller.currentStep <;> simp

theorem flipToPreviousPage_controller :
    (s.flipToPreviousPage vc).controller = s.controller.flipToPreviousPage vc := by
  simp only [flipToPreviousPage, ORKTaskViewController.flipToPreviousPage]
  cases vc.parentReviewStep with
  | some step => simp
  | none => cases s.controller.task.stepBeforeStep s.controller.currentStep <;> simp

theorem goForward_controller : (s.goForward vc).controller = s.controller.goForward vc := by
  simp only [goForward, ORKTaskViewController.goForward]
  split_ifs
  · exact flipToPreviousPage_controller _ vc
  · exact flipToNextPage_controller _ vc
  · rfl

theorem willReviewStep_controller (row : ℕ) :
    (s.willReviewStep vc row).controller = s.controller.willReviewStep vc row := by
  simp only [willReviewStep, ORKTaskViewController.willReviewStep]
  cases vc.rows[row]? <;> simp

/-- Remembering what the review was handed changes nothing. -/
theorem handle_controller (event : Event) :
    (s.handle event).controller = s.controller.handle event := by
  rw [handle, ORKTaskViewController.handle]
  cases hf : s.controller.finished with
  | some reason => rfl
  | none =>
    cases hc : s.controller.currentStepViewController with
    | none => rfl
    | some vc =>
      cases event with
      | edit text => rfl
      | next =>
        dsimp only
        split_ifs
        · exact goForward_controller s vc
        · rfl
      | skip =>
        dsimp only
        split_ifs
        · exact goForward_controller _ _
        · rfl
      | back => exact flipToPreviousPage_controller _ _
      | selectRow row => exact willReviewStep_controller s vc row
      | abandon reason =>
        dsimp only
        split_ifs <;> rfl

theorem present_controller (task : ORKOrderedTask) :
    (present task).controller = ORKTaskViewController.present task := by
  simp only [present, ORKTaskViewController.present]
  cases task.stepAfterStep none <;> simp

theorem run_controller (task : ORKOrderedTask) (events : List Event) :
    (run task events).controller = ORKTaskViewController.run task events :=
  Execution.simulation_along (f := handle) (g := ORKTaskViewController.handle)
    (R := fun s tvc ↦ s.controller = tvc) (P := fun _ _ ↦ True)
    (fun s _ event h _ ↦ by rw [handle_controller, h]) (present_controller task)
    (Execution.along_of_forall (fun _ _ _ ↦ trivial) _)

/-- The result that is handed over when the step's view controller is made. -/
def handedOver (step : Option ORKStep) : Option (List ORKResult) :=
  if step.map ORKStep.stepClass = some .reviewStep then s.controller.result else s.resultSource

theorem handedOver_of_ne {step : ORKStep} (h : step.stepClass ≠ .reviewStep) :
    s.handedOver (some step) = s.resultSource := by simp [handedOver, h]

theorem viewControllerForStep_source (step : ORKStep) :
    (s.viewControllerForStep step).2.resultSource = s.handedOver (some step) := by
  rw [viewControllerForStep, handedOver]
  cases h : step.stepClass <;> simp [h]

theorem handedOver_updateCurrentResult (step : Option ORKStep) :
    handedOver { s with controller := s.controller.updateCurrentResult } step =
      s.handedOver step := by
  simp [handedOver]

theorem flipToNextPage_source : (s.flipToNextPage vc).resultSource = s.handedOver
    (vc.parentReviewStep.or (s.controller.task.stepAfterStep s.controller.currentStep)) := by
  simp only [flipToNextPage]
  cases vc.parentReviewStep with
  | some step => exact viewControllerForStep_source s step
  | none =>
    rw [← handedOver_updateCurrentResult]
    cases s.controller.task.stepAfterStep s.controller.currentStep with
    | none => simp [handedOver]
    | some step => exact viewControllerForStep_source _ step

theorem flipToPreviousPage_source : (s.flipToPreviousPage vc).resultSource = s.handedOver
    (vc.parentReviewStep.or (s.controller.task.stepBeforeStep s.controller.currentStep)) := by
  simp only [flipToPreviousPage]
  cases vc.parentReviewStep with
  | some step => exact viewControllerForStep_source s step
  | none =>
    rw [← handedOver_updateCurrentResult]
    cases s.controller.task.stepBeforeStep s.controller.currentStep with
    | none => simp [handedOver]
    | some step => exact viewControllerForStep_source _ step

end Sourced

end ORKTaskViewController

end Croesus.ResearchKit
