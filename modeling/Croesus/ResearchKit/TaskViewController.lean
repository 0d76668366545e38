import Croesus.Library.IndexedKey
import Croesus.ResearchKit.OrderedTask
import Croesus.ResearchKit.Result
import Mathlib.Logic.Function.Basic

namespace Croesus.ResearchKit

open Library

def utf16Length (s : String) : ℕ :=
  s.toList.foldl (fun n c ↦ if c.toNat < 0x10000 then n + 1 else n + 2) 0

/-- The characters of `NSCharacterSet.newlineCharacterSet`. -/
def isNewline (c : Char) : Bool :=
  (0xA ≤ c.toNat && c.toNat ≤ 0xD) || c.toNat = 0x85 || c.toNat = 0x2028 || c.toNat = 0x2029

def withoutNewlines (s : String) : String := String.ofList (s.toList.filter fun c ↦ !isNewline c)

namespace ORKTextAnswerFormat

def isTextLengthValid (format : ORKTextAnswerFormat) (text : String) : Bool :=
  format.maximumLength = 0 || utf16Length text ≤ format.maximumLength

/-- Whether the single-line field takes its new content. Text that grows past
the maximum length is turned away, but only growth is looked at, and newlines
do not count. -/
def shouldChangeCharacters (format : ORKTextAnswerFormat) (old new : String) : Bool :=
  !(utf16Length old < utf16Length new) || format.isTextLengthValid (withoutNewlines new)

end ORKTextAnswerFormat

/-- The view controller of one step. The answers belong to question steps,
the rows to review steps. -/
structure ORKStepViewController where
  step : ORKStep
  parentReviewStep : Option ORKStep := none
  answer : Answer := .unset
  originalAnswer : Answer := .unset
  rows : List ORKStep := []

namespace ORKStepViewController

def isBeingReviewed (vc : ORKStepViewController) : Bool := vc.parentReviewStep.isSome

def result (vc : ORKStepViewController) : ORKStepResult where
  identifier := vc.step.identifier
  results := if vc.step.isQuestionStep then vc.answer.results vc.step.identifier else []

def initWithStep (step : ORKStep) (result : ORKStepResult) : ORKStepViewController where
  step := step
  answer := if step.isQuestionStep then .restore result.results else .unset
  originalAnswer := if step.isQuestionStep then .restore result.results else .unset

def initWithReviewStep (reviewStep : ORKStep) (steps : List ORKStep) : ORKStepViewController where
  step := reviewStep
  rows := steps.filter fun s ↦ s.isQuestionStep || s.isInstructionStep

/-- The continue button of an optional question is enabled by an answer, and
in a review only by a changed one. -/
def continueButtonEnabled (vc : ORKStepViewController) : Bool :=
  if vc.step.isQuestionStep then
    !vc.answer.isEmpty && (!vc.isBeingReviewed || vc.answer ≠ vc.originalAnswer)
  else true

def shouldContinue (vc : ORKStepViewController) : Bool :=
  match vc.step.stepClass with
  | .questionStep format => format.isTextLengthValid (vc.answer.textAnswer.getD "")
  | _ => true

/-- Only questions are optional; in a review the button reads "Clear answer". -/
def skipButtonEnabled (vc : ORKStepViewController) : Bool :=
  vc.step.isQuestionStep && (!vc.isBeingReviewed || !vc.originalAnswer.isEmpty)

end ORKStepViewController

structure ORKTaskViewController where
  task : ORKOrderedTask
  managedResults : String → Option ORKStepResult := fun _ ↦ none
  managedStepIdentifiers : List String := []
  currentStepViewController : Option ORKStepViewController := none
  finished : Option ORKTaskViewControllerFinishReason := none

namespace ORKTaskViewController

def uniqueManagedKey (stepIdentifier : String) (index : ℕ) : String :=
  IndexedKey.indexed stepIdentifier index

/-- The result is stored under the identifier and once more under the
identifier with its place on the stack. -/
def setManagedResult (tvc : ORKTaskViewController) (result : ORKStepResult) (aKey : String) :
    ORKTaskViewController :=
  let count := tvc.managedStepIdentifiers.length
  -- a step that is about to be pushed gets the place it will have
  let idx := if tvc.managedStepIdentifiers.getLast? = some aKey then count - 1 else count
  let plain := Function.update tvc.managedResults aKey (some result)
  { tvc with managedResults := Function.update plain (uniqueManagedKey aKey idx) (some result) }

/-- The results of the steps on the stack; `none` is the assertion that fails
when one of them is missing. -/
def managedResultList (tvc : ORKTaskViewController) : Option (List ORKStepResult) :=
  tvc.managedStepIdentifiers.zipIdx.mapM fun (identifier, idx) ↦
    tvc.managedResults (uniqueManagedKey identifier idx)

/-- What asking for `result` does to the controller: it first files the
current step's result. -/
def updateCurrentResult (tvc : ORKTaskViewController) : ORKTaskViewController :=
  match tvc.currentStepViewController with
  | none => tvc
  | some vc => tvc.setManagedResult vc.result vc.step.identifier

def result (tvc : ORKTaskViewController) : Option (List ORKResult) :=
  (tvc.updateCurrentResult.managedResultList).map (·.map ORKStepResult.toResult)

def currentStep (tvc : ORKTaskViewController) : Option ORKStep :=
  tvc.currentStepViewController.map (·.step)

def stepsForReviewStep (tvc : ORKTaskViewController) (reviewStep : ORKStep) : List ORKStep :=
  collect tvc.managedStepIdentifiers
where
  collect : List String → List ORKStep
    | [] => []
    | identifier :: rest =>
      match tvc.task.stepWithIdentifier identifier with
      | none => []
      -- the enumeration stops at the review step itself
      | some step => if step.identifier = reviewStep.identifier then [] else step :: collect rest

def viewControllerForStep (tvc : ORKTaskViewController) (step : ORKStep) :
    ORKStepViewController × ORKTaskViewController :=
  match step.stepClass with
  | .reviewStep =>
    -- `self.result` is handed over for the rows' answers, which files the current step first
    let vc := .initWithReviewStep step (tvc.stepsForReviewStep step)
    (vc, tvc.updateCurrentResult.setManagedResult vc.result step.identifier)
  | _ =>
    let vc := .initWithStep step ((tvc.managedResults step.identifier).getD ⟨step.identifier, []⟩)
    (vc, tvc.setManagedResult vc.result step.identifier)

/-- The result is asked for twice: before the step is put on the stack, and
for the progress label once its controller is the current one. -/
def showViewController (tvc : ORKTaskViewController) (vc : ORKStepViewController) :
    ORKTaskViewController :=
  let tvc := tvc.updateCurrentResult
  let stack := tvc.managedStepIdentifiers
  let stack := if stack.getLast? = some vc.step.identifier then stack
    else stack ++ [vc.step.identifier]
  { tvc with managedStepIdentifiers := stack, currentStepViewController := some vc }
    |>.updateCurrentResult

def finishWithReason (tvc : ORKTaskViewController) (reason : ORKTaskViewControllerFinishReason) :
    ORKTaskViewController := { tvc with finished := some reason }

def removeLastIdentifier (tvc : ORKTaskViewController) : ORKTaskViewController :=
  { tvc with managedStepIdentifiers := tvc.managedStepIdentifiers.dropLast }

def flipToNextPage (tvc : ORKTaskViewController) (fromController : ORKStepViewController) :
    ORKTaskViewController :=
  let (step, tvc) := match fromController.parentReviewStep with
    | some step => (some step, tvc)
    | none => (tvc.task.stepAfterStep tvc.currentStep, tvc.updateCurrentResult)
  match step with
  | none => tvc.finishWithReason .completed
  | some step =>
    let (vc, tvc) := tvc.viewControllerForStep step
    let tvc := if fromController.isBeingReviewed then tvc.removeLastIdentifier else tvc
    tvc.showViewController vc

def flipToPreviousPage (tvc : ORKTaskViewController) (fromController : ORKStepViewController) :
    ORKTaskViewController :=
  let (step, tvc) := match fromController.parentReviewStep with
    | some step => (some step, tvc)
    | none => (tvc.task.stepBeforeStep tvc.currentStep, tvc.updateCurrentResult)
  match step with
  | none => tvc
  | some step =>
    let (vc, tvc) := tvc.viewControllerForStep step
    tvc.removeLastIdentifier.showViewController vc

/-- The step's result is filed and the page is turned; a step opened from the
review always goes back to it. -/
def goForward (tvc : ORKTaskViewController) (vc : ORKStepViewController) : ORKTaskViewController :=
  if vc.shouldContinue then
    let tvc := tvc.setManagedResult vc.result vc.step.identifier
    if vc.isBeingReviewed then tvc.flipToPreviousPage vc else tvc.flipToNextPage vc
  else tvc

/-- The current step's answer is replaced and its result filed at once. -/
def saveAnswer (tvc : ORKTaskViewController) (vc : ORKStepViewController) (answer : Answer) :
    ORKStepViewController × ORKTaskViewController :=
  let vc := { vc with answer := answer }
  (vc, { tvc with currentStepViewController := some vc }.setManagedResult
    vc.result vc.step.identifier)

/-- Leaving a reviewed question backwards puts its original answer back. -/
def goBackward (tvc : ORKTaskViewController) (vc : ORKStepViewController) :
    ORKTaskViewController :=
  let (vc, tvc) :=
    if vc.step.isQuestionStep && vc.isBeingReviewed then tvc.saveAnswer vc vc.originalAnswer
    else (vc, tvc)
  (tvc.setManagedResult vc.result vc.step.identifier).flipToPreviousPage vc

/-- What the user can do while a task is presented. The text of `edit` is the
whole content of the answer field after the change. That the field is saved
once more when editing ends changes nothing as long as its page is shown. -/
inductive Event
  | edit (text : String)
  | next
  | skip
  | back
  | selectRow (row : ℕ)
  | abandon (reason : ORKTaskViewControllerFinishReason)
  deriving DecidableEq

def edit (tvc : ORKTaskViewController) (vc : ORKStepViewController) (text : String) :
    ORKTaskViewController :=
  match vc.step.stepClass with
  | .questionStep format =>
    -- saved without newlines at first, and then as the field has it
    if format.shouldChangeCharacters (vc.answer.textAnswer.getD "") text then
      (tvc.saveAnswer vc (.ofText text)).2
    else tvc
  | _ => tvc

def skip (tvc : ORKTaskViewController) (vc : ORKStepViewController) : ORKTaskViewController :=
  let (vc, tvc) := tvc.saveAnswer vc .null
  tvc.goForward vc

def willReviewStep (tvc : ORKTaskViewController) (vc : ORKStepViewController) (row : ℕ) :
    ORKTaskViewController :=
  match vc.rows[row]? with
  | none => tvc
  | some step =>
    -- the parent is set after the initial result was filed
    let (stepVC, tvc) := tvc.viewControllerForStep step
    tvc.showViewController { stepVC with parentReviewStep := some vc.step }

def handle (tvc : ORKTaskViewController) (event : Event) : ORKTaskViewController :=
  match tvc.finished, tvc.currentStepViewController with
  | none, some vc =>
    match event with
    | .edit text => tvc.edit vc text
    | .next => if vc.continueButtonEnabled then tvc.goForward vc else tvc
    | .skip => if vc.skipButtonEnabled then tvc.skip vc else tvc
    | .back => tvc.goBackward vc
    | .selectRow row => tvc.willReviewStep vc row
    -- only the last page completes a task
    | .abandon reason => if reason = .completed then tvc else tvc.finishWithReason reason
  | _, _ => tvc

def present (task : ORKOrderedTask) : ORKTaskViewController :=
  let tvc : ORKTaskViewController := { task := task }
  match task.stepAfterStep none with
  | none => tvc
  | some step =>
    let (vc, tvc) := tvc.viewControllerForStep step
    tvc.showViewController vc

def run (task : ORKOrderedTask) (events : List Event) : ORKTaskViewController :=
  events.foldl handle (present task)

end ORKTaskViewController

end Croesus.ResearchKit
