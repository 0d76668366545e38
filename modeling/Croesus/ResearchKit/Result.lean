import Mathlib.Data.Nat.Notation

namespace Croesus.ResearchKit

/-- The results a task hands to its delegate. Only the two classes that the
survey code casts to are told apart. -/
inductive ORKResult
  | stepResult (identifier : String) (results : List ORKResult)
  | textQuestionResult (identifier : String) (textAnswer : Option String)
  | otherResult (identifier : String)

structure ORKStepResult where
  identifier : String
  results : List ORKResult

def ORKStepResult.toResult (r : ORKStepResult) : ORKResult := .stepResult r.identifier r.results

inductive ORKTaskViewControllerFinishReason
  | saved | discarded | completed | failed
  deriving DecidableEq

/-- The answer held by a question's view controller: `nil` before anything is
entered, `ORKNullAnswerValue()` once it was cleared or skipped. -/
inductive Answer
  | unset
  | null
  | text (s : String)
  deriving DecidableEq

namespace Answer

/-- `ORKIsAnswerEmpty`, for the answers a text question can have. -/
def isEmpty : Answer → Bool
  | .text _ => false
  | _ => true

def ofText (s : String) : Answer := if s = "" then .null else .text s

def textAnswer : Answer → Option String
  | .text s => some s
  | _ => none

def results (identifier : String) : Answer → List ORKResult
  | .unset => []
  | a => [.textQuestionResult identifier a.textAnswer]

def restore : List ORKResult → Answer
  | [] => .unset
  | .textQuestionResult _ (some s) :: _ => .text s
  | .textQuestionResult _ none :: _ => .null
  | _ :: _ => .unset

theorem restore_results (identifier : String) (a : Answer) : restore (a.results identifier) = a := by
  cases a <;> rfl

theorem isEmpty_eq_false {a : Answer} : a.isEmpty = false ↔ ∃ s, a = .text s := by
  cases a <;> simp [isEmpty]

end Answer

end Croesus.ResearchKit
