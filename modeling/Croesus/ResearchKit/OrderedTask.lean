import Croesus.Foundation
import Mathlib.Data.List.Dedup

namespace Croesus.ResearchKit

structure ORKTextAnswerFormat where
  maximumLength : ℕ
  multipleLines : Bool := true
  deriving DecidableEq

inductive StepClass
  | instructionStep
  | questionStep (answerFormat : ORKTextAnswerFormat)
  | reviewStep
  | completionStep
  deriving DecidableEq

structure ORKStep where
  stepClass : StepClass
  identifier : String
  title : Option String
  text : Option String
  deriving DecidableEq

namespace ORKStep

def isQuestionStep (s : ORKStep) : Bool :=
  match s.stepClass with | .questionStep _ => true | _ => false

/-- A completion step is an instruction step by inheritance. -/
def isInstructionStep (s : ORKStep) : Bool :=
  match s.stepClass with | .instructionStep | .completionStep => true | _ => false

theorem isQuestionStep_iff {s : ORKStep} :
    s.isQuestionStep ↔ ∃ format, s.stepClass = .questionStep format := by
  rw [isQuestionStep]
  cases s.stepClass <;> simp

end ORKStep

/-- An ordered task that has passed `validateParameters`. -/
structure ORKOrderedTask where
  identifier : String
  steps : List ORKStep
  unique : (steps.map ORKStep.identifier).Nodup

theorem length_eq_dedup_iff {α : Type*} [DecidableEq α] (l : List α) :
    l.length = l.dedup.length ↔ l.Nodup := by
  rw [← List.dedup_eq_self]
  constructor
  · intro h
    exact (List.dedup_sublist l).eq_of_length h.symm
  · intro h
    rw [h]

namespace ORKOrderedTask

def nonUniqueIdentifiers : NSException :=
  ⟨"NSGenericException", "Each step should have a unique identifier"⟩

def initWithIdentifier (identifier : String) (steps : List ORKStep) :
    Except NSException ORKOrderedTask :=
  let identifiers := steps.map ORKStep.identifier
  if h : identifiers.length = identifiers.dedup.length then
    .ok ⟨identifier, steps, (length_eq_dedup_iff identifiers).mp h⟩
  else
    .error nonUniqueIdentifiers

/-- The check a task view controller repeats on the task it is given. -/
def validateParameters (task : ORKOrderedTask) : Except NSException Unit :=
  let identifiers := task.steps.map ORKStep.identifier
  if identifiers.length = identifiers.dedup.length then .ok () else .error nonUniqueIdentifiers

theorem validateParameters_ok (task : ORKOrderedTask) : task.validateParameters = .ok () :=
  if_pos ((length_eq_dedup_iff _).mpr task.unique)

theorem initWithIdentifier_ok {identifier : String} {steps : List ORKStep}
    (h : (steps.map ORKStep.identifier).Nodup) :
    initWithIdentifier identifier steps = .ok ⟨identifier, steps, h⟩ :=
  dif_pos ((length_eq_dedup_iff _).mpr h)

theorem initWithIdentifier_error {identifier : String} {steps : List ORKStep}
    (h : ¬ (steps.map ORKStep.identifier).Nodup) :
    initWithIdentifier identifier steps = .error nonUniqueIdentifiers :=
  dif_neg (mt (length_eq_dedup_iff _).mp h)

variable (task : ORKOrderedTask)

/-- Steps are looked up by equality first and by identifier second. -/
def indexOfStep (step : ORKStep) : Option ℕ :=
  task.steps.idxOf? step <|> (task.steps.map ORKStep.identifier).idxOf? step.identifier

def stepAfterStep : Option ORKStep → Option ORKStep
  | none => task.steps[0]?
  | some step =>
    match task.indexOfStep step with
    | none => none
    | some index => if index ≠ task.steps.length - 1 then task.steps[index + 1]? else none

def stepBeforeStep : Option ORKStep → Option ORKStep
  | none => none
  | some step =>
    match task.indexOfStep step with
    | none => none
    | some index => if index ≠ 0 then task.steps[index - 1]? else none

def stepWithIdentifier (identifier : String) : Option ORKStep :=
  task.steps.find? (·.identifier = identifier)

variable {task} {p q : ℕ} {s t : ORKStep}

theorem index_unique (task : ORKOrderedTask) {p q : ℕ} {s t : ORKStep}
    (hs : task.steps[p]? = some s) (ht : task.steps[q]? = some t)
    (h : s.identifier = t.identifier) : p = q := by
  obtain ⟨hp, rfl⟩ := List.getElem?_eq_some_iff.mp hs
  obtain ⟨hq, rfl⟩ := List.getElem?_eq_some_iff.mp ht
  have hu := (List.nodup_iff_injective_get.mp task.unique)
  have he := @hu ⟨p, by simpa⟩ ⟨q, by simpa⟩ (by simpa using h)
  exact congrArg Fin.val he

theorem indexOfStep_eq (hs : task.steps[p]? = some s) : task.indexOfStep s = some p := by
  have hi : task.steps.idxOf? s = some p := by
    obtain ⟨hp, rfl⟩ := List.getElem?_eq_some_iff.mp hs
    refine List.idxOf?_eq_some_iff.mpr ⟨hp, rfl, fun j hj he ↦ ?_⟩
    have hjs : task.steps[j]? = some task.steps[p] := by
      rw [List.getElem?_eq_getElem (by omega), he]
    exact absurd (index_unique task hjs hs rfl) (by omega)
  simp [indexOfStep, hi]

theorem stepAfterStep_eq (hs : task.steps[p]? = some s) :
    task.stepAfterStep (some s) = task.steps[p + 1]? := by
  simp only [stepAfterStep, indexOfStep_eq hs]
  split_ifs with h
  · rfl
  · exact (List.getElem?_eq_none (by omega)).symm

theorem stepBeforeStep_zero (hs : task.steps[0]? = some s) :
    task.stepBeforeStep (some s) = none := by
  simp [stepBeforeStep, indexOfStep_eq hs]

theorem stepBeforeStep_succ (hs : task.steps[p + 1]? = some s) :
    task.stepBeforeStep (some s) = task.steps[p]? := by
  simp [stepBeforeStep, indexOfStep_eq hs]

theorem stepWithIdentifier_eq (hs : task.steps[p]? = some s) :
    task.stepWithIdentifier s.identifier = some s := by
  obtain ⟨hp, he⟩ := List.getElem?_eq_some_iff.mp hs
  refine List.find?_eq_some_iff_getElem.mpr ⟨by simp, p, hp, he, fun j hj ↦ ?_⟩
  have hj' : task.steps[j]? = some task.steps[j] := List.getElem?_eq_getElem (by omega)
  simp only [Bool.not_eq_true', decide_eq_false_iff_not]
  intro h
  exact absurd (index_unique task hj' hs h) (by omega)

end ORKOrderedTask

end Croesus.ResearchKit
