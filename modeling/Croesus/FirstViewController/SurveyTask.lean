import Croesus.Models
import Croesus.ResearchKit.OrderedTask

namespace Croesus.FirstViewController

open ResearchKit

def introStep : ORKStep where
  stepClass := .instructionStep
  identifier := "IntroStep"
  title := "Expenditure Survey"
  text := "We here at Croesus pride our selves at not only keeping you and your loved ones money safe but also make sure we advise on expenditure."

def nameAnswerFormat : ORKTextAnswerFormat where
  maximumLength := 100
  multipleLines := false

/-- The text of a question serves as the identifier of its step. -/
def questionStep (question : Questions) : ORKStep where
  stepClass := .questionStep nameAnswerFormat
  identifier := question.Question
  title := question.Question
  text := none

def reviewStep : ORKStep where
  stepClass := .reviewStep
  identifier := "reviewSteps"
  title := "Survey Review"
  text := "These are your answers so far, not too sure about them all of sudden? click on any to edit them . We care about your finances and want to make sure you give us the right data :)"

def summaryStep : ORKStep where
  stepClass := .completionStep
  identifier := "SummaryStep"
  title := "Right. Off you go!"
  text := "Please tap done to submit this data to our data banks for evaluation. Thank you for your honesty"

def surveySteps (surveyOne : List Questions) : List ORKStep :=
  introStep :: surveyOne.map questionStep ++ [reviewStep, summaryStep]

/-- The task of the survey screen. A screen that has not been given any
questions yet builds the task without question steps. -/
def setupSurveyScreen (surveyOne : Option (List Questions)) : Except NSException ORKOrderedTask :=
  ORKOrderedTask.initWithIdentifier "SurveyTask" (surveySteps (surveyOne.getD []))

def fixedIdentifiers : List String := ["IntroStep", "reviewSteps", "SummaryStep"]

def Distinct (surveyOne : List Questions) : Prop :=
  (surveyOne.map Questions.Question).Nodup ∧
    ∀ q ∈ surveyOne, q.Question ∉ fixedIdentifiers

instance (surveyOne : List Questions) : Decidable (Distinct surveyOne) :=
  inferInstanceAs (Decidable (_ ∧ _))

theorem surveySteps_identifiers (surveyOne : List Questions) :
    (surveySteps surveyOne).map ORKStep.identifier =
      "IntroStep" :: surveyOne.map Questions.Question ++ ["reviewSteps", "SummaryStep"] := by
  simp [surveySteps, introStep, reviewStep, summaryStep, questionStep, Function.comp_def]

theorem identifiers_nodup_iff (surveyOne : List Questions) :
    ((surveySteps surveyOne).map ORKStep.identifier).Nodup ↔ Distinct surveyOne := by
  have hfixed : (∀ q ∈ surveyOne, q.Question ∉ fixedIdentifiers) ↔
      ∀ t ∈ surveyOne.map Questions.Question, t ∉ fixedIdentifiers := by simp
  rw [surveySteps_identifiers, Distinct, hfixed]
  generalize surveyOne.map Questions.Question = texts
  have hr : ["reviewSteps", "SummaryStep"].Nodup := by decide
  have hi : "IntroStep" ∉ ["reviewSteps", "SummaryStep"] := by decide
  simp only [List.cons_append, List.nodup_cons, List.nodup_append, List.mem_append, hr, hi,
    fixedIdentifiers, or_false, true_and]
  grind

theorem surveySteps_length (surveyOne : List Questions) :
    (surveySteps surveyOne).length = surveyOne.length + 3 := by
  simp [surveySteps]

theorem surveySteps_cases {surveyOne : List Questions} {p : ℕ} {s : ORKStep}
    (h : (surveySteps surveyOne)[p]? = some s) :
    (p = 0 ∧ s = introStep) ∨
      (∃ q, 1 ≤ p ∧ p ≤ surveyOne.length ∧ surveyOne[p - 1]? = some q ∧ s = questionStep q) ∨
      (p = surveyOne.length + 1 ∧ s = reviewStep) ∨
      (p = surveyOne.length + 2 ∧ s = summaryStep) := by
  cases p with
  | zero => exact .inl ⟨rfl, by simpa [surveySteps, eq_comm] using h⟩
  | succ i =>
    simp only [surveySteps, List.cons_append, List.getElem?_cons_succ] at h
    by_cases hi : i < surveyOne.length
    · rw [List.getElem?_append_left (by simpa), List.getElem?_map, Option.map_eq_some_iff] at h
      obtain ⟨q, hq, rfl⟩ := h
      exact .inr (.inl ⟨q, by omega, by omega, hq, rfl⟩)
    · rw [List.getElem?_append_right (by simpa using hi), List.length_map] at h
      obtain ⟨j, rfl⟩ : ∃ j, i = surveyOne.length + j := ⟨i - surveyOne.length, by omega⟩
      rw [Nat.add_sub_cancel_left] at h
      match j with
      | 0 => exact .inr (.inr (.inl ⟨rfl, by simpa [eq_comm] using h⟩))
      | 1 => exact .inr (.inr (.inr ⟨rfl, by simpa [eq_comm] using h⟩))
      | j + 2 => simp at h

def surveyTask (surveyOne : List Questions) (h : Distinct surveyOne) : ORKOrderedTask where
  identifier := "SurveyTask"
  steps := surveySteps surveyOne
  unique := (identifiers_nodup_iff surveyOne).mpr h

theorem setupSurveyScreen_eq {surveyOne : List Questions} (h : Distinct surveyOne) :
    setupSurveyScreen (some surveyOne) = .ok (surveyTask surveyOne h) :=
  ORKOrderedTask.initWithIdentifier_ok _

theorem setupSurveyScreen_error {surveyOne : List Questions} (h : ¬ Distinct surveyOne) :
    setupSurveyScreen (some surveyOne) = .error ORKOrderedTask.nonUniqueIdentifiers :=
  ORKOrderedTask.initWithIdentifier_error (mt (identifiers_nodup_iff surveyOne).mp h)

theorem setupSurveyScreen_steps {surveyOne : Option (List Questions)} {task : ORKOrderedTask}
    (h : setupSurveyScreen surveyOne = .ok task) : task.steps = surveySteps (surveyOne.getD []) := by
  rw [setupSurveyScreen, ORKOrderedTask.initWithIdentifier] at h
  split_ifs at h
  rw [← Except.ok.inj h]

/-- The task view controller for the survey is made without an exception, and
its task has the steps of the survey in order, exactly for distinct texts. -/
theorem setupSurveyScreen_ok_iff (surveyOne : List Questions) :
    (∃ task, setupSurveyScreen (some surveyOne) = .ok task ∧ task.validateParameters = .ok () ∧
      (task.steps.map ORKStep.identifier).Nodup ∧
      task.steps = introStep :: surveyOne.map questionStep ++ [reviewStep, summaryStep]) ↔
    Distinct surveyOne := by
  constructor
  · rintro ⟨task, -, -, hunique, hsteps⟩
    rw [hsteps] at hunique
    exact (identifiers_nodup_iff surveyOne).mp hunique
  · intro h
    refine ⟨surveyTask surveyOne h, setupSurveyScreen_eq h, ?_, (surveyTask surveyOne h).unique, rfl⟩
    exact ORKOrderedTask.validateParameters_ok _

/-- Two documents with the same text make the initialiser raise. -/
theorem setupSurveyScreen_repeated :
    ¬ ∃ task, setupSurveyScreen (some [⟨"Rent?", "May"⟩, ⟨"Rent?", "June"⟩]) = .ok task := by
  rintro ⟨task, h⟩
  cases (setupSurveyScreen_error (by decide)).symm.trans h

end Croesus.FirstViewController
