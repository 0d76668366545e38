import Croesus.FirstViewController.Submission
import Croesus.FirstViewController.SurveyTask

namespace Croesus.FirstViewController

open ResearchKit ORKTaskViewController

/-- All answered questions of a completed run are written, or none; and the
app goes on. -/
def Atomic (reason : ORKTaskViewControllerFinishReason) (results : List ORKResult)
    (o : Outcome) : Prop :=
  o.trapped = false ∧
    (o.calls = [] ∨
      reason = .completed ∧ o.calls.map (fun s ↦ (s.question, s.answer)) = answered results)

/-- There is nobody to submit for, there is nothing to submit, or the run was
completed and nothing that gets unwrapped is nil. -/
def Submittable (reason : ORKTaskViewControllerFinishReason) (currentUser : Option UserData)
    (results : List ORKResult) : Prop :=
  currentUser = none ∨ textResults results = [] ∨
    reason = .completed ∧ (∀ userData ∈ currentUser, userData.isComplete) ∧
      ∀ x ∈ textResults results, x.2.isSome

variable {reason : ORKTaskViewControllerFinishReason} {results : List ORKResult}

theorem sendTexts_atomic_iff (userData : UserData) :
    Atomic reason results (sendTexts userData (textResults results)) ↔
      textResults results = [] ∨
        reason = .completed ∧ ∀ x ∈ textResults results, userData.isComplete ∧ x.2.isSome := by
  rw [Atomic, sendTexts_trapped]
  constructor
  · rintro ⟨hall, hcalls | ⟨hreason, -⟩⟩
    · have hm := sendTexts_calls _ ((sendTexts_trapped _).mpr hall)
      rw [hcalls] at hm
      exact .inl hm.symm
    · exact .inr ⟨hreason, hall⟩
  · rintro (hnil | ⟨hreason, hall⟩)
    · simp [hnil]
    · have hm := sendTexts_calls _ ((sendTexts_trapped _).mpr hall)
      exact ⟨hall, .inr ⟨hreason, answered_of_calls hm⟩⟩

theorem sendSurveyData_atomic_iff (currentUser : Option UserData) :
    Atomic reason results (sendSurveyData currentUser results) ↔
      Submittable reason currentUser results := by
  cases currentUser with
  | none => simp [sendSurveyData, Atomic, Submittable]
  | some userData =>
    rw [sendSurveyData_eq, sendTexts_atomic_iff]
    by_cases hnil : textResults results = []
    · simp [Submittable, hnil]
    · obtain ⟨x, hx⟩ := List.exists_mem_of_ne_nil _ hnil
      simp only [Submittable, hnil, reduceCtorEq, false_or, Option.mem_def, Option.some.injEq,
        forall_eq']
      constructor
      · rintro ⟨hreason, hall⟩
        exact ⟨hreason, (hall x hx).1, fun y hy ↦ (hall y hy).2⟩
      · rintro ⟨hreason, huser, hsome⟩
        exact ⟨hreason, fun y hy ↦ ⟨huser, hsome y hy⟩⟩

/-- Whatever the run was like and however it ended, handling its end is atomic
exactly if its results are submittable. -/
theorem didFinishWith_atomic_iff (task : ORKOrderedTask) (events : List Event)
    (reason : ORKTaskViewControllerFinishReason) (currentUser : Option UserData) :
    ∃ results, (run task events).result = some results ∧
      (Atomic reason results (didFinishWith currentUser (run task events) reason) ↔
        Submittable reason currentUser results) := by
  obtain ⟨results, hr⟩ := result_run task events
  refine ⟨results, hr, ?_⟩
  rw [didFinishWith, hr]
  exact sendSurveyData_atomic_iff currentUser

/-- The first answer is written before the skipped second question traps. -/
theorem didFinishWith_partial :
    ¬ ∀ (surveyOne : List Questions) (task : ORKOrderedTask) (events : List Event)
      (reason : ORKTaskViewControllerFinishReason) (currentUser : Option UserData)
      (results : List ORKResult),
      setupSurveyScreen (some surveyOne) = .ok task →
      (run task events).finished = some reason →
      (run task events).result = some results →
      Atomic reason results (didFinishWith currentUser (run task events) reason) := by
  intro h
  obtain ⟨results, hr⟩ := result_run (surveyTask [⟨"A", "May"⟩, ⟨"B", "May"⟩] (by decide))
    [.next, .edit "x", .next, .skip, .next, .next]
  have ha := h _ _ _ .completed (some (.ofFields "Ann" "Lee" "ann@lee" "url")) results
    (setupSurveyScreen_eq (by decide)) (by decide +kernel) hr
  exact absurd ha.1 (by decide +kernel)

end Croesus.FirstViewController
