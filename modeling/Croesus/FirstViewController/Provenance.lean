import Croesus.FirstViewController.Screen
import Croesus.ResearchKit.Answers

namespace Croesus.FirstViewController

open Firestore FIRFirestoreService ResearchKit Library

/-- The text is what has been typed into the field of a question. -/
def Typed (typed : String → Prop) (_ : ORKStep) (a : Answer) : Prop :=
  ∀ text, a = .text text → text ≠ "" ∧ typed text

/-- The response answers a question that was asked with what was typed, and is
signed with a profile. -/
def Answerable (asked : Questions → Prop) (typed : String → Prop) (profiled : UserData → Prop)
    (response : Survey) : Prop :=
  (∃ q, asked q ∧ response.question = q.Question) ∧
  (response.answer ≠ "" ∧ typed response.answer) ∧
  ∃ user, profiled user ∧
    surveyResponse user response.question (some response.answer) = some response

variable {asked : Questions → Prop} {typed : String → Prop} {profiled : UserData → Prop}

theorem surveySteps_question {surveyOne : List Questions} {s : ORKStep}
    (hs : s ∈ surveySteps surveyOne) (hq : s.isQuestionStep) :
    ∃ q ∈ surveyOne, s = questionStep q := by
  obtain ⟨p, hp⟩ := List.getElem?_of_mem hs
  rcases surveySteps_cases hp with ⟨-, rfl⟩ | ⟨q, -, -, hmem, rfl⟩ | ⟨-, rfl⟩ | ⟨-, rfl⟩
  · exact absurd hq (by decide)
  · exact ⟨q, List.mem_of_getElem? hmem, rfl⟩
  · exact absurd hq (by decide)
  · exact absurd hq (by decide)

theorem admits_typed (task : ORKOrderedTask) (typed : String → Prop) :
    ORKTaskViewController.Admits task typed (Typed typed) where
  empty s a ha text htext := by
    rw [htext] at ha
    cases ha
  edit s hs text htyped text' htext := by
    rw [Answer.ofText] at htext
    split_ifs at htext with hempty
    obtain rfl := Answer.text.inj htext
    exact ⟨hempty, htyped⟩
  shared s _ t _ k a _ h := h

theorem mem_results {x : String × Option String} {step : ORKStep} {a : Answer}
    (h : x ∈ (a.results step.identifier).filterMap asTextQuestionResult) :
    x.1 = step.identifier ∧ ∀ text, x.2 = some text → a = .text text := by
  cases a with
  | unset => simp [Answer.results] at h
  | null =>
    obtain rfl : x = (step.identifier, none) := by
      simpa [Answer.results, asTextQuestionResult, Answer.textAnswer] using h
    exact ⟨rfl, by simp⟩
  | text s =>
    obtain rfl : x = (step.identifier, some s) := by
      simpa [Answer.results, asTextQuestionResult, Answer.textAnswer] using h
    refine ⟨rfl, fun text htext ↦ ?_⟩
    rw [Option.some.inj htext]

/-- A text result of a task belongs to one of its questions, and holds an
answer that this question can have. -/
theorem mem_textResults {task : ORKOrderedTask} {ok : ORKStep → Answer → Prop}
    {tvc : ORKTaskViewController} (h : tvc.Answers task ok) {results : List ORKResult}
    (hresults : tvc.result = some results) {question text : String}
    (hmem : (question, some text) ∈ textResults results) :
    ∃ step ∈ task.steps, step.isQuestionStep ∧ step.identifier = question ∧ ok step (.text text) := by
  rw [ORKTaskViewController.result, Option.map_eq_some_iff] at hresults
  obtain ⟨managed, hmanaged, rfl⟩ := hresults
  rw [textResults, List.mem_flatMap] at hmem
  obtain ⟨r, hr, hx⟩ := hmem
  obtain ⟨stepResult, hstep, rfl⟩ := List.mem_map.mp hr
  have hsome := Lists.mapM_eq_some.mp hmanaged
  obtain ⟨y, -, hy⟩ := List.mem_map.mp (hsome ▸ List.mem_map_of_mem hstep)
  obtain ⟨vc, hvc, rfl, -⟩ := h.updateCurrentResult.results _ _ hy
  simp only [ORKStepResult.toResult, ORKStepViewController.result] at hx
  split_ifs at hx with hq
  · obtain ⟨hid, htext⟩ := mem_results hx
    refine ⟨vc.step, hvc.step, hq, hid.symm, ?_⟩
    rw [← htext text rfl]
    exact hvc.answer
  · simp at hx

theorem text_of_mem_calls {currentUser : Option UserData} {tvc : ORKTaskViewController}
    {reason : ORKTaskViewControllerFinishReason} {response : Survey}
    (h : response ∈ (didFinishWith currentUser tvc reason).calls) :
    ∃ results, tvc.result = some results ∧
      (response.question, some response.answer) ∈ textResults results := by
  rw [didFinishWith] at h
  cases hr : tvc.result with
  | none => simp [hr] at h
  | some results =>
    cases currentUser with
    | none => simp [hr, sendSurveyData] at h
    | some user =>
      simp only [hr, sendSurveyData_eq] at h
      have hprefix := sendTexts_prefix user (textResults results)
      exact ⟨results, rfl, hprefix.subset (List.mem_map_of_mem
        (f := fun s : Survey ↦ (s.question, some s.answer)) h)⟩

namespace Screen

/-- What the screen has been given, and the task made of it. -/
structure Backed (asked : Questions → Prop) (typed : String → Prop) (profiled : UserData → Prop)
    (s : Screen) : Prop where
  surveyOne : ∀ survey, s.surveyOne = some survey → ∀ q ∈ survey, asked q
  currentUser : ∀ user, s.currentUser = some user → profiled user
  task : ∀ tvc, s.task = some tvc → ∃ task surveyOne, tvc.Answers task (Typed typed) ∧
    task.steps = surveySteps surveyOne ∧ ∀ q ∈ surveyOne, asked q

/-- What the action brings is among the questions, the texts and the profiles. -/
def Delivers (asked : Questions → Prop) (typed : String → Prop) (profiled : UserData → Prop)
    (action : Action) : Prop :=
  (∀ snapshot survey, action = .questions snapshot →
    readCallback Questions snapshot = .delivered survey → ∀ q ∈ survey, asked q) ∧
  (∀ text, action = .task (.edit text) → typed text) ∧
  ∀ document user, action = .profile document → profileCallback document = .delivered user →
    profiled user

variable {s : Screen} {action : Action}

theorem backed_load (uid : Option String) : Backed asked typed profiled (load uid) := by
  constructor <;> simp [load]

namespace Backed

theorem handle {tvc : ORKTaskViewController} (h : Backed asked typed profiled s)
    (htask : s.task = some tvc) {event : ORKTaskViewController.Event}
    (hd : Delivers asked typed profiled (.task event)) :
    ∃ task surveyOne, (tvc.handle event).Answers task (Typed typed) ∧
      task.steps = surveySteps surveyOne ∧ ∀ q ∈ surveyOne, asked q := by
  obtain ⟨task, surveyOne, hanswers, hsteps, hasked⟩ := h.task tvc htask
  have htyped (text : String) (he : event = .edit text) : typed text := hd.2.1 text (by rw [he])
  exact ⟨task, surveyOne, hanswers.handle (admits_typed task typed) htyped, hsteps, hasked⟩

theorem getUserProfile (h : Backed asked typed profiled s) {document : Option DocumentSnapshot}
    (hd : Delivers asked typed profiled (.profile document)) :
    Backed asked typed profiled (s.getUserProfile document) := by
  unfold Screen.getUserProfile
  split
  · next user hdelivered =>
    refine ⟨h.surveyOne, ?_, h.task⟩
    rintro _ ⟨⟩
    exact hd.2.2 document user rfl hdelivered
  · exact ⟨h.surveyOne, h.currentUser, h.task⟩
  · exact ⟨h.surveyOne, h.currentUser, h.task⟩

theorem getSurveyQuestions (h : Backed asked typed profiled s) {snapshot : Option (List DocumentSnapshot)}
    (hd : Delivers asked typed profiled (.questions snapshot)) :
    Backed asked typed profiled (s.getSurveyQuestions snapshot) := by
  unfold Screen.getSurveyQuestions
  split
  · next survey hdelivered =>
    refine ⟨?_, h.currentUser, h.task⟩
    rintro _ ⟨⟩
    exact hd.1 snapshot survey rfl hdelivered
  · exact h
  · exact ⟨h.surveyOne, h.currentUser, h.task⟩

theorem didSelectRow (h : Backed asked typed profiled s) : Backed asked typed profiled s.didSelectRow := by
  have hasked : ∀ q ∈ s.surveyOne.getD [], asked q := by
    cases hs : s.surveyOne with
    | none => simp
    | some survey => exact h.surveyOne survey hs
  unfold Screen.didSelectRow
  cases hmade : setupSurveyScreen s.surveyOne with
  | error e => exact ⟨h.surveyOne, h.currentUser, h.task⟩
  | ok task =>
    have hsteps := setupSurveyScreen_steps hmade
    simp only [ORKOrderedTask.validateParameters_ok]
    refine ⟨h.surveyOne, h.currentUser, ?_⟩
    rintro _ ⟨⟩
    exact ⟨task, _, ORKTaskViewController.present_answers (admits_typed task typed), hsteps, hasked⟩

theorem step (h : Backed asked typed profiled s) (hd : Delivers asked typed profiled action) :
    Backed asked typed profiled (s.step action) := by
  by_cases hc : s.crash.isSome
  · rwa [step_crashed hc]
  · have hlive : s.crash.isSome = false := by simpa using hc
    simp only [Screen.step, hlive, Bool.false_eq_true, if_false]
    cases action with
    | profile document =>
      dsimp only
      split_ifs
      · exact h.getUserProfile hd
      · exact h
    | questions snapshot => exact h.getSurveyQuestions hd
    | selectRow =>
      dsimp only
      split_ifs
      · exact h
      · exact h.didSelectRow
    | task event =>
      cases htask : s.task with
      | none => exact h
      | some tvc =>
        dsimp only
        split
        · refine ⟨h.surveyOne, h.currentUser, ?_⟩
          rintro _ ⟨⟩
          exact h.handle htask hd
        · exact ⟨h.surveyOne, h.currentUser, by simp [Screen.didFinish]⟩
    | swipe => exact ⟨h.surveyOne, h.currentUser, by simp⟩

theorem answerable (h : Backed asked typed profiled s) (hd : Delivers asked typed profiled action)
    {x : ORKTaskViewControllerFinishReason × ORKTaskViewController} (hx : s.ending action = some x)
    {response : Survey} (hmem : response ∈ (didFinishWith s.currentUser x.2 x.1).calls) :
    Answerable asked typed profiled response := by
  obtain ⟨event, tvc, rfl, htask, htvc⟩ : ∃ event tvc, action = .task event ∧
      s.task = some tvc ∧ x.2 = tvc.handle event := by
    unfold ending at hx
    split_ifs at hx
    split at hx
    · next event tvc htask =>
      obtain ⟨reason, -, rfl⟩ := Option.map_eq_some_iff.mp hx
      exact ⟨event, tvc, rfl, htask, rfl⟩
    · cases hx
  obtain ⟨task, surveyOne, hanswers, hsteps, hasked⟩ := h.handle htask hd
  obtain ⟨user, huser, hsigned⟩ := signed_of_mem_calls x.1 hmem
  obtain ⟨results, hresults, htext⟩ := text_of_mem_calls hmem
  obtain ⟨step, hstep, hq, hid, hfits⟩ := mem_textResults hanswers (htvc ▸ hresults) htext
  obtain ⟨q, hqmem, rfl⟩ := surveySteps_question (hsteps ▸ hstep) hq
  exact ⟨⟨q, hasked q hqmem, hid.symm⟩, hfits response.answer rfl, user, h.currentUser user huser,
    hsigned⟩

end Backed

end Screen

end Croesus.FirstViewController
