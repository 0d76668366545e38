import Croesus.Models
import Croesus.ResearchKit.ManagedResults

namespace Croesus.FirstViewController

open ResearchKit

/-- What handling a finished task leaves behind: the calls made to
`addSurveyResponse`, and whether a nil that was unwrapped ended the app. -/
structure Outcome where
  calls : List Survey := []
  trapped : Bool := false
  deriving DecidableEq

def Outcome.andThen (o next : Outcome) : Outcome :=
  if o.trapped then o else ⟨o.calls ++ next.calls, next.trapped⟩

def surveyResponse (userData : UserData) (question : String) (textAnswer : Option String) :
    Option Survey := do
  let answer ← textAnswer
  let firstName ← userData.firstName
  let lastName ← userData.lastName
  let email ← userData.userEmail
  return ⟨question, answer, firstName ++ " " ++ lastName, email⟩

def sendAnswer (userData : UserData) : ORKResult → Outcome
  | .textQuestionResult question textAnswer =>
    match surveyResponse userData question textAnswer with
    | none => ⟨[], true⟩
    | some response => ⟨[response], false⟩
  | _ => {}

def sendStepResult (userData : UserData) : ORKResult → Outcome
  | .stepResult _ results => results.foldr (fun r next ↦ (sendAnswer userData r).andThen next) {}
  | _ => {}

def sendSurveyData (currentUser : Option UserData) (surveyResult : List ORKResult) : Outcome :=
  -- the guard returns without a word if there is no profile yet
  match currentUser with
  | none => {}
  | some userData =>
    surveyResult.foldr (fun r next ↦ (sendStepResult userData r).andThen next) {}

/-- The delegate's method, which does not look at the reason. -/
def didFinishWith (currentUser : Option UserData) (tvc : ORKTaskViewController)
    (_reason : ORKTaskViewControllerFinishReason) : Outcome :=
  match tvc.result with
  -- the assertion in `managedResults`
  | none => ⟨[], true⟩
  | some results => sendSurveyData currentUser results

def asTextQuestionResult : ORKResult → Option (String × Option String)
  | .textQuestionResult question textAnswer => some (question, textAnswer)
  | _ => none

/-- The text results inside the step results, with their answers. -/
def textResults (surveyResult : List ORKResult) : List (String × Option String) :=
  surveyResult.flatMap fun
    | .stepResult _ results => results.filterMap asTextQuestionResult
    | _ => []

def answered (surveyResult : List ORKResult) : List (String × String) :=
  (textResults surveyResult).filterMap fun (question, textAnswer) ↦ textAnswer.map (question, ·)

namespace Outcome

theorem andThen_assoc (o o' o'' : Outcome) :
    (o.andThen o').andThen o'' = o.andThen (o'.andThen o'') := by
  cases h : o.trapped <;> cases h' : o'.trapped <;> simp [andThen, h, h']

end Outcome

def sendText (userData : UserData) (x : String × Option String) : Outcome :=
  sendAnswer userData (.textQuestionResult x.1 x.2)

/-- The nested loops send the text results one after the other. -/
def sendTexts (userData : UserData) (texts : List (String × Option String)) : Outcome :=
  texts.foldr (fun x next ↦ (sendText userData x).andThen next) {}

variable {userData : UserData}

@[simp] theorem sendTexts_nil : sendTexts userData [] = {} := rfl

@[simp] theorem sendTexts_cons (x : String × Option String) (texts : List (String × Option String)) :
    sendTexts userData (x :: texts) = (sendText userData x).andThen (sendTexts userData texts) := rfl

theorem sendTexts_append (texts texts' : List (String × Option String)) :
    sendTexts userData (texts ++ texts') =
      (sendTexts userData texts).andThen (sendTexts userData texts') := by
  induction texts with
  | nil => rfl
  | cons x texts ih => simp only [List.cons_append, sendTexts_cons, ih, Outcome.andThen_assoc]

theorem sendStepResult_eq (r : ORKResult) :
    sendStepResult userData r = sendTexts userData (textResults [r]) := by
  cases r with
  | stepResult identifier results =>
    simp only [sendStepResult, textResults, List.flatMap_singleton]
    induction results with
    | nil => rfl
    | cons r results ih =>
      cases r <;> simp only [List.foldr_cons, List.filterMap_cons, asTextQuestionResult, ih]
      · rfl
      · rfl
      · rfl
  | textQuestionResult _ _ | otherResult _ => rfl

theorem sendSurveyData_eq (surveyResult : List ORKResult) :
    sendSurveyData (some userData) surveyResult = sendTexts userData (textResults surveyResult) := by
  simp only [sendSurveyData]
  induction surveyResult with
  | nil => rfl
  | cons r rs ih =>
    have hsplit : textResults (r :: rs) = textResults [r] ++ textResults rs := by
      simp [textResults]
    rw [List.foldr_cons, ih, sendStepResult_eq, hsplit, sendTexts_append]

theorem surveyResponse_isSome (userData : UserData) (question : String) (textAnswer : Option String) :
    (surveyResponse userData question textAnswer).isSome =
      (userData.isComplete && textAnswer.isSome) := by
  rcases userData with ⟨id, first, last, email, photo⟩
  cases textAnswer <;> cases first <;> cases last <;> cases email <;> rfl

theorem surveyResponse_some {question : String} {textAnswer : Option String} {response : Survey}
    (h : surveyResponse userData question textAnswer = some response) :
    response.question = question ∧ textAnswer = some response.answer := by
  simp only [surveyResponse, Option.bind_eq_bind, Option.bind_eq_some_iff] at h
  obtain ⟨answer, rfl, _, -, _, -, _, -, he⟩ := h
  cases he
  exact ⟨rfl, rfl⟩

theorem sendTexts_trapped (texts : List (String × Option String)) :
    (sendTexts userData texts).trapped = false ↔
      ∀ x ∈ texts, userData.isComplete ∧ x.2.isSome := by
  induction texts with
  | nil => simp
  | cons x texts ih =>
    have hs := surveyResponse_isSome userData x.1 x.2
    cases hr : surveyResponse userData x.1 x.2 with
    | none =>
      have hx : ¬ (userData.isComplete ∧ x.2.isSome) := by simpa [hr] using hs.symm
      simp [sendText, sendAnswer, hr, Outcome.andThen, hx]
    | some response =>
      have hx : userData.isComplete ∧ x.2.isSome := by simpa [hr] using hs.symm
      simp [sendText, sendAnswer, hr, Outcome.andThen, hx, ih]

theorem sendTexts_calls (texts : List (String × Option String))
    (h : (sendTexts userData texts).trapped = false) :
    (sendTexts userData texts).calls.map (fun s ↦ (s.question, some s.answer)) = texts := by
  induction texts with
  | nil => rfl
  | cons x texts ih =>
    have hx := (sendTexts_trapped (x :: texts)).mp h x (by simp)
    obtain ⟨response, hr⟩ : ∃ response, surveyResponse userData x.1 x.2 = some response := by
      rw [← Option.isSome_iff_exists, surveyResponse_isSome]
      simpa using hx
    obtain ⟨hq, ha⟩ := surveyResponse_some hr
    have ht : (sendTexts userData texts).trapped = false := by
      rw [sendTexts_trapped] at h ⊢
      exact fun y hy ↦ h y (by simp [hy])
    simp [sendText, sendAnswer, hr, Outcome.andThen, ih ht, hq, ← ha]

/-- Whatever cuts it off, sending has gone through the text results in order. -/
theorem sendTexts_prefix (userData : UserData) (texts : List (String × Option String)) :
    (sendTexts userData texts).calls.map (fun s ↦ (s.question, some s.answer)) <+: texts := by
  induction texts with
  | nil => exact List.prefix_refl _
  | cons x texts ih =>
    cases hr : surveyResponse userData x.1 x.2 with
    | none => simp [sendText, sendAnswer, hr, Outcome.andThen]
    | some response =>
      obtain ⟨hq, ha⟩ := surveyResponse_some hr
      have hx : (response.question, some response.answer) = x := by rw [hq, ← ha]
      simpa [sendText, sendAnswer, hr, Outcome.andThen, hx] using ih

theorem signed_of_mem_sendTexts {texts : List (String × Option String)} {response : Survey}
    (h : response ∈ (sendTexts userData texts).calls) :
    surveyResponse userData response.question (some response.answer) = some response := by
  induction texts with
  | nil => cases h
  | cons x texts ih =>
    cases hr : surveyResponse userData x.1 x.2 with
    | none => simp [sendText, sendAnswer, hr, Outcome.andThen] at h
    | some first =>
      have hmem : response = first ∨ response ∈ (sendTexts userData texts).calls := by
        simpa [sendText, sendAnswer, hr, Outcome.andThen] using h
      obtain rfl | hmem := hmem
      · obtain ⟨hq, ha⟩ := surveyResponse_some hr
        rw [hq, ← ha, hr]
      · exact ih hmem

theorem signed_of_mem_calls {currentUser : Option UserData} {controller : ORKTaskViewController}
    (reason : ORKTaskViewControllerFinishReason) {response : Survey}
    (h : response ∈ (didFinishWith currentUser controller reason).calls) :
    ∃ user, currentUser = some user ∧
      surveyResponse user response.question (some response.answer) = some response := by
  rw [didFinishWith] at h
  cases hr : controller.result with
  | none => simp [hr] at h
  | some results =>
    cases currentUser with
    | none => simp [hr, sendSurveyData] at h
    | some user =>
      rw [hr] at h
      exact ⟨user, rfl, signed_of_mem_sendTexts (by simpa only [sendSurveyData_eq] using h)⟩

theorem answered_of_calls {calls : List Survey} {results : List ORKResult}
    (h : calls.map (fun s ↦ (s.question, some s.answer)) = textResults results) :
    calls.map (fun s ↦ (s.question, s.answer)) = answered results := by
  rw [answered, ← h, List.filterMap_map]
  exact (List.filterMap_eq_map' (f := fun s : Survey ↦ (s.question, s.answer))).symm ▸ rfl

end Croesus.FirstViewController
