import Croesus.FirstViewController.Submission
import Croesus.FirstViewController.SurveyTask
import Croesus.Library.Execution
import Croesus.Managers.FIRFirestoreService

namespace Croesus.FirstViewController

open Firestore FIRFirestoreService ResearchKit

structure Finished where
  reason : ORKTaskViewControllerFinishReason
  controller : ORKTaskViewController
  outcome : Outcome

/-- A `FirstViewController`, with the profile fetch that may still be pending,
the task it presents, the tasks that have ended, and what ended the app. -/
structure Screen where
  fetching : Bool := false
  currentUser : Option UserData := none
  surveyOne : Option (List Questions) := none
  task : Option ORKTaskViewController := none
  log : List Finished := []
  crash : Option Failure := none

/-- What can happen to the screen: the callback of the profile fetch, a call of
the listener for the questions, a tap on the row, something the user does in
the task, or the task's sheet being swiped away, which its delegate is not
told of. -/
inductive Action
  | profile (document : Option DocumentSnapshot)
  | questions (snapshot : Option (List DocumentSnapshot))
  | selectRow
  | task (event : ORKTaskViewController.Event)
  | swipe

namespace Screen

/-- `viewDidLoad`; without a uid in the keychain no profile is fetched. -/
def load (uid : Option String) : Screen := { fetching := uid.isSome }

variable (s : Screen)

def getUserProfile (document : Option DocumentSnapshot) : Screen :=
  match profileCallback document with
  | .delivered user => { s with fetching := false, currentUser := some user }
  | .nothing => { s with fetching := false }
  | .crashed failure => { s with fetching := false, crash := some failure }

def getSurveyQuestions (snapshot : Option (List DocumentSnapshot)) : Screen :=
  match readCallback Questions snapshot with
  | .delivered survey => { s with surveyOne := some survey }
  | .nothing => s
  | .crashed failure => { s with crash := some failure }

/-- `tableView(_:didSelectRowAt:)`, with the check that the task view
controller makes of its own. -/
def didSelectRow : Screen :=
  let made := do
    let task ← setupSurveyScreen s.surveyOne
    task.validateParameters
    return ORKTaskViewController.present task
  match made with
  | .error e => { s with crash := some (.raised e) }
  | .ok controller => { s with task := some controller }

def didFinish (controller : ORKTaskViewController) (reason : ORKTaskViewControllerFinishReason) :
    Screen :=
  let outcome := didFinishWith s.currentUser controller reason
  { s with
    task := none
    log := s.log ++ [⟨reason, controller, outcome⟩]
    crash := if outcome.trapped then some .trapped else none }

def step (action : Action) : Screen :=
  if s.crash.isSome then s else
  match action with
  | .profile document => if s.fetching then s.getUserProfile document else s
  | .questions snapshot => s.getSurveyQuestions snapshot
  | .selectRow => if s.task.isSome then s else s.didSelectRow
  | .task event =>
    match s.task with
    | none => s
    | some controller =>
      let controller := controller.handle event
      match controller.finished with
      | none => { s with task := some controller }
      | some reason => s.didFinish controller reason
  | .swipe => { s with task := none }

def run (uid : Option String) (actions : List Action) : Screen := actions.foldl step (load uid)

def ending (action : Action) : Option (ORKTaskViewControllerFinishReason × ORKTaskViewController) :=
  if s.crash.isSome then none else
  match action, s.task with
  | .task event, some controller =>
    (controller.handle event).finished.map fun reason ↦ (reason, controller.handle event)
  | _, _ => none

@[simp] theorem getUserProfile_surveyOne (document : Option DocumentSnapshot) :
    (s.getUserProfile document).surveyOne = s.surveyOne := by
  unfold getUserProfile; split <;> rfl

@[simp] theorem getUserProfile_log (document : Option DocumentSnapshot) :
    (s.getUserProfile document).log = s.log := by
  unfold getUserProfile; split <;> rfl

@[simp] theorem getUserProfile_task (document : Option DocumentSnapshot) :
    (s.getUserProfile document).task = s.task := by
  unfold getUserProfile; split <;> rfl

@[simp] theorem getSurveyQuestions_currentUser (snapshot : Option (List DocumentSnapshot)) :
    (s.getSurveyQuestions snapshot).currentUser = s.currentUser := by
  unfold getSurveyQuestions; split <;> rfl

@[simp] theorem didSelectRow_currentUser : s.didSelectRow.currentUser = s.currentUser := by
  unfold didSelectRow; dsimp only; split <;> rfl

@[simp] theorem getSurveyQuestions_log (snapshot : Option (List DocumentSnapshot)) :
    (s.getSurveyQuestions snapshot).log = s.log := by
  unfold getSurveyQuestions; split <;> rfl

@[simp] theorem getSurveyQuestions_task (snapshot : Option (List DocumentSnapshot)) :
    (s.getSurveyQuestions snapshot).task = s.task := by
  unfold getSurveyQuestions; split <;> rfl

@[simp] theorem didSelectRow_log : s.didSelectRow.log = s.log := by
  unfold didSelectRow; dsimp only; split <;> rfl

@[simp] theorem didSelectRow_surveyOne : s.didSelectRow.surveyOne = s.surveyOne := by
  unfold didSelectRow; dsimp only; split <;> rfl

@[simp] theorem didFinish_surveyOne (controller : ORKTaskViewController)
    (reason : ORKTaskViewControllerFinishReason) :
    (s.didFinish controller reason).surveyOne = s.surveyOne := rfl

variable {s}

theorem step_crashed (h : s.crash.isSome) (action : Action) : s.step action = s := by
  simp [step, h]

theorem run_crashed (h : s.crash.isSome) (actions : List Action) : actions.foldl step s = s := by
  induction actions with
  | nil => rfl
  | cons action actions ih => rw [List.foldl_cons, step_crashed h, ih]

theorem didSelectRow_task {controller : ORKTaskViewController}
    (h : s.didSelectRow.task = some controller) : s.task = some controller ∨
      ∃ task, setupSurveyScreen s.surveyOne = .ok task ∧
        controller = ORKTaskViewController.present task := by
  unfold didSelectRow at h
  cases hmade : setupSurveyScreen s.surveyOne with
  | error e =>
    simp only [hmade] at h
    exact .inl h
  | ok task =>
    simp only [hmade, ORKOrderedTask.validateParameters_ok] at h
    exact .inr ⟨task, rfl, (Option.some.inj h).symm⟩

/-- An open task was open before and not touched, has just been made, or has
handled an event. -/
theorem task_step (hlive : s.crash = none) {action : Action} {controller : ORKTaskViewController}
    (h : (s.step action).task = some controller) :
    (s.task = some controller ∧ ∀ event, action ≠ .task event) ∨
      (s.task = none ∧ ∃ task, setupSurveyScreen s.surveyOne = .ok task ∧
        controller = ORKTaskViewController.present task) ∨
      ∃ event before, action = .task event ∧ s.task = some before ∧
        controller = before.handle event := by
  simp only [step, hlive, Option.isSome_none, Bool.false_eq_true, if_false] at h
  cases action with
  | profile document =>
    refine .inl ⟨?_, by simp⟩
    dsimp only at h
    split_ifs at h
    · simpa using h
    · exact h
  | questions snapshot => exact .inl ⟨by simpa using h, by simp⟩
  | selectRow =>
    dsimp only at h
    split_ifs at h with hopen
    · exact .inl ⟨h, by simp⟩
    · have hnone : s.task = none := by simpa using hopen
      obtain hold | hmade := didSelectRow_task h
      · cases hnone.symm.trans hold
      · exact .inr (.inl ⟨hnone, hmade⟩)
  | task event =>
    dsimp only at h
    cases hs : s.task with
    | none => simp [hs] at h
    | some before =>
      simp only [hs] at h
      split at h
      · exact .inr (.inr ⟨event, before, rfl, rfl, (Option.some.inj h).symm⟩)
      · cases h
  | swipe => cases h

theorem ending_some {action : Action}
    {x : ORKTaskViewControllerFinishReason × ORKTaskViewController} (h : s.ending action = some x) :
    ∃ event before, action = .task event ∧ s.task = some before ∧ x.2 = before.handle event ∧
      x.2.finished = some x.1 := by
  unfold ending at h
  split_ifs at h
  split at h
  · next event before htask =>
    obtain ⟨reason, hreason, rfl⟩ := Option.map_eq_some_iff.mp h
    exact ⟨event, before, rfl, htask, rfl, hreason⟩
  · cases h

theorem currentUser_step {action : Action} {user : UserData}
    (h : (s.step action).currentUser = some user) :
    s.currentUser = some user ∨
      ∃ document, action = .profile document ∧ profileCallback document = .delivered user := by
  by_cases hc : s.crash.isSome
  · exact .inl (by rwa [step_crashed hc] at h)
  · have hlive : s.crash.isSome = false := by simpa using hc
    simp only [step, hlive, Bool.false_eq_true, if_false] at h
    cases action with
    | profile document =>
      dsimp only at h
      by_cases hf : s.fetching
      · rw [if_pos hf, getUserProfile] at h
        split at h
        · next hd =>
          obtain rfl := Option.some.inj h
          exact .inr ⟨document, rfl, hd⟩
        · exact .inl h
        · exact .inl h
      · exact .inl (by rwa [if_neg hf] at h)
    | questions snapshot => exact .inl (by simpa using h)
    | selectRow =>
      dsimp only at h
      split at h
      · exact .inl h
      · exact .inl (by simpa using h)
    | task event =>
      dsimp only at h
      split at h
      · exact .inl h
      · split at h <;> exact .inl h
    | swipe => exact .inl h

theorem log_step (action : Action) : (s.step action).log = s.log ++ ((s.ending action).map fun x ↦
    ⟨x.1, x.2, didFinishWith s.currentUser x.2 x.1⟩).toList := by
  by_cases hc : s.crash.isSome
  · simp [step_crashed hc, ending, hc]
  · have hlive : s.crash.isSome = false := by simpa using hc
    simp only [step, ending, hlive, Bool.false_eq_true, if_false]
    cases action with
    | profile document =>
      dsimp only
      split <;> simp
    | questions snapshot => simp
    | selectRow =>
      dsimp only
      split <;> simp
    | task event =>
      cases s.task with
      | none => simp
      | some controller =>
        dsimp only
        cases (controller.handle event).finished with
        | none => simp
        | some reason => rfl
    | swipe => simp

def oneSurvey : List Action :=
  [.questions (some [⟨"q", some [("Question", .string "A"), ("date", .string "May")]⟩]),
    .selectRow, .task .next, .task (.edit "x"), .task .next, .task .next, .task .next]

def annsProfile : DocumentSnapshot :=
  ⟨"u", some [("firstName", .string "Ann"), ("lastName", .string "Lee"),
    ("userEmail", .string "ann@lee"), ("photoUrl", .string "url")]⟩

end Screen

end Croesus.FirstViewController
