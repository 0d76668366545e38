import Croesus.FirstViewController.Reported
import Croesus.FirstViewController.Screen

namespace Croesus.FirstViewController

open Firestore FIRFirestoreService ResearchKit Library

/-- The form of an open task: the questions it was made with, and what has
happened in it. -/
structure Filling where
  surveyOne : List Questions
  events : List ORKTaskViewController.Event := []

namespace Filling

def form (filling : Filling) : Form := Form.run filling.surveyOne.length filling.events

def add (filling : Filling) (event : ORKTaskViewController.Event) : Filling :=
  { filling with events := filling.events ++ [event] }

/-- There is at least one question, and none is left out. -/
def IsAnswered (filling : Filling) : Prop :=
  filling.surveyOne ≠ [] ∧ filling.form.Answered filling.surveyOne.length

/-- No page was opened under the text of a question. -/
def IsClear (filling : Filling) : Prop := ClearRun filling.surveyOne filling.events

def UpToDate (filling : Filling) : Prop := filling.form.UpToDate filling.surveyOne.length

instance (filling : Filling) : Decidable filling.IsAnswered :=
  inferInstanceAs (Decidable (_ ≠ _ ∧ _))

instance (filling : Filling) : Decidable filling.IsClear :=
  inferInstanceAs (Decidable (ClearRun _ _))

instance (filling : Filling) : Decidable filling.UpToDate :=
  inferInstanceAs (Decidable (Form.UpToDate _ _))

/-- The responses answer the questions once each, in order, with what the user
has left. -/
def IsSent (filling : Filling) (finished : Finished) : Prop :=
  finished.outcome.calls.map (fun s ↦ (s.question, some s.answer)) =
    lastLeft filling.surveyOne filling.form.answers

instance (filling : Filling) (finished : Finished) : Decidable (filling.IsSent finished) :=
  inferInstanceAs (Decidable (_ = _))

/-- The task view controller is where the user has taken it. -/
def Fills (controller : ORKTaskViewController) (filling : Filling) : Prop :=
  ∃ task, setupSurveyScreen (some filling.surveyOne) = .ok task ∧
    controller = ORKTaskViewController.run task filling.events

variable {filling : Filling} {controller : ORKTaskViewController}

theorem Fills.handle (h : Fills controller filling) (event : ORKTaskViewController.Event) :
    Fills (controller.handle event) (filling.add event) := by
  obtain ⟨task, htask, rfl⟩ := h
  exact ⟨task, htask, by simp [ORKTaskViewController.run, add]⟩

theorem lastLeft_ne_nil {surveyOne : List Questions} (h : surveyOne ≠ []) (answers : ℕ → Answer) :
    lastLeft surveyOne answers ≠ [] := by
  simpa [lastLeft, List.zipIdx_eq_nil_iff] using h

theorem calls_incomplete {controller : ORKTaskViewController} {currentUser : Option UserData}
    (h : ¬ currentUser.any UserData.isComplete) (reason : ORKTaskViewControllerFinishReason) :
    (didFinishWith currentUser controller reason).calls = [] := by
  rw [List.eq_nil_iff_forall_not_mem]
  intro response hresponse
  obtain ⟨user, rfl, hsigned⟩ := signed_of_mem_calls reason hresponse
  have hcomplete := surveyResponse_isSome user response.question (some response.answer)
  rw [hsigned] at hcomplete
  exact h (by simpa using hcomplete.symm)

/-- A completed form is sent exactly if the profile is there with all that a
response is signed with, and no answer was revised in the review without its
page being shown again. -/
theorem Fills.sent_iff (h : Fills controller filling) (hdone : controller.finished = some .completed)
    (hanswered : filling.IsAnswered) (hclear : filling.IsClear) (currentUser : Option UserData) :
    filling.IsSent ⟨.completed, controller, didFinishWith currentUser controller .completed⟩ ↔
      currentUser.any UserData.isComplete ∧ filling.UpToDate := by
  obtain ⟨task, htask, rfl⟩ := h
  obtain ⟨vc, hs⟩ := completed_onStep htask hclear hdone
  rw [IsSent]
  by_cases hu : currentUser.any UserData.isComplete
  · obtain ⟨userData, rfl, hcomplete⟩ := (Option.any_eq_true _ _).mp hu
    rw [and_iff_right hu]
    exact calls_lastLeft_iff hs hcomplete hanswered.2 .completed
  · refine iff_of_false (fun hsent ↦ ?_) fun hand ↦ hu hand.1
    rw [calls_incomplete hu .completed] at hsent
    exact lastLeft_ne_nil hanswered.1 _ hsent.symm

end Filling

/-- The screen with what was done on it: the form that is being filled in, and
those that were completed. -/
structure Surveyed where
  screen : Screen
  filling : Option Filling := none
  completed : List Filling := []

namespace Surveyed

def load (uid : Option String) : Surveyed := { screen := Screen.load uid }

variable (s : Surveyed) (action : Action)

def completing : Option Filling :=
  match action, s.filling with
  | .task event, some filling =>
    if (s.screen.ending action).map Prod.fst = some .completed then some (filling.add event) else none
  | _, _ => none

/-- The form that is open after the step. -/
def refill : Option Filling :=
  if (s.screen.step action).task.isNone then none
  else match s.filling, action with
    | none, _ => some { surveyOne := s.screen.surveyOne.getD [] }
    | some filling, .task event => some (filling.add event)
    | some filling, _ => some filling

def step : Surveyed :=
  if s.screen.crash.isSome then s
  else
    { screen := s.screen.step action
      filling := s.refill action
      completed := s.completed ++ (s.completing action).toList }

def run (uid : Option String) (actions : List Action) : Surveyed := actions.foldl step (load uid)

/-- A form that is completed now has questions, all of them answered. -/
def Answering : Prop := ∀ filling ∈ s.completing action, filling.IsAnswered

def Clearing : Prop := ∀ filling ∈ s.completing action, filling.IsClear

/-- If a form is completed now, the profile has arrived, with both names and the
email, and no answer was revised in the review without its page being shown
again. -/
def Ready : Prop := ∀ filling ∈ s.completing action,
  s.screen.currentUser.any UserData.isComplete ∧ filling.UpToDate

/-- The completed forms were sent, each by the `didFinishWith` of its own. -/
def NoLoss (completed : List Filling) (log : List Finished) : Prop :=
  List.Forall₂ Filling.IsSent completed (log.filter fun finished ↦ finished.reason = .completed)

instance : Decidable (s.Answering action) :=
  inferInstanceAs (Decidable (∀ filling ∈ s.completing action, _))

instance : Decidable (s.Clearing action) :=
  inferInstanceAs (Decidable (∀ filling ∈ s.completing action, _))

instance : Decidable (s.Ready action) :=
  inferInstanceAs (Decidable (∀ filling ∈ s.completing action, _))

instance (completed : List Filling) (log : List Finished) : Decidable (NoLoss completed log) :=
  inferInstanceAs (Decidable (List.Forall₂ _ _ _))

theorem step_screen : (s.step action).screen = s.screen.step action := by
  unfold step
  split_ifs with hcrash
  · rw [Screen.step_crashed hcrash]
  · rfl

theorem run_screen (uid : Option String) (actions : List Action) :
    (run uid actions).screen = Screen.run uid actions :=
  (List.foldl_hom Surveyed.screen fun s action ↦ (step_screen s action).symm).symm

/-- What is filled in is the open task. -/
structure Filled : Prop where
  filled : ∀ controller, s.screen.task = some controller →
    ∃ filling, s.filling = some filling ∧ Filling.Fills controller filling
  closed : s.screen.task = none → s.filling = none

variable {s action}

theorem filled_load (uid : Option String) : (load uid).Filled :=
  ⟨by simp [load, Screen.load], fun _ ↦ rfl⟩

theorem refill_fills (h : s.Filled) (hlive : s.screen.crash = none) {action : Action}
    {controller : ORKTaskViewController} (htask : (s.screen.step action).task = some controller) :
    ∃ filling, s.refill action = some filling ∧ Filling.Fills controller filling := by
  unfold refill
  rw [htask]
  obtain ⟨hold, hother⟩ | ⟨hnone, task, hmade, rfl⟩ | ⟨event, before, rfl, hbefore, rfl⟩ :=
    Screen.task_step hlive htask
  · obtain ⟨filling, hfilling, hfills⟩ := h.filled controller hold
    rw [hfilling]
    cases action with
    | task event => exact absurd rfl (hother event)
    | _ => exact ⟨filling, rfl, hfills⟩
  · rw [h.closed hnone]
    exact ⟨_, rfl, task, hmade, rfl⟩
  · obtain ⟨filling, hfilling, hfills⟩ := h.filled before hbefore
    rw [hfilling]
    exact ⟨_, rfl, hfills.handle event⟩

theorem filled_step (h : s.Filled) (action : Action) : (s.step action).Filled := by
  unfold step
  split_ifs with hcrash
  · exact h
  · refine ⟨fun controller htask ↦ refill_fills h (by simpa using hcrash) htask, fun hnone ↦ ?_⟩
    have hclosed : (s.screen.step action).task = none := hnone
    simp [refill, hclosed]

/-- The forms that are completed are those whose task ends completed. -/
theorem completing_cases (h : s.Filled) (action : Action) :
    (s.completing action = none ∧
      ∀ x, s.screen.ending action = some x → x.1 ≠ .completed) ∨
    ∃ filling controller, s.completing action = some filling ∧
      s.screen.ending action = some (.completed, controller) ∧ Filling.Fills controller filling ∧
      controller.finished = some .completed := by
  cases hending : s.screen.ending action with
  | none =>
    refine .inl ⟨?_, by simp⟩
    unfold completing
    split
    · simp [hending]
    · rfl
  | some x =>
    obtain ⟨event, before, rfl, hbefore, hx, hfinished⟩ := Screen.ending_some hending
    obtain ⟨filling, hfilling, hfills⟩ := h.filled before hbefore
    by_cases hdone : x.1 = .completed
    · refine .inr ⟨filling.add event, x.2, by simp [completing, hfilling, hending, hdone],
        by rw [← hdone], ?_, by rw [hfinished, hdone]⟩
      rw [hx]
      exact hfills.handle event
    · refine .inl ⟨by simp [completing, hfilling, hending, hdone], ?_⟩
      rintro _ ⟨⟩
      exact hdone

theorem completing_crashed (h : s.screen.crash.isSome) (action : Action) :
    s.completing action = none := by
  unfold completing
  split
  · simp [Screen.ending, h]
  · rfl

theorem step_completed (s : Surveyed) (action : Action) :
    (s.step action).completed = s.completed ++ (s.completing action).toList := by
  unfold step
  split_ifs with hcrash
  · simp [completing_crashed hcrash]
  · rfl

theorem noLoss_step (h : s.Filled) (hanswering : s.Answering action)
    (hclearing : s.Clearing action) :
    NoLoss (s.step action).completed (s.step action).screen.log ↔
      NoLoss s.completed s.screen.log ∧ s.Ready action := by
  rw [NoLoss, step_completed, step_screen, Screen.log_step, Ready, NoLoss, List.filter_append]
  obtain ⟨hnone, hother⟩ | ⟨filling, controller, hsome, hending, hfills, hdone⟩ :=
    completing_cases h action
  · have hnew : ((s.screen.ending action).map fun x ↦
        (⟨x.1, x.2, didFinishWith s.screen.currentUser x.2 x.1⟩ : Finished)).toList.filter
          (fun finished ↦ finished.reason = .completed) = [] := by
      cases hending : s.screen.ending action with
      | none => rfl
      | some x => simp [hother x hending]
    rw [hnew, hnone]
    simp
  · have hsent := hfills.sent_iff hdone (hanswering filling hsome) (hclearing filling hsome)
      s.screen.currentUser
    rw [hending, hsome]
    simp only [Option.map_some, Option.toList_some, decide_true, List.filter_singleton,
      cond_true, Lists.forall₂_concat, Option.mem_def, Option.some.injEq, forall_eq']
    rw [hsent]

/-- Two questions, the second of which is put right on the way back from the
review. -/
def revisedSurvey : List Action :=
  [.questions (some [⟨"q", some [("Question", .string "A"), ("date", .string "May")]⟩,
      ⟨"r", some [("Question", .string "B"), ("date", .string "May")]⟩]),
    .selectRow, .task .next, .task (.edit "x"), .task .next, .task (.edit "y"), .task .next,
    .task .back, .task (.edit "z"), .task .next, .task .next, .task .next]

/-- In every order of callbacks and user actions, no completed form is lost
exactly if each is completed after the profile has arrived, and with no answer
that was revised in the review without its page being shown again. -/
theorem noLoss_iff (uid : Option String) (actions : List Action)
    (hanswering : Execution.Along step Answering (load uid) actions)
    (hclearing : Execution.Along step Clearing (load uid) actions) :
    NoLoss (run uid actions).completed (Screen.run uid actions).log ↔
      Execution.Along step Ready (load uid) actions := by
  have hrun := Execution.foldl_iff_along (Q := fun s : Surveyed ↦ NoLoss s.completed s.screen.log)
    (fun _ action h ↦ filled_step h action)
    (fun _ _ h hmeets ↦ noLoss_step h hmeets.1 hmeets.2) (filled_load uid)
    (Execution.along_and hanswering hclearing)
  rw [← run_screen]
  exact hrun.trans (and_iff_right .nil)

theorem noLoss_profile_first :
    NoLoss (run (some "u") (.profile Screen.annsProfile :: revisedSurvey)).completed
      (Screen.run (some "u") (.profile Screen.annsProfile :: revisedSurvey)).log :=
  (noLoss_iff (some "u") (.profile Screen.annsProfile :: revisedSurvey) (by decide +kernel)
    (by decide +kernel)).mpr (by decide +kernel)

/-- A survey that is completed before the profile arrives is lost. -/
theorem noLoss_profile_late :
    ¬ ∀ (uid : String) (actions : List Action),
      Execution.Along step Answering (load (some uid)) actions →
      (∀ document, .profile document ∈ actions →
        ∃ user, profileCallback document = .delivered user ∧ user.isComplete) →
      (Screen.run (some uid) actions).fetching = false →
      NoLoss (run (some uid) actions).completed (Screen.run (some uid) actions).log := by
  intro h
  have hp (document) (hm : Action.profile document ∈ Screen.oneSurvey ++ [.profile Screen.annsProfile]) :
      ∃ user, profileCallback document = .delivered user ∧ user.isComplete := by
    have heq : document = some Screen.annsProfile := by simpa [Screen.oneSurvey] using hm
    exact ⟨⟨some "u", "Ann", "Lee", "ann@lee", "url"⟩, by rw [heq]; rfl, by decide⟩
  exact absurd (h "u" (Screen.oneSurvey ++ [.profile Screen.annsProfile]) (by decide +kernel) hp
    (by decide +kernel)) (by decide +kernel)

end Surveyed

end Croesus.FirstViewController
