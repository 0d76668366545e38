import Croesus.FirstViewController.Provenance
import Croesus.Session.Integrity

namespace Croesus.Session

open Firestore FIRFirestoreService FirstViewController Library

/-- The questions that a snapshot among the actions has brought. -/
def Asked (actions : List Action) (q : Questions) : Prop :=
  ∃ snapshot survey, .survey (.questions snapshot) ∈ actions ∧
    readCallback Questions snapshot = .delivered survey ∧ q ∈ survey

/-- The texts that were typed into the fields of the surveys. -/
def Entered (actions : List Action) (text : String) : Prop := .survey (.task (.edit text)) ∈ actions

/-- The profiles that a fetch among the actions has brought. -/
def Profiled (actions : List Action) (user : UserData) : Prop :=
  ∃ document, .survey (.profile document) ∈ actions ∧ profileCallback document = .delivered user

namespace App

variable (app : App) (action : Action)

@[simp] theorem presentFrom_root (sender : ℕ) (sheet : Sheet) :
    (app.presentFrom sender sheet).root = app.root :=
  (SameSession.presentFrom app sender sheet).root

@[simp] theorem presentPersonalInformation_root (sender : ℕ) :
    (app.presentPersonalInformation sender).root = app.root := by
  unfold presentPersonalInformation setupUserListeners
  split
  · split <;> rfl
  · rfl

/-- The root either stays, is loaded anew, or is the tab bar controller whose
screen takes a step. -/
theorem root_act : (app.act action).root = app.root ∨ (app.act action).root = .root ∨
    (∃ uid, (app.act action).root = .tab uid (Screen.load uid)) ∨
    ∃ a uid screen, action = .survey a ∧ app.root = .tab uid screen ∧
      (app.act action).root = .tab uid (screen.step a) := by
  cases action with
  | launch =>
    right
    simp only [act, launch, App.presentLogin]
    split
    · exact .inr (.inl ⟨_, rfl⟩)
    · exact .inl rfl
  | edit field text => exact .inl (SameSession.edit app field text).root
  | loginButton => exact .inl (SameSession.login app).root
  | showRegistration => exact .inl (SameSession.showRegistration app).root
  | registerButton => exact .inl (SameSession.registerUser app).root
  | answer n result =>
    simp only [act, App.answer]
    split
    · exact .inl rfl
    · next x _ =>
      obtain ⟨sender, request⟩ := x
      cases request with
      | login email password =>
        cases result with
        | error description => exact .inl (by simp [answered, loginAnswered])
        | ok user => exact .inr (.inr (.inl ⟨_, rfl⟩))
      | createUser email password =>
        left
        cases result with
        | error description => simp [answered, userCreated]
        | ok user =>
          simp only [answered, userCreated]
          split <;> simp
      | signIn email password =>
        left
        cases result <;> simp [answered, signInAnswered]
  | photo url => exact .inl (SameSession.photo app url).root
  | submitInformation =>
    simp only [act, submitInformation]
    split
    · unfold sendUserData
      split
      · exact .inl rfl
      · exact .inl rfl
      · exact .inl rfl
      · split
        · exact .inr (.inr (.inl ⟨_, rfl⟩))
        · exact .inl rfl
        · exact .inl rfl
    · exact .inl rfl
  | dismiss => exact .inl (SameSession.dismiss app).root
  | logout removed =>
    simp only [act, logout]
    split
    · split_ifs
      · exact .inl rfl
      · exact .inl rfl
    · exact .inl rfl
  | survey a =>
    simp only [act, survey]
    split
    · exact .inl rfl
    · next uid screen hroot =>
      split_ifs
      · exact .inr (.inr (.inr ⟨a, uid, screen, rfl, hroot, rfl⟩))
      · exact .inl rfl
  | questions snapshot =>
    obtain ⟨crash, heq⟩ := questions_eq app snapshot
    exact .inl (by rw [act, heq])
  | profile n document =>
    obtain ⟨fetches, crash, heq⟩ := profile_eq app n document
    exact .inl (by rw [act, heq])

/-- All that is stored can be accounted for, and so can what is stored next. -/
structure Attributed (asked : Questions → Prop) (typed : String → Prop)
    (profiled : UserData → Prop) : Prop where
  responses : ∀ response ∈ app.responses, Answerable asked typed profiled response
  screen : ∀ uid screen, app.root = .tab uid screen → screen.Backed asked typed profiled

variable {app action} {asked : Questions → Prop} {typed : String → Prop}
  {profiled : UserData → Prop}

theorem answerable_of_mem_written {screen : Screen} {a : FirstViewController.Action}
    (h : screen.Backed asked typed profiled) (hd : Screen.Delivers asked typed profiled a)
    {response : Survey} (hmem : response ∈ written screen a) :
    Answerable asked typed profiled response := by
  rw [written, Screen.log_step, List.drop_left] at hmem
  obtain ⟨finished, hf, hcalls⟩ := List.mem_flatMap.mp hmem
  obtain ⟨x, hx, rfl⟩ : ∃ x, screen.ending a = some x ∧
      (⟨x.1, x.2, didFinishWith screen.currentUser x.2 x.1⟩ : Finished) = finished := by
    simpa using hf
  exact h.answerable hd hx hcalls

theorem Attributed.step (h : Attributed app asked typed profiled)
    (hd : ∀ a, action = .survey a → Screen.Delivers asked typed profiled a) :
    Attributed (app.step action) asked typed profiled := by
  obtain heq | heq := step_eq app action
  · rw [heq]
    constructor
    · intro response hmem
      obtain hsame | ⟨a, uid, screen, rfl, hroot, -, hadded⟩ := responses_act app action
      · exact h.responses response (hsame ▸ hmem)
      · rcases List.mem_append.mp (hadded ▸ hmem) with hold | hnew
        · exact h.responses response hold
        · exact answerable_of_mem_written (h.screen uid screen hroot) (hd a rfl) hnew
    · intro uid screen hscreen
      obtain hsame | hnone | ⟨loaded, hload⟩ | ⟨a, uid', screen', rfl, hroot, hstep⟩ :=
        root_act app action
      · exact h.screen uid screen (hsame ▸ hscreen)
      · cases hnone.symm.trans hscreen
      · cases hload.symm.trans hscreen
        exact Screen.backed_load uid
      · cases hstep.symm.trans hscreen
        exact (h.screen uid screen' hroot).step (hd a rfl)
  · rwa [heq]

/-- Every response that was ever stored answers a question that was asked,
with a text that was typed, and is signed with a profile that was fetched. -/
theorem answerable_run (accounts : List String) (actions : List Action) {response : Survey}
    (h : response ∈ (run { accounts := accounts } actions).responses) :
    Answerable (Asked actions) (Entered actions) (Profiled actions) response := by
  have hdelivers : ∀ action ∈ actions, ∀ a, action = .survey a →
      Screen.Delivers (Asked actions) (Entered actions) (Profiled actions) a := by
    rintro _ hmem a rfl
    refine ⟨?_, ?_, ?_⟩
    · rintro snapshot survey rfl hread q hq
      exact ⟨snapshot, survey, hmem, hread, hq⟩
    · rintro text rfl
      exact hmem
    · rintro document user rfl hread
      exact ⟨document, hmem, hread⟩
  have hrun : Attributed (run { accounts := accounts } actions) (Asked actions) (Entered actions)
      (Profiled actions) := by
    refine Execution.invariant_along
      (I := (Attributed · (Asked actions) (Entered actions) (Profiled actions)))
      (P := fun _ action ↦ action ∈ actions) ?_ ?_ ?_
    · intro app action hattributed hmem
      exact hattributed.step (hdelivers action hmem)
    · constructor <;> simp
    · exact Execution.along_of_forall (fun _ hmem _ ↦ hmem) _
  exact hrun.responses response h

theorem answerable_signedIn : Answerable (Asked (annSignsIn ++ surveyed))
    (Entered (annSignsIn ++ surveyed)) (Profiled (annSignsIn ++ surveyed)) ⟨"A", "x", "Ann Lee", "ann@lee"⟩ :=
  answerable_run ["u"] (annSignsIn ++ surveyed) (by decide +kernel)

end App

end Croesus.Session
