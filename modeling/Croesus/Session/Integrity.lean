import Croesus.Firestore.Decoding
import Croesus.Managers.Profile
import Croesus.Session.App

namespace Croesus.Session.App

open Firestore FIRFirestoreService FirstViewController Library

variable (app : App) (action : Action)

def adds : List Survey := (app.step action).responses.drop app.responses.length

/-- Whatever is written is signed with the profile of the user in the keychain,
who is also the current user of Firebase Auth. -/
def Sound : Prop :=
  ∀ response ∈ app.adds action,
    app.keychain.isSome ∧ app.authUser.map User.uid = app.keychain ∧
      ∃ user ∈ app.root.currentUser, user.id = app.keychain ∧
        surveyResponse user response.question (some response.answer) = some response

instance : Decidable (app.Sound action) :=
  inferInstanceAs (Decidable (∀ response ∈ app.adds action, _))

/-- The login screen over the tab bar controller is not dismissed, and once the
tab bar controller is shown, no registration that is still going on makes
another user the current one. -/
def isSettled : Action → Bool
  | .dismiss => !(app.root.isTab && app.presented.length = 1)
  | .answer n (.ok user) =>
    match app.requests[n]? with
    | none | some (_, .login _ _) => true
    | some (_, .createUser _ _) | some (_, .signIn _ _) =>
      app.isEntering || app.authUser.map User.uid = some user.uid
  | _ => true

def AuthAgrees : Prop := ∀ uid, app.keychain = some uid → app.authUser.map User.uid = some uid

def ProfileAgrees : Prop :=
  ∀ user, app.root.currentUser = some user → user.id.isSome ∧ app.root.uid = user.id

/-- The places that hold an identity agree, as far as they are in use. -/
structure Consistent : Prop where
  auth : app.AuthAgrees
  profile : app.ProfileAgrees
  entering : app.isEntering → app.keychain = none ∨ app.listening
  shown : app.isEntering = false → app.root.uid = app.keychain

variable {app action}

theorem isEntering_of_isOnTop {sender : ℕ} (h : app.isOnTop sender) : app.isEntering := by
  cases hp : app.presented with
  | nil => simp [isOnTop, hp] at h
  | cons x rest => simp [isEntering, hp]

@[simp] theorem isEntering_present (sheet : Sheet) : (app.present sheet).isEntering := by
  simp [isEntering, present]

@[simp] theorem isEntering_segueToTabController : app.segueToTabController.isEntering = false := by
  simp [isEntering, segueToTabController, Root.isTab]

@[simp] theorem isEntering_stateDidChange (user : User) :
    (app.stateDidChange user).isEntering = app.isEntering := by
  simp [isEntering, stateDidChange]

namespace Consistent

theorem installed (accounts : List String) : Consistent { accounts := accounts } where
  auth := by simp [AuthAgrees]
  profile := by simp [ProfileAgrees, Root.currentUser]
  entering _ := .inl rfl
  shown h := by simp [isEntering, Root.isTab] at h

theorem congr (h : Consistent app) {app' : App} (hs : SameSession app app')
    (he : app'.isEntering = app.isEntering) : Consistent app' where
  auth := by
    rw [AuthAgrees, hs.keychain, hs.authUser]
    exact h.auth
  profile := by
    rw [ProfileAgrees, hs.root]
    exact h.profile
  entering := by
    rw [he, hs.keychain, hs.listening]
    exact h.entering
  shown := by
    rw [he, hs.keychain, hs.root]
    exact h.shown

theorem present (hauth : app.AuthAgrees) (hprofile : app.ProfileAgrees)
    (h : app.keychain = none ∨ app.listening) (sheet : Sheet) : Consistent (app.present sheet) :=
  ⟨hauth, hprofile, fun _ ↦ h, by simp⟩

theorem presentFrom (h : Consistent app) (sender : ℕ) (sheet : Sheet) :
    Consistent (app.presentFrom sender sheet) := by
  apply h.congr (SameSession.presentFrom app sender sheet)
  rw [App.presentFrom]
  split_ifs with ht
  · simp [isEntering_of_isOnTop ht]
  · rfl

theorem segueToTabController (h : app.AuthAgrees) : Consistent app.segueToTabController where
  auth := h
  profile := by simp [ProfileAgrees, App.segueToTabController, Root.currentUser, Screen.load]
  entering := by simp
  shown _ := rfl

theorem presentLogin (hauth : app.AuthAgrees) (hprofile : app.ProfileAgrees) :
    Consistent app.presentLogin := by
  rw [App.presentLogin]
  split_ifs with hk
  · exact segueToTabController hauth
  · exact present hauth hprofile (.inl (by simpa using hk)) _

theorem launch (h : Consistent app) : Consistent app.launch :=
  presentLogin h.auth (by simp [ProfileAgrees, Root.currentUser])

theorem stateDidChange {user : User} (hprofile : app.ProfileAgrees) (he : app.isEntering)
    (hl : app.listening) (ha : app.authUser = some user) : Consistent (app.stateDidChange user) where
  auth := by simp [AuthAgrees, App.stateDidChange, ha]
  profile := hprofile
  entering _ := .inr hl
  shown := by simp [he]

/-- On the way in the keychain follows Firebase Auth if there is a listener,
and is empty otherwise. -/
theorem signedIn (h : Consistent app) {user : User}
    (he : app.isEntering ∨ app.authUser.map User.uid = some user.uid) :
    Consistent (app.signedIn user) := by
  rw [App.signedIn]
  split_ifs with ht
  · obtain ⟨hl, hne⟩ : app.listening = true ∧ app.authUser.map User.uid ≠ some user.uid := by
      simpa [isTold] using ht
    exact stateDidChange h.profile (he.resolve_right hne) hl rfl
  -- no listener is told, so the keychain has to name the new user already
  · refine ⟨fun uid hk ↦ ?_, h.profile, h.entering, h.shown⟩
    have hold : app.authUser.map User.uid = some uid := h.auth uid hk
    have hsame : app.authUser.map User.uid = some user.uid := by
      obtain he | he := he
      · have hl : app.listening := (h.entering he).resolve_left fun hn ↦ by
          cases hn.symm.trans hk
        simpa [isTold, hl] using ht
      · exact he
    exact hsame.symm.trans hold

theorem presentPersonalInformation (h : Consistent app) (sender : ℕ) :
    Consistent (app.presentPersonalInformation sender) := by
  rw [App.presentPersonalInformation]
  split_ifs with ht
  · rw [setupUserListeners]
    split
    · exact ⟨h.auth, h.profile, fun _ ↦ .inr rfl, by simp [isEntering, App.present]⟩
    · exact stateDidChange h.profile (by simp [isEntering, App.present]) rfl ‹_›
  · exact h

theorem loginAnswered (h : Consistent app) (sender : ℕ) (answer : Except String User) :
    Consistent (app.loginAnswered sender answer) := by
  cases answer with
  | error description => exact h.presentFrom sender _
  | ok user =>
    apply segueToTabController
    intro uid hk
    have huid : some user.uid = some uid := hk
    simpa using huid

theorem userCreated (h : Consistent app) (sender : ℕ) {answer : Except String User}
    (hs : ∀ user, answer = .ok user →
      app.isEntering ∨ app.authUser.map User.uid = some user.uid) :
    Consistent (app.userCreated sender answer) := by
  cases answer with
  | error description => exact h.presentFrom sender _
  | ok user =>
    obtain ⟨hauth, hprofile, hentering, hshown⟩ := h.signedIn (hs user rfl)
    rw [App.userCreated]
    dsimp only
    split <;> exact ⟨hauth, hprofile, hentering, hshown⟩

theorem signInAnswered (h : Consistent app) (sender : ℕ) {answer : Except String User}
    (hs : ∀ user, answer = .ok user →
      app.isEntering ∨ app.authUser.map User.uid = some user.uid) :
    Consistent (app.signInAnswered sender answer) := by
  cases answer with
  | error description => exact h.presentPersonalInformation sender
  | ok user => exact (h.signedIn (hs user rfl)).presentPersonalInformation sender

theorem readQuestions (h : Consistent app) : Consistent app.readQuestions :=
  h.congr (SameSession.readQuestions app) rfl

theorem sendUserData (h : Consistent app) (c : PersonalInformationViewController) :
    Consistent (app.sendUserData c) := by
  rw [App.sendUserData]
  split
  · exact h
  · exact h
  · exact ⟨h.auth, h.profile, h.entering, h.shown⟩
  · split
    · exact readQuestions (segueToTabController h.auth)
    · exact h.readQuestions
    · exact ⟨h.auth, h.profile, h.entering, h.shown⟩

theorem logout (h : Consistent app) (removed : Bool) : Consistent (app.logout removed) := by
  rw [App.logout]
  split
  · split_ifs
    · exact h
    · exact presentLogin (by simp [AuthAgrees]) h.profile
  · exact h

theorem survey (h : Consistent app) {action : FirstViewController.Action}
    (hh : app.isHonest (.survey action)) : Consistent (app.survey action) := by
  rw [App.survey]
  split
  · exact h
  · next uid screen hroot =>
    split_ifs
    · obtain ⟨hauth, hprofile, hentering, hshown⟩ := h
      rw [ProfileAgrees, hroot] at hprofile
      rw [isEntering, hroot] at hentering hshown
      refine ⟨hauth, fun user hu ↦ ?_, hentering, hshown⟩
      -- a profile is either an old one or comes from the document of the uid it was asked for
      obtain hold | ⟨document, rfl, hd⟩ := Screen.currentUser_step hu
      · exact hprofile user hold
      · cases document with
        | none => cases hd
        | some document =>
          have hid := id_of_profileCallback hd
          have huid : uid = some document.documentID := by
            simpa [isHonest, hroot, Root.uid] using hh
          exact ⟨by simp [hid], by rw [hid, ← huid]; rfl⟩
    · exact h

theorem edit (h : Consistent app) (field : Field) (text : String) :
    Consistent (app.edit field text) := by
  apply h.congr (SameSession.edit app field text)
  rw [App.edit]
  split
  · rfl
  · next hp => simp [isEntering, hp]

theorem login (h : Consistent app) : Consistent app.login := by
  apply h.congr (SameSession.login app)
  rw [App.login]
  split
  · split <;> rfl
  · rfl

theorem showRegistration (h : Consistent app) : Consistent app.showRegistration := by
  apply h.congr (SameSession.showRegistration app)
  rw [App.showRegistration]
  split
  · next hp => simp [isEntering, App.present, hp]
  · rfl

theorem registerUser (h : Consistent app) : Consistent app.registerUser := by
  apply h.congr (SameSession.registerUser app)
  rw [App.registerUser]
  split
  · next hp =>
    split
    · rfl
    · simp [isEntering, App.present, hp]
  · rfl

theorem photo (h : Consistent app) (url : String) : Consistent (app.photo url) := by
  apply h.congr (SameSession.photo app url)
  simp [isEntering, App.photo]

theorem dismiss (h : Consistent app) (hs : app.isSettled .dismiss) : Consistent app.dismiss := by
  rw [App.dismiss]
  split
  · exact h
  · next x rest hp =>
    have he : app.isEntering := by simp [isEntering, hp]
    refine ⟨h.auth, h.profile, fun _ ↦ h.entering he, fun hn ↦ ?_⟩
    -- the sheet was the login screen over the tab bar controller, which stays
    obtain ⟨htab, rfl⟩ : app.root.isTab = true ∧ rest = [] := by simpa [isEntering] using hn
    simp [isSettled, htab, hp] at hs

theorem answer (h : Consistent app) {n : ℕ} {result : Except String User}
    (hs : app.isSettled (.answer n result)) : Consistent (app.answer n result) := by
  rw [App.answer]
  split
  · exact h
  · next x hx =>
    obtain ⟨sender, request⟩ := x
    have hc : Consistent { app with requests := app.requests.eraseIdx n } :=
      ⟨h.auth, h.profile, h.entering, h.shown⟩
    have hset (hr : ∀ email password, request ≠ .login email password) (user : User)
        (hu : result = .ok user) :
        app.isEntering ∨ app.authUser.map User.uid = some user.uid := by
      subst hu
      cases request with
      | login email password => exact absurd rfl (hr email password)
      | createUser email password | signIn email password => simpa [isSettled, hx] using hs
    cases request with
    | login email password => exact hc.loginAnswered sender result
    | createUser email password => exact hc.userCreated sender (hset (by simp))
    | signIn email password => exact hc.signInAnswered sender (hset (by simp))

theorem submitInformation (h : Consistent app) : Consistent app.submitInformation := by
  rw [App.submitInformation]
  split
  · exact h.sendUserData _
  · exact h

end Consistent

theorem consistent_step (h : Consistent app) (hh : app.isHonest action) (hs : app.isSettled action) :
    Consistent (app.step action) := by
  obtain heq | heq := step_eq app action
  · rw [heq]
    cases action with
    | launch => exact h.launch
    | edit field text => exact h.edit field text
    | loginButton => exact h.login
    | showRegistration => exact h.showRegistration
    | registerButton => exact h.registerUser
    | answer n result => exact h.answer hs
    | photo url => exact h.photo url
    | submitInformation => exact h.submitInformation
    | dismiss => exact h.dismiss hs
    | logout removed => exact h.logout removed
    | survey action => exact h.survey hh
    | questions snapshot =>
      obtain ⟨crash, hquestions⟩ := questions_eq app snapshot
      rw [act, hquestions]
      exact ⟨h.auth, h.profile, h.entering, h.shown⟩
    | profile n document =>
      obtain ⟨fetches, crash, hprofile⟩ := profile_eq app n document
      rw [act, hprofile]
      exact ⟨h.auth, h.profile, h.entering, h.shown⟩
  · rwa [heq]

theorem mem_adds {response : Survey} (h : response ∈ app.adds action) :
    ∃ a uid screen, action = .survey a ∧ app.root = .tab uid screen ∧ app.reaches a ∧
      response ∈ written screen a := by
  rw [adds] at h
  obtain hact | hact := step_eq app action
  · rw [hact] at h
    obtain heq | ⟨a, uid, screen, ha, hroot, hreach, heq⟩ := responses_act app action
    · simp [heq] at h
    · rw [heq, List.drop_left] at h
      exact ⟨a, uid, screen, ha, hroot, hreach, h⟩
  · simp [hact] at h

theorem mem_written {screen : Screen} {a : FirstViewController.Action} {response : Survey}
    (h : response ∈ written screen a) :
    (∃ event, a = .task event) ∧ ∃ user, screen.currentUser = some user ∧
      surveyResponse user response.question (some response.answer) = some response := by
  rw [written, Screen.log_step, List.drop_left] at h
  obtain ⟨finished, hf, hmem⟩ := List.mem_flatMap.mp h
  obtain ⟨x, hx, rfl⟩ : ∃ x, screen.ending a = some x ∧
      (⟨x.1, x.2, didFinishWith screen.currentUser x.2 x.1⟩ : Finished) = finished := by
    simpa using hf
  refine ⟨?_, signed_of_mem_calls x.1 hmem⟩
  cases a with
  | task event => exact ⟨event, rfl⟩
  | _ => simp [Screen.ending] at hx

theorem sound_step (h : Consistent app) : app.Sound action := by
  intro response hr
  obtain ⟨a, loaded, screen, -, hroot, hreach, hw⟩ := mem_adds hr
  obtain ⟨⟨event, rfl⟩, user, hu, hsigned⟩ := mem_written hw
  have hcurrent : app.root.currentUser = some user := by rw [hroot, Root.currentUser, hu]
  -- the survey can only be answered where nothing is presented over it
  have hnil : app.presented = [] := by simpa [reaches] using hreach
  have hout : app.isEntering = false := by simp [isEntering, hroot, Root.isTab, hnil]
  obtain ⟨hid, hloaded⟩ := h.profile user hcurrent
  have hkey : user.id = app.keychain := hloaded.symm.trans (h.shown hout)
  obtain ⟨uid, hsome⟩ := Option.isSome_iff_exists.mp hid
  have hkeychain : app.keychain = some uid := hkey.symm.trans hsome
  refine ⟨by simp [hkeychain], ?_, user, hcurrent, hkey, hsigned⟩
  rw [hkeychain]
  exact h.auth uid hkeychain

/-- If the login screen over the tab bar controller is never dismissed and no
registration goes on behind it, all responses are signed with the profile of
the user who is signed in. -/
theorem integrity_along (accounts : List String) (actions : List Action)
    (h : Execution.Along step (fun app action ↦ app.isHonest action && app.isSettled action)
      { accounts := accounts } actions) :
    Execution.Along step Sound { accounts := accounts } actions := by
  refine Execution.along_of_invariant (I := Consistent) ?_ ?_ (Consistent.installed accounts) h
  · intro app action hc hp
    obtain ⟨hh, hs⟩ := Bool.and_eq_true_iff.mp hp
    exact consistent_step hc hh hs
  · intro app action hc _
    exact sound_step hc

def annSignsIn : List Action :=
  [.launch, .edit .userName "ann@lee", .edit .password "secret", .loginButton,
    .answer 0 (.ok ⟨"u", "ann@lee"⟩), .survey (.profile (some Screen.annsProfile))]

def surveyed : List Action := Screen.oneSurvey.map .survey

theorem integrity_signedIn :
    Execution.Along step Sound { accounts := ["u"] } (annSignsIn ++ surveyed) ∧
      (run { accounts := ["u"] } (annSignsIn ++ surveyed)).responses =
        [⟨"A", "x", "Ann Lee", "ann@lee"⟩] :=
  ⟨integrity_along ["u"] (annSignsIn ++ surveyed) (by decide +kernel), by decide +kernel⟩

/-- Behind the login screen there is still the profile of the user who has logged out. -/
theorem integrity_dismissed :
    ¬ ∀ (accounts : List String) (actions : List Action),
      Execution.Along step (fun app action ↦ app.isHonest action) { accounts := accounts } actions →
        Execution.Along step Sound { accounts := accounts } actions := by
  intro h
  exact absurd (h ["u"] (annSignsIn ++ [.logout true, .dismiss] ++ surveyed) (by decide +kernel))
    (by decide +kernel)

end Croesus.Session.App
