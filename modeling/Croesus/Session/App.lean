import Croesus.FirstViewController.Screen

namespace Croesus.Session

open Firestore FIRFirestoreService FirstViewController

structure User where
  uid : String
  email : String
  deriving DecidableEq

structure LoginViewController where
  userName : String := ""
  password : String := ""

structure RegistrationViewController where
  email : String := ""
  password : String := ""
  cofirmPassword : String := ""

structure PersonalInformationViewController where
  user : Option User := none
  photoURL : Option String := none
  firstName : String := ""
  lastName : String := ""

inductive Sheet
  | login (controller : LoginViewController)
  | registration (controller : RegistrationViewController)
  | personalInformation (controller : PersonalInformationViewController)
  | alert (title message : String)

inductive Field
  | userName | email | password | cofirmPassword | firstName | lastName
  deriving DecidableEq

/-- The root view controller of the window. A `TabBarController` comes with the
screen of its `FirstViewController`, and with the uid that was in the keychain
when that was loaded. -/
inductive Root
  | root
  | tab (uid : Option String) (screen : Screen)

/-- A call of Firebase Auth that has not been answered. A registration makes
two, one after the other. -/
inductive Request
  | login (email password : String)
  | createUser (email password : String)
  | signIn (email password : String)

/-- The keychain, the current user of Firebase Auth, the documents and the
accounts outlive the process; the other fields are the state of the process.
Presented view controllers, the last one first, are numbered, so that an answer
finds the one that has asked for it. `reads` says that there are listeners for
the questions besides that of the shown screen, and `fetches` whose profiles
screens that have been replaced are still waiting for. -/
structure App where
  keychain : Option String := none
  authUser : Option User := none
  users : Database := fun _ ↦ none
  responses : List Survey := []
  accounts : List String := []
  uid : Option String := none
  listening : Bool := false
  root : Root := .root
  presented : List (ℕ × Sheet) := []
  dismissed : List (ℕ × Sheet) := []
  requests : List (ℕ × Request) := []
  reads : Bool := false
  fetches : List String := []
  next : ℕ := 0
  crash : Option Failure := none

/-- What can happen to the app. A launch ends the process that was running; an
answer is to the request at the given place among those outstanding, a user or
the description of an error. The callbacks of the shown screen are actions of
the survey, `questions` and `profile` those that nobody sees any more. -/
inductive Action
  | launch
  | edit (field : Field) (text : String)
  | loginButton
  | showRegistration
  | registerButton
  | answer (n : ℕ) (answer : Except String User)
  | photo (url : String)
  | submitInformation
  | dismiss
  | logout (removed : Bool)
  | survey (action : FirstViewController.Action)
  | questions (snapshot : Option (List DocumentSnapshot))
  | profile (n : ℕ) (document : Option DocumentSnapshot)

/-- A launch ends the process, the others can write, or decode what they are given. -/
def Action.isQuiet : Action → Bool
  | .launch | .submitInformation | .survey _ | .questions _ | .profile _ _ => false
  | .edit _ _ | .loginButton | .showRegistration | .registerButton | .answer _ _ | .photo _
  | .dismiss | .logout _ => true

def Root.isTab : Root → Bool
  | .root => false
  | .tab _ _ => true

def Root.uid : Root → Option String
  | .root => none
  | .tab uid _ => uid

def Root.fetches : Root → List String
  | .tab (some uid) screen => if screen.fetching then [uid] else []
  | _ => []

def Root.currentUser : Root → Option UserData
  | .root => none
  | .tab _ screen => screen.currentUser

namespace Sheet

def edit (field : Field) (text : String) : Sheet → Sheet
  | .login c =>
    match field with
    | .userName => .login { c with userName := text }
    | .password => .login { c with password := text }
    | _ => .login c
  | .registration c =>
    match field with
    | .email => .registration { c with email := text }
    | .password => .registration { c with password := text }
    | .cofirmPassword => .registration { c with cofirmPassword := text }
    | _ => .registration c
  | .personalInformation c =>
    match field with
    | .firstName => .personalInformation { c with firstName := text }
    | .lastName => .personalInformation { c with lastName := text }
    | _ => .personalInformation c
  | .alert title message => .alert title message

def setUser (user : User) : Sheet → Sheet
  | .personalInformation c => .personalInformation { c with user := some user }
  | sheet => sheet

def setProfilePicUrl (url : String) : Sheet → Sheet
  | .personalInformation c => .personalInformation { c with photoURL := some url }
  | sheet => sheet

end Sheet

namespace App

variable (app : App)

def isOnTop (sender : ℕ) : Bool := app.presented.head?.map Prod.fst = some sender

def present (sheet : Sheet) : App :=
  { app with presented := (app.next, sheet) :: app.presented, next := app.next + 1 }

/-- UIKit presents nothing from a view controller that has gone, or that
presents another one. -/
def presentFrom (sender : ℕ) (sheet : Sheet) : App :=
  if app.isOnTop sender then app.present sheet else app

/-- The new root takes the place of all that was presented on the old one, but
the callbacks of the old one's screen hold on to it. -/
def segueToTabController : App :=
  { app with
    root := .tab app.keychain (Screen.load app.keychain)
    presented := []
    dismissed := app.presented ++ app.dismissed
    reads := app.reads || app.root.isTab
    fetches := app.fetches ++ app.root.fetches }

/-- `presentLogin`, with `checkAlreadyLoggedIn`, which runs when the view is
loaded. -/
def presentLogin : App :=
  if app.keychain.isSome then app.segueToTabController else app.present (.login {})

def launch : App :=
  App.presentLogin
    { keychain := app.keychain, authUser := app.authUser, users := app.users,
      responses := app.responses, accounts := app.accounts }

/-- The listener that a `PersonalInformationViewController` adds. It is never
removed, and every one that was added is told the same. -/
def stateDidChange (user : User) : App :=
  { app with
    uid := some user.uid
    keychain := some user.uid
    presented := app.presented.map fun x ↦ (x.1, x.2.setUser user) }

/-- The listeners are only told of a user with another uid. -/
def isTold (user : User) : Bool :=
  app.listening && app.authUser.map User.uid ≠ some user.uid

def signedIn (user : User) : App :=
  if app.isTold user then App.stateDidChange { app with authUser := some user } user
  else { app with authUser := some user }

def login : App :=
  match app.presented with
  | (sender, .login c) :: _ =>
    if c.userName = "" ∨ c.password = "" then app
    else { app with requests := app.requests ++ [(sender, .login c.userName c.password)] }
  | _ => app

def registerUser : App :=
  match app.presented with
  | (sender, .registration c) :: _ =>
    if c.email ≠ "" ∧ c.password ≠ "" ∧ c.cofirmPassword ≠ "" then
      { app with requests := app.requests ++ [(sender, .createUser c.email c.password)] }
    else app.present (.alert "Error" "Please fill in all fields")
  | _ => app

def loginAnswered (sender : ℕ) : Except String User → App
  | .error localizedDescription =>
    app.presentFrom sender (.alert "Sign In Failed" localizedDescription)
  -- the listeners are told before the completion runs
  | .ok user => App.segueToTabController { app.signedIn user with keychain := some user.uid }

/-- The fields are read again for signing in, also if the screen has gone. -/
def userCreated (sender : ℕ) : Except String User → App
  | .error _ =>
    app.presentFrom sender (.alert "Error" "oops, something went wrong. Please try again")
  | .ok user =>
    let app := { app.signedIn user with accounts := user.uid :: app.accounts }
    match (app.presented ++ app.dismissed).lookup sender with
    | some (.registration c) =>
      { app with requests := app.requests ++ [(sender, .signIn c.email c.password)] }
    | _ => app

/-- A new listener is told of the current user before anything else happens. -/
def setupUserListeners : App :=
  match app.authUser with
  | none => { app with listening := true }
  | some user => App.stateDidChange { app with listening := true } user

def presentPersonalInformation (sender : ℕ) : App :=
  if app.isOnTop sender then (app.present (.personalInformation {})).setupUserListeners else app

/-- Whether signing in has failed is not looked at. -/
def signInAnswered (sender : ℕ) : Except String User → App
  | .error _ => app.presentPersonalInformation sender
  | .ok user => (app.signedIn user).presentPersonalInformation sender

def answered (sender : ℕ) : Request → Except String User → App
  | .login _ _ => app.loginAnswered sender
  | .createUser _ _ => app.userCreated sender
  | .signIn _ _ => app.signInAnswered sender

def userData (c : PersonalInformationViewController) (photoURL : String) (user : User) : UserData :=
  UserData.ofFields c.firstName c.lastName user.email photoURL

/-- The listener that is added after the profile is written, and only prints. -/
def readQuestions : App := { app with reads := true }

def sendUserData (c : PersonalInformationViewController) : App :=
  match c.photoURL, app.uid, c.user with
  | none, _, _ | _, none, _ => app
  -- the guard does not look at the user, whose email is needed next
  | some _, some _, none => { app with crash := some .trapped }
  | some photoURL, some uid, some user =>
    match create (userData c photoURL user) uid .questions app.users with
    -- the completion does not wait for the server
    | (users, .issued) => App.readQuestions (App.segueToTabController { app with users := users })
    | (_, .caught _) => app.readQuestions
    | (_, .raised e) => { app with crash := some (.raised e) }

/-- The tab of the `SecondViewController` is covered by a sheet or a task. -/
def logout (removed : Bool) : App :=
  match app.root, app.presented with
  | .tab _ screen, [] =>
    if screen.task.isSome || !removed then app else App.presentLogin { app with keychain := none }
  | _, _ => app

/-- The callbacks come at any time, but the user only reaches what is not covered. -/
def reaches : FirstViewController.Action → Bool
  | .profile _ | .questions _ => true
  | .selectRow | .task _ | .swipe => app.presented.isEmpty

def written (screen : Screen) (action : FirstViewController.Action) : List Survey :=
  ((screen.step action).log.drop screen.log.length).flatMap fun finished ↦ finished.outcome.calls

def survey (action : FirstViewController.Action) : App :=
  match app.root with
  | .root => app
  | .tab uid screen =>
    if app.reaches action then
      { app with
        root := .tab uid (screen.step action)
        responses := app.responses ++ written screen action
        crash := (screen.step action).crash }
    else app

def edit (field : Field) (text : String) : App :=
  match app.presented with
  | [] => app
  | x :: rest => { app with presented := (x.1, x.2.edit field text) :: rest }

def showRegistration : App :=
  match app.presented with
  | (_, .login _) :: _ => app.present (.registration {})
  | _ => app

def answer (n : ℕ) (result : Except String User) : App :=
  match app.requests[n]? with
  | none => app
  | some x => App.answered { app with requests := app.requests.eraseIdx n } x.1 x.2 result

def photo (url : String) : App :=
  { app with presented := app.presented.map fun x ↦ (x.1, x.2.setProfilePicUrl url) }

def submitInformation : App :=
  match app.presented with
  | (_, .personalInformation c) :: _ => app.sendUserData c
  | _ => app

/-- A callback that nobody sees can still end the process. -/
def received {α : Type} : Delivery α → App
  | .crashed failure => { app with crash := some failure }
  | _ => app

def questions (snapshot : Option (List DocumentSnapshot)) : App :=
  if app.reads then app.received (readCallback Questions snapshot) else app

def profile (n : ℕ) (document : Option DocumentSnapshot) : App :=
  match app.fetches[n]? with
  | none => app
  | some _ => App.received { app with fetches := app.fetches.eraseIdx n } (profileCallback document)

def dismiss : App :=
  match app.presented with
  | [] => app
  | x :: rest => { app with presented := rest, dismissed := x :: app.dismissed }

def act : Action → App
  | .launch => app.launch
  | .edit field text => app.edit field text
  | .loginButton => app.login
  | .showRegistration => app.showRegistration
  | .registerButton => app.registerUser
  | .answer n result => app.answer n result
  | .photo url => app.photo url
  | .submitInformation => app.submitInformation
  | .dismiss => app.dismiss
  | .logout removed => app.logout removed
  | .survey action => app.survey action
  | .questions snapshot => app.questions snapshot
  | .profile n document => app.profile n document

/-- After a crash there is only the next launch. -/
def step (action : Action) : App :=
  match app.crash, action with
  | none, action => app.act action
  | some _, .launch => app.launch
  | some _, _ => app

def run (actions : List Action) : App := actions.foldl step app

/-- What Firebase keeps to: a document has the identifier that was asked for,
an account gets an identifier of its own, which is a segment of a path, and
only accounts sign in. -/
def isHonest : Action → Bool
  | .survey (.profile (some document)) => app.root.uid = some document.documentID
  | .profile n (some document) => app.fetches[n]?.all fun uid ↦ uid = document.documentID
  | .answer n (.ok user) =>
    IsSegment user.uid && match app.requests[n]? with
      | none => true
      -- nobody else has this identifier yet
      | some (_, .createUser _ _) => user.uid ∉ app.accounts
      | some (_, .login _ _) | some (_, .signIn _ _) => user.uid ∈ app.accounts
  | _ => true

/-- No tab bar controller is shown, or the login screen covers it. -/
def isEntering : Bool := !app.root.isTab || !app.presented.isEmpty

section

variable (user : User)

@[simp] theorem signedIn_authUser : (app.signedIn user).authUser = some user := by
  unfold signedIn; split <;> rfl

@[simp] theorem signedIn_root : (app.signedIn user).root = app.root := by
  unfold signedIn; split <;> rfl

@[simp] theorem signedIn_isOnTop (sender : ℕ) :
    (app.signedIn user).isOnTop sender = app.isOnTop sender := by
  unfold signedIn; split
  · cases hpresented : app.presented <;> simp [isOnTop, stateDidChange, hpresented]
  · rfl

end

/-- Only sheets and requests come and go, and listeners for the questions. -/
structure SameSession (app app' : App) : Prop where
  keychain : app'.keychain = app.keychain
  authUser : app'.authUser = app.authUser
  users : app'.users = app.users
  responses : app'.responses = app.responses
  uid : app'.uid = app.uid
  listening : app'.listening = app.listening
  root : app'.root = app.root
  crash : app'.crash = app.crash

namespace SameSession

theorem of_sheets (presented dismissed : List (ℕ × Sheet)) (requests : List (ℕ × Request))
    (next : ℕ) : SameSession app
      { app with
        presented := presented, dismissed := dismissed, requests := requests, next := next } := by
  constructor <;> rfl

theorem refl : SameSession app app := of_sheets app _ _ _ _

theorem present (sheet : Sheet) : SameSession app (app.present sheet) := of_sheets app _ _ _ _

theorem presentFrom (sender : ℕ) (sheet : Sheet) :
    SameSession app (app.presentFrom sender sheet) := by
  rw [App.presentFrom]
  split
  · exact present app sheet
  · exact refl app

theorem edit (field : Field) (text : String) : SameSession app (app.edit field text) := by
  rw [App.edit]
  split
  · exact refl app
  · exact of_sheets app _ _ _ _

theorem login : SameSession app app.login := by
  rw [App.login]
  split
  · split_ifs
    · exact refl app
    · exact of_sheets app _ _ _ _
  · exact refl app

theorem showRegistration : SameSession app app.showRegistration := by
  rw [App.showRegistration]
  split
  · exact present app _
  · exact refl app

theorem registerUser : SameSession app app.registerUser := by
  rw [App.registerUser]
  split
  · split_ifs
    · exact of_sheets app _ _ _ _
    · exact present app _
  · exact refl app

theorem photo (url : String) : SameSession app (app.photo url) := of_sheets app _ _ _ _

theorem dismiss : SameSession app app.dismiss := by
  rw [App.dismiss]
  split
  · exact refl app
  · exact of_sheets app _ _ _ _

theorem readQuestions : SameSession app app.readQuestions := by constructor <;> rfl

end SameSession

/-- Nothing is written, and the process goes on. -/
structure SameStore (app app' : App) : Prop where
  users : app'.users = app.users
  responses : app'.responses = app.responses
  crash : app'.crash = app.crash

namespace SameStore

theorem of_session {app app' : App} (h : SameSession app app') : SameStore app app' :=
  ⟨h.users, h.responses, h.crash⟩

theorem refl : SameStore app app := of_session (SameSession.refl app)

theorem trans {app app' app'' : App} (h : SameStore app app') (h' : SameStore app' app'') :
    SameStore app app'' :=
  ⟨h'.users.trans h.users, h'.responses.trans h.responses, h'.crash.trans h.crash⟩

theorem segueToTabController : SameStore app app.segueToTabController := by constructor <;> rfl

theorem presentLogin : SameStore app app.presentLogin := by
  rw [App.presentLogin]
  split
  · exact segueToTabController app
  · exact of_session (SameSession.present app _)

theorem signedIn (user : User) : SameStore app (app.signedIn user) := by
  rw [App.signedIn]
  split <;> constructor <;> rfl

theorem loginAnswered (sender : ℕ) (result : Except String User) :
    SameStore app (app.loginAnswered sender result) := by
  cases result with
  | error description => exact of_session (SameSession.presentFrom app sender _)
  | ok user =>
    obtain ⟨husers, hresponses, hcrash⟩ := signedIn app user
    exact ⟨husers, hresponses, hcrash⟩

theorem userCreated (sender : ℕ) (result : Except String User) :
    SameStore app (app.userCreated sender result) := by
  cases result with
  | error description => exact of_session (SameSession.presentFrom app sender _)
  | ok user =>
    obtain ⟨husers, hresponses, hcrash⟩ := signedIn app user
    rw [App.userCreated]
    dsimp only
    split <;> exact ⟨husers, hresponses, hcrash⟩

theorem presentPersonalInformation (sender : ℕ) :
    SameStore app (app.presentPersonalInformation sender) := by
  rw [App.presentPersonalInformation]
  split
  · rw [setupUserListeners]
    split <;> constructor <;> rfl
  · exact refl app

theorem signInAnswered (sender : ℕ) (result : Except String User) :
    SameStore app (app.signInAnswered sender result) := by
  cases result with
  | error description => exact presentPersonalInformation app sender
  | ok user => exact (signedIn app user).trans (presentPersonalInformation _ sender)

theorem answer (n : ℕ) (result : Except String User) : SameStore app (app.answer n result) := by
  rw [App.answer]
  split
  · exact refl app
  · next x _ =>
    obtain ⟨sender, request⟩ := x
    have hremoved : SameStore app { app with requests := app.requests.eraseIdx n } := by
      constructor <;> rfl
    cases request with
    | login email password => exact hremoved.trans (loginAnswered _ sender result)
    | createUser email password => exact hremoved.trans (userCreated _ sender result)
    | signIn email password => exact hremoved.trans (signInAnswered _ sender result)

theorem logout (removed : Bool) : SameStore app (app.logout removed) := by
  rw [App.logout]
  split
  · split
    · exact refl app
    · have hremoved : SameStore app { app with keychain := none } := by constructor <;> rfl
      exact hremoved.trans (presentLogin _)
  · exact refl app

end SameStore

theorem act_quiet {action : Action} (h : action.isQuiet) : SameStore app (app.act action) := by
  cases action with
  | launch | submitInformation | survey _ | questions _ | profile _ _ => cases h
  | edit field text => exact .of_session (SameSession.edit app field text)
  | loginButton => exact .of_session (SameSession.login app)
  | showRegistration => exact .of_session (SameSession.showRegistration app)
  | registerButton => exact .of_session (SameSession.registerUser app)
  | answer n result => exact SameStore.answer app n result
  | photo url => exact .of_session (SameSession.photo app url)
  | dismiss => exact .of_session (SameSession.dismiss app)
  | logout removed => exact SameStore.logout app removed

theorem run_concat (actions : List Action) (action : Action) :
    app.run (actions ++ [action]) = (app.run actions).step action := by
  simp [run]

theorem step_alive {app : App} (h : app.crash = none) (action : Action) :
    app.step action = app.act action := by
  simp [step, h]

theorem step_eq (action : Action) : app.step action = app.act action ∨ app.step action = app := by
  unfold step
  split
  · exact .inl rfl
  · exact .inl rfl
  · exact .inr rfl

theorem received_eq {α : Type} (delivery : Delivery α) :
    ∃ crash, app.received delivery = { app with crash := crash } := by
  cases delivery with
  | crashed failure => exact ⟨some failure, rfl⟩
  | delivered _ | nothing => exact ⟨app.crash, rfl⟩

theorem questions_eq (snapshot : Option (List DocumentSnapshot)) :
    ∃ crash, app.questions snapshot = { app with crash := crash } := by
  rw [questions]
  split_ifs
  · exact received_eq app _
  · exact ⟨app.crash, rfl⟩

theorem profile_eq (n : ℕ) (document : Option DocumentSnapshot) :
    ∃ fetches crash, app.profile n document = { app with fetches := fetches, crash := crash } := by
  rw [profile]
  split
  · exact ⟨app.fetches, app.crash, rfl⟩
  · exact ⟨_, received_eq { app with fetches := app.fetches.eraseIdx n } _⟩

theorem sendUserData_responses (c : PersonalInformationViewController) :
    (app.sendUserData c).responses = app.responses := by
  unfold sendUserData
  split
  · rfl
  · rfl
  · rfl
  · split <;> rfl

theorem responses_act (action : Action) :
    (app.act action).responses = app.responses ∨
      ∃ a uid screen, action = .survey a ∧ app.root = .tab uid screen ∧ app.reaches a ∧
        (app.act action).responses = app.responses ++ written screen a := by
  cases action with
  | launch => exact .inl (SameStore.presentLogin _).responses
  | submitInformation =>
    left
    simp only [act, submitInformation]
    split
    · exact sendUserData_responses app _
    · rfl
  | survey a =>
    simp only [act, survey]
    split
    · exact .inl rfl
    · next uid screen hroot =>
      split_ifs with hr
      · exact .inr ⟨a, uid, screen, rfl, hroot, hr, rfl⟩
      · exact .inl rfl
  | questions snapshot =>
    obtain ⟨crash, heq⟩ := questions_eq app snapshot
    exact .inl (by rw [act, heq])
  | profile n document =>
    obtain ⟨fetches, crash, heq⟩ := profile_eq app n document
    exact .inl (by rw [act, heq])
  | _ => exact .inl (act_quiet app rfl).responses

theorem users_act (action : Action) :
    (app.act action).users = app.users ∨ action = .submitInformation := by
  cases action with
  | launch => exact .inl (SameStore.presentLogin _).users
  | submitInformation => exact .inr rfl
  | survey a =>
    left
    simp only [act, survey]
    split
    · rfl
    · split <;> rfl
  | questions snapshot =>
    obtain ⟨crash, heq⟩ := questions_eq app snapshot
    exact .inl (by rw [act, heq])
  | profile n document =>
    obtain ⟨fetches, crash, heq⟩ := profile_eq app n document
    exact .inl (by rw [act, heq])
  | _ => exact .inl (act_quiet app rfl).users

end App

end Croesus.Session
