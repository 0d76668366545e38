import Croesus.Managers.Profile
import Croesus.Session.App

namespace Croesus

open Firestore FIRFirestoreService Library

def UserData.isFilled (u : UserData) : Bool :=
  [u.firstName, u.lastName, u.userEmail, u.photoUrl].all fun field ↦ field.any (· ≠ "")

namespace Session

def isSubmitted (users : Database) (uid : String) : Bool := (users (.child .users uid)).isSome

/-- The document is as `create` has written it, with nothing left empty. -/
def Created (users : Database) (uid : String) : Prop :=
  ∃ (userData : UserData) (c : FIRCollectionReference) (before : Database),
    userData.isFilled ∧ (create userData uid c before).2 = .issued ∧
      users (.child .users uid) = (create userData uid c before).1 (.child .users uid)

theorem isSubmitted_of_created {users : Database} {uid : String} (hs : IsSegment uid)
    (h : Created users uid) : isSubmitted users uid := by
  obtain ⟨userData, c, before, -, -, heq⟩ := h
  obtain ⟨fields, hfields⟩ := parsedSetData_profile userData
  rw [isSubmitted, heq, create_profile hs userData c before hfields]
  simp [Database.setData]

theorem created_create {users : Database} {uid : String} (hs : IsSegment uid) {userData : UserData}
    (hf : userData.isFilled) (c : FIRCollectionReference) {id : String}
    (h : id = uid ∨ Created users id) : Created (create userData uid c users).1 id := by
  obtain ⟨fields, hfields⟩ := parsedSetData_profile userData
  have hcreate := create_profile hs userData c users hfields
  -- the other users' documents are not touched
  by_cases he : id = uid
  · subst he
    exact ⟨userData, c, users, hf, by rw [hcreate], rfl⟩
  · have hkey : DocumentKey.child .users id ≠ .child .users uid := by
      simpa [DocumentKey.child_inj] using he
    have hold : (create userData uid c users).1 (.child .users id) = users (.child .users id) := by
      rw [hcreate]
      exact Function.update_of_ne hkey _ _
    obtain ⟨data, c', before, hfilled, hissued, heq⟩ := h.resolve_left he
    exact ⟨data, c', before, hfilled, hissued, hold.trans heq⟩

namespace App

variable (app : App) (action : Action)

/-- Whoever is let in has a document with nothing left empty. -/
def Admitted : Prop :=
  app.root.isTab → ∀ uid, app.keychain = some uid → Created app.users uid

/-- The form whose button can be pressed. -/
def form : Option PersonalInformationViewController :=
  match app.crash, app.presented with
  | none, (_, .personalInformation c) :: _ => some c
  | _, _ => none

/-- What Submit reads from the form, with the uid that it is for. -/
def submission : Action → Option (UserData × String)
  | .submitInformation => do
    let c ← app.form
    let photoURL ← c.photoURL
    let uid ← app.uid
    let user ← c.user
    return (userData c photoURL user, uid)
  | _ => none

variable {app}

theorem form_eq_some {c : PersonalInformationViewController} (h : app.form = some c) :
    app.crash = none ∧ ∃ k rest, app.presented = (k, .personalInformation c) :: rest := by
  unfold form at h
  split at h
  · next hcrash hp =>
    obtain rfl := Option.some.inj h
    exact ⟨hcrash, _, _, hp⟩
  · cases h

theorem submitInformation_of_form {c : PersonalInformationViewController}
    (h : app.form = some c) : app.submitInformation = app.sendUserData c := by
  obtain ⟨-, k, rest, hp⟩ := form_eq_some h
  rw [submitInformation, hp]

theorem submitInformation_of_none (halive : app.crash = none) (h : app.form = none) :
    app.submitInformation = app := by
  rw [submitInformation]
  split
  · next hp => simp [form, halive, hp] at h
  · rfl

end App

/-- The app, with the uids for which a filled-in form has been submitted so far. -/
structure History where
  app : App := {}
  submitted : List String := []

namespace History

variable (history : History)

def step (action : Action) : History where
  app := history.app.step action
  submitted := match history.app.submission action with
    | none => history.submitted
    | some (userData, uid) => if userData.isFilled then uid :: history.submitted else history.submitted

/-- A form is submitted with nothing left empty in it, and for each user before
a launch, a login or a listener lets the user in. -/
def isFormFirst : Action → Bool
  | .launch => history.app.keychain.all (· ∈ history.submitted)
  | .answer n result =>
    history.app.crash.isSome || match history.app.requests[n]?, result with
    | some (_, .login _ _), .ok user => user.uid ∈ history.submitted
    | some (_, .createUser _ _), .ok user =>
      !(history.app.root.isTab && history.app.isTold user) || user.uid ∈ history.submitted
    | some (sender, .signIn _ _), .ok user =>
      !(history.app.root.isTab && (history.app.isTold user || history.app.isOnTop sender)) ||
        user.uid ∈ history.submitted
    -- the current user is the one whom the new listener is told of
    | some (sender, .signIn _ _), .error _ =>
      !(history.app.root.isTab && history.app.isOnTop sender) ||
        history.app.authUser.all fun user ↦ user.uid ∈ history.submitted
    | _, _ => true
  | .submitInformation =>
    (history.app.submission .submitInformation).all fun form ↦ form.1.isFilled
  | _ => true

end History

namespace App

structure Enrolled (app : App) (submitted : List String) : Prop where
  created : ∀ uid ∈ submitted, Created app.users uid
  admitted : app.root.isTab → ∀ uid, app.keychain = some uid → uid ∈ submitted
  auth : ∀ user, app.authUser = some user → IsSegment user.uid
  uid : ∀ uid, app.uid = some uid → app.listening ∧ app.authUser.map User.uid = some uid ∧
    ∀ key, app.keychain = some key → key = uid

variable {app : App} {submitted : List String}

namespace Enrolled

theorem installed : Enrolled {} [] := by
  constructor <;> simp [Root.isTab]

theorem congr (h : Enrolled app submitted) {app' : App} (hs : SameSession app app') :
    Enrolled app' submitted where
  created := by
    rw [hs.users]
    exact h.created
  admitted := by
    rw [hs.root, hs.keychain]
    exact h.admitted
  auth := by
    rw [hs.authUser]
    exact h.auth
  uid := by
    rw [hs.uid, hs.listening, hs.authUser, hs.keychain]
    exact h.uid

theorem segueToTabController (h : Enrolled app submitted)
    (hk : ∀ uid, app.keychain = some uid → uid ∈ submitted) :
    Enrolled app.segueToTabController submitted :=
  ⟨h.created, fun _ ↦ hk, h.auth, h.uid⟩

theorem presentLogin (h : Enrolled app submitted)
    (hk : ∀ uid, app.keychain = some uid → uid ∈ submitted) :
    Enrolled app.presentLogin submitted := by
  rw [App.presentLogin]
  split_ifs
  · exact h.segueToTabController hk
  · exact h.congr (SameSession.present app _)

theorem launch (h : Enrolled app submitted)
    (hk : ∀ uid, app.keychain = some uid → uid ∈ submitted) : Enrolled app.launch submitted :=
  presentLogin ⟨h.created, by simp [Root.isTab], h.auth, by simp⟩ hk

theorem stateDidChange {user : User} (hc : ∀ uid ∈ submitted, Created app.users uid)
    (hu : IsSegment user.uid) (ha : app.authUser = some user) (hl : app.listening)
    (hs : app.root.isTab → user.uid ∈ submitted) : Enrolled (app.stateDidChange user) submitted where
  created := hc
  admitted ht uid huid := by
    obtain rfl := Option.some.inj huid
    exact hs ht
  auth x hx := by
    obtain rfl := Option.some.inj (ha.symm.trans hx)
    exact hu
  uid uid huid := by
    obtain rfl := Option.some.inj huid
    exact ⟨hl, by simp [App.stateDidChange, ha], fun key hkey ↦ (Option.some.inj hkey).symm⟩

theorem signedIn (h : Enrolled app submitted) {user : User} (hu : IsSegment user.uid)
    (hs : app.root.isTab → app.isTold user → user.uid ∈ submitted) :
    Enrolled (app.signedIn user) submitted := by
  rw [App.signedIn]
  split_ifs with ht
  · have hlistening : app.listening := (Bool.and_eq_true_iff.mp ht).1
    exact stateDidChange h.created hu rfl hlistening fun htab ↦ hs htab ht
  · refine ⟨h.created, h.admitted, fun x hx ↦ ?_, fun uid huid ↦ ?_⟩
    · obtain rfl := Option.some.inj hx
      exact hu
    · obtain ⟨hl, hold, hkey⟩ := h.uid uid huid
      have hsame : app.authUser.map User.uid = some user.uid := by simpa [isTold, hl] using ht
      exact ⟨hl, hsame.symm.trans hold, hkey⟩

theorem presentPersonalInformation (h : Enrolled app submitted) {sender : ℕ}
    (hs : app.root.isTab → app.isOnTop sender →
      ∀ user, app.authUser = some user → user.uid ∈ submitted) :
    Enrolled (app.presentPersonalInformation sender) submitted := by
  rw [App.presentPersonalInformation]
  split_ifs with htop
  · rw [setupUserListeners]
    split
    · next ha =>
      refine ⟨h.created, h.admitted, h.auth, fun uid huid ↦ ?_⟩
      obtain ⟨-, hold, -⟩ := h.uid uid huid
      have hnone : app.authUser = none := ha
      simp [hnone] at hold
    · next user ha =>
      have hsome : app.authUser = some user := ha
      exact stateDidChange h.created (h.auth user hsome) ha rfl fun htab ↦ hs htab htop user hsome
  · exact h

theorem loginAnswered (h : Enrolled app submitted) (sender : ℕ) {result : Except String User}
    (hr : ∀ user, result = .ok user → IsSegment user.uid ∧ user.uid ∈ submitted) :
    Enrolled (app.loginAnswered sender result) submitted := by
  cases result with
  | error description => exact h.congr (SameSession.presentFrom app sender _)
  | ok user =>
    obtain ⟨hu, hs⟩ := hr user rfl
    obtain ⟨hcreated, -, hauth, huid⟩ := h.signedIn hu fun _ _ ↦ hs
    refine ⟨hcreated, fun _ uid hkey ↦ ?_, hauth, fun uid hx ↦ ?_⟩
    · obtain rfl := Option.some.inj hkey
      exact hs
    · obtain ⟨hl, hsame, -⟩ := huid uid hx
      refine ⟨hl, hsame, fun key hkey ↦ ?_⟩
      obtain rfl := Option.some.inj hkey
      simpa using hsame

theorem userCreated (h : Enrolled app submitted) (sender : ℕ) {result : Except String User}
    (hr : ∀ user, result = .ok user →
      IsSegment user.uid ∧ (app.root.isTab → app.isTold user → user.uid ∈ submitted)) :
    Enrolled (app.userCreated sender result) submitted := by
  cases result with
  | error description => exact h.congr (SameSession.presentFrom app sender _)
  | ok user =>
    obtain ⟨hu, hs⟩ := hr user rfl
    obtain ⟨hcreated, hadmitted, hauth, huid⟩ := h.signedIn hu hs
    rw [App.userCreated]
    dsimp only
    split <;> exact ⟨hcreated, hadmitted, hauth, huid⟩

theorem signInAnswered (h : Enrolled app submitted) {sender : ℕ} {result : Except String User}
    (hr : ∀ user, result = .ok user → IsSegment user.uid ∧
      (app.root.isTab → app.isTold user ∨ app.isOnTop sender → user.uid ∈ submitted))
    (he : ∀ e, result = .error e → app.root.isTab → app.isOnTop sender →
      ∀ user, app.authUser = some user → user.uid ∈ submitted) :
    Enrolled (app.signInAnswered sender result) submitted := by
  cases result with
  | error description => exact h.presentPersonalInformation (he description rfl)
  | ok user =>
    obtain ⟨hu, hs⟩ := hr user rfl
    apply (h.signedIn hu fun htab htold ↦ hs htab (.inl htold)).presentPersonalInformation
    intro htab htop x hx
    obtain rfl : user = x := by simpa using hx
    exact hs (by simpa using htab) (.inr (by simpa using htop))

end Enrolled

section Answer

variable {history : History} {n : ℕ} {result : Except String User}

/-- What the condition says about the answer to the call that is found. -/
theorem answered_enrolled (h : Enrolled history.app history.submitted)
    (halive : history.app.crash = none) (hh : history.app.isHonest (.answer n result))
    (hf : history.isFormFirst (.answer n result)) :
    Enrolled (history.app.answer n result) history.submitted := by
  rw [App.answer]
  split
  · exact h
  · next x hx =>
    obtain ⟨sender, request⟩ := x
    have hc : Enrolled { history.app with requests := history.app.requests.eraseIdx n }
        history.submitted := ⟨h.created, h.admitted, h.auth, h.uid⟩
    have hu (user : User) (hr : result = .ok user) : IsSegment user.uid := by
      subst hr
      rw [isHonest, Bool.and_eq_true] at hh
      exact of_decide_eq_true hh.1
    cases request with
    | login email password =>
      refine hc.loginAnswered sender fun user hr ↦ ⟨hu user hr, ?_⟩
      subst hr
      simpa [History.isFormFirst, halive, hx] using hf
    | createUser email password =>
      refine hc.userCreated sender fun user hr ↦ ⟨hu user hr, fun htab htold ↦ ?_⟩
      subst hr
      have htab : history.app.root.isTab = true := htab
      have htold : history.app.isTold user = true := htold
      simpa [History.isFormFirst, halive, hx, htab, htold] using hf
    | signIn email password =>
      refine hc.signInAnswered (fun user hr ↦ ⟨hu user hr, fun htab htold ↦ ?_⟩)
        fun e hr htab htop user hauth ↦ ?_
      · subst hr
        have htab : history.app.root.isTab = true := htab
        have htold : history.app.isTold user = true ∨ history.app.isOnTop sender = true := htold
        rcases htold with htold | htop
        · simpa [History.isFormFirst, halive, hx, htab, htold] using hf
        · simpa [History.isFormFirst, halive, hx, htab, htop] using hf
      · subst hr
        have htab : history.app.root.isTab = true := htab
        have htop : history.app.isOnTop sender = true := htop
        have hauth : history.app.authUser = some user := hauth
        simpa [History.isFormFirst, halive, hx, htab, htop, hauth] using hf

end Answer

/-- The uid that the document is written for is the one in the keychain, so
whoever is let in has just submitted the form. -/
theorem sendUserData_enrolled (h : Enrolled app submitted) {c : PersonalInformationViewController}
    {photoURL uid : String} {user : User} (hphoto : c.photoURL = some photoURL)
    (huid : app.uid = some uid) (huser : c.user = some user)
    (hf : (userData c photoURL user).isFilled) :
    Enrolled (app.sendUserData c) (uid :: submitted) := by
  obtain ⟨hl, hauth, hkey⟩ := h.uid uid huid
  have hs : IsSegment uid := by
    obtain ⟨x, hx, rfl⟩ := Option.map_eq_some_iff.mp hauth
    exact h.auth x hx
  obtain ⟨fields, hfields⟩ := parsedSetData_profile (userData c photoURL user)
  have hcreate := create_profile hs (userData c photoURL user) .questions app.users hfields
  have hcreated (id : String) (hid : id ∈ uid :: submitted) :
      Created (Database.setData app.users (.child .users uid) fields) id := by
    have hwritten : Created (create (userData c photoURL user) uid .questions app.users).1 id :=
      created_create hs hf .questions ((List.mem_cons.mp hid).imp_right (h.created id))
    rwa [hcreate] at hwritten
  have hadmitted (key : String) (hk : app.keychain = some key) : key ∈ uid :: submitted := by
    rw [hkey key hk]
    exact List.mem_cons_self
  have happ : app.sendUserData c = App.readQuestions (App.segueToTabController
      { app with users := Database.setData app.users (.child .users uid) fields }) := by
    simp only [App.sendUserData, hphoto, huid, huser, hcreate]
  rw [happ]
  refine Enrolled.congr ?_ (SameSession.readQuestions _)
  exact Enrolled.segueToTabController ⟨hcreated, fun _ ↦ hadmitted, h.auth, h.uid⟩ hadmitted

theorem submitted_of_submission_none {history : History} {action : Action}
    (h : history.app.submission action = none) :
    (history.step action).submitted = history.submitted := by
  rw [History.step, h]

theorem submitInformation_enrolled {history : History}
    (h : Enrolled history.app history.submitted) (halive : history.app.crash = none)
    (hf : history.isFormFirst .submitInformation) :
    Enrolled history.app.submitInformation (history.step .submitInformation).submitted := by
  cases hform : history.app.form with
  | none =>
    rw [submitted_of_submission_none (by simp [submission, hform]),
      submitInformation_of_none halive hform]
    exact h
  | some c =>
    rw [submitInformation_of_form hform]
    -- the guard of `sendUserData` passes, or nothing is submitted
    cases hphoto : c.photoURL with
    | none =>
      rw [submitted_of_submission_none (by simp [submission, hform, hphoto])]
      simpa [App.sendUserData, hphoto] using h
    | some photoURL =>
      cases huid : history.app.uid with
      | none =>
        rw [submitted_of_submission_none (by simp [submission, hform, huid])]
        simpa [App.sendUserData, hphoto, huid] using h
      | some uid =>
        cases huser : c.user with
        | none =>
          have hcrashed : history.app.sendUserData c = { history.app with crash := some .trapped } := by
            simp only [App.sendUserData, hphoto, huid, huser]
          rw [submitted_of_submission_none (by simp [submission, hform, hphoto, huid, huser]),
            hcrashed]
          exact ⟨h.created, h.admitted, h.auth, h.uid⟩
        | some user =>
          have hsubmission : history.app.submission .submitInformation =
              some (userData c photoURL user, uid) := by
            simp [submission, hform, hphoto, huid, huser]
          have hfilled : (userData c photoURL user).isFilled := by
            simpa [History.isFormFirst, hsubmission] using hf
          have hsubmitted : (history.step .submitInformation).submitted =
              uid :: history.submitted := by
            simp [History.step, hsubmission, hfilled]
          rw [hsubmitted]
          exact sendUserData_enrolled h hphoto huid huser hfilled

theorem logout_enrolled (h : Enrolled app submitted) (removed : Bool) :
    Enrolled (app.logout removed) submitted := by
  rw [App.logout]
  split
  · split_ifs
    · exact h
    · refine .presentLogin ⟨h.created, by simp, h.auth, fun uid hx ↦ ?_⟩ (by simp)
      obtain ⟨hl, hauth, -⟩ := h.uid uid hx
      exact ⟨hl, hauth, by simp⟩
  · exact h

theorem survey_enrolled (h : Enrolled app submitted) (action : FirstViewController.Action) :
    Enrolled (app.survey action) submitted := by
  rw [App.survey]
  split
  · exact h
  · next hroot =>
    split_ifs
    · obtain ⟨hcreated, hadmitted, hauth, huid⟩ := h
      rw [hroot] at hadmitted
      exact ⟨hcreated, hadmitted, hauth, huid⟩
    · exact h

theorem enrolled_act {history : History} (h : Enrolled history.app history.submitted)
    (halive : history.app.crash = none) {action : Action} (hh : history.app.isHonest action)
    (hf : history.isFormFirst action) :
    Enrolled (history.app.act action) (history.step action).submitted := by
  cases action with
  | launch =>
    refine h.launch fun uid huid ↦ ?_
    simpa [History.isFormFirst, huid] using hf
  | edit field text => exact h.congr (SameSession.edit history.app field text)
  | loginButton => exact h.congr (SameSession.login history.app)
  | showRegistration => exact h.congr (SameSession.showRegistration history.app)
  | registerButton => exact h.congr (SameSession.registerUser history.app)
  | answer n result => exact answered_enrolled h halive hh hf
  | photo url => exact h.congr (SameSession.photo history.app url)
  | submitInformation => exact submitInformation_enrolled h halive hf
  | dismiss => exact h.congr (SameSession.dismiss history.app)
  | logout removed => exact logout_enrolled h removed
  | survey action => exact survey_enrolled h action
  | questions snapshot =>
    obtain ⟨crash, heq⟩ := questions_eq history.app snapshot
    rw [act, heq]
    exact ⟨h.created, h.admitted, h.auth, h.uid⟩
  | profile n document =>
    obtain ⟨fetches, crash, heq⟩ := profile_eq history.app n document
    rw [act, heq]
    exact ⟨h.created, h.admitted, h.auth, h.uid⟩

theorem enrolled_step {history : History} (h : Enrolled history.app history.submitted)
    {action : Action} (hh : history.app.isHonest action) (hf : history.isFormFirst action) :
    Enrolled (history.step action).app (history.step action).submitted := by
  cases hcrash : history.app.crash with
  | none =>
    have hact : (history.step action).app = history.app.act action := step_alive hcrash action
    rw [hact]
    exact enrolled_act h hcrash hh hf
  | some failure =>
    have hnone : history.app.submission action = none := by
      cases action <;> simp [submission, form, hcrash]
    rw [submitted_of_submission_none hnone]
    obtain hstep | hstep := step_eq history.app action
    · cases action with
      | launch =>
        have hlaunch : (history.step .launch).app = history.app.launch := hstep
        rw [hlaunch]
        refine h.launch fun uid huid ↦ ?_
        simpa [History.isFormFirst, huid] using hf
      | _ => simpa [History.step, App.step, hcrash] using h
    · rwa [History.step, hstep]

theorem run_history (actions : List Action) :
    (actions.foldl History.step {}).app = run {} actions :=
  (List.foldl_hom History.app fun _ _ ↦ rfl).symm

/-- In every run in which everybody has submitted a filled-in form before being
let in, whoever is let in has a document with nothing left empty. -/
theorem admitted_run (actions : List Action)
    (h : Execution.Along History.step
      (fun history action ↦ history.app.isHonest action && history.isFormFirst action) {} actions) :
    (run {} actions).Admitted := by
  have henrolled : Enrolled (actions.foldl History.step {}).app
      (actions.foldl History.step {}).submitted := by
    refine Execution.invariant_along
      (I := fun history : History ↦ Enrolled history.app history.submitted) ?_ .installed h
    intro history action he hp
    obtain ⟨hh, hf⟩ := Bool.and_eq_true_iff.mp hp
    exact enrolled_step he hh hf
  rw [run_history] at henrolled
  intro ht uid huid
  exact henrolled.created uid (henrolled.admitted ht uid huid)

def annRegisters : List Action :=
  [.launch, .showRegistration, .edit .email "ann@lee", .edit .password "secret",
    .edit .cofirmPassword "secret", .registerButton, .answer 0 (.ok ⟨"u", "ann@lee"⟩),
    .answer 0 (.ok ⟨"u", "ann@lee"⟩)]

def annSubmits : List Action :=
  [.edit .firstName "Ann", .edit .lastName "Lee", .photo "url", .submitInformation]

def annReturns : List Action :=
  [.launch, .logout true, .edit .userName "ann@lee", .edit .password "secret", .loginButton,
    .answer 0 (.ok ⟨"u", "ann@lee"⟩), .launch]

theorem admitted_submitted :
    (run {} (annRegisters ++ annSubmits ++ annReturns)).Admitted ∧
      (run {} (annRegisters ++ annSubmits ++ annReturns)).root.isTab ∧
      (run {} (annRegisters ++ annSubmits ++ annReturns)).keychain = some "u" :=
  ⟨admitted_run (annRegisters ++ annSubmits ++ annReturns) (by decide +kernel), by decide +kernel,
    by decide +kernel⟩

/-- The next launch lets a user in who has left the form. -/
theorem admitted_relaunched :
    ¬ ∀ actions : List Action, Execution.Along step (fun app action ↦ app.isHonest action) {} actions →
      (run {} actions).Admitted := by
  intro h
  have hadmitted := h (annRegisters ++ [.launch]) (by decide +kernel)
  have htab : (run {} (annRegisters ++ [.launch])).root.isTab := by decide +kernel
  have hkey : (run {} (annRegisters ++ [.launch])).keychain = some "u" := by decide +kernel
  have hnone : ¬ isSubmitted (run {} (annRegisters ++ [.launch])).users "u" := by decide +kernel
  exact hnone (isSubmitted_of_created (by decide) (hadmitted htab "u" hkey))

end App

end Session

end Croesus
