import Mathlib.Data.List.Induction
import Croesus.Session.Admission

namespace Croesus.Session

open Firestore FIRFirestoreService FirstViewController Library

/-- The document is the profile of an account, stored under its uid, with its
email and with a photo. -/
def StoredFor (account : User → Prop) (photo : String → Prop) (key : DocumentKey)
    (fields : Fields) : Prop :=
  ∃ user c photoURL, account user ∧ photo photoURL ∧ key = .child .users user.uid ∧
    UserDataConverter.parsedSetData (profileJson (App.userData c photoURL user)) = .ok fields

/-- The form is that of the user whose uid the listener was told. -/
structure Held (account : User → Prop) (photo : String → Prop) (uid : Option String)
    (c : PersonalInformationViewController) : Prop where
  uid : c.user.map User.uid = uid
  account : ∀ user, c.user = some user → account user
  photo : ∀ url, c.photoURL = some url → photo url

namespace App

def Forms (account : User → Prop) (photo : String → Prop) (app : App) : Prop :=
  ∀ x ∈ app.presented, ∀ c, x.2 = .personalInformation c →
    app.listening ∧ Held account photo app.uid c

/-- Only accounts that have signed in are known anywhere. -/
structure Known (account : User → Prop) (photo : String → Prop) (app : App) : Prop where
  auth : ∀ user, app.authUser = some user → account user
  uid : app.uid = if app.listening then app.authUser.map User.uid else none
  forms : Forms account photo app
  keychain : ∀ uid, app.keychain = some uid → ∃ user, account user ∧ user.uid = uid
  users : ∀ key fields, app.users key = some fields → StoredFor account photo key fields

variable {account : User → Prop} {photo : String → Prop} {app app' : App}

namespace Known

theorem installed (accounts : List String) : Known account photo { accounts := accounts } := by
  constructor <;> simp [Forms]

theorem congr (h : Known account photo app) (hs : SameSession app app')
    (hforms : Forms account photo app') : Known account photo app' where
  auth := by
    rw [hs.authUser]
    exact h.auth
  uid := by
    rw [hs.uid, hs.listening, hs.authUser]
    exact h.uid
  forms := hforms
  keychain := by
    rw [hs.keychain]
    exact h.keychain
  users := by
    rw [hs.users]
    exact h.users

theorem forms_of_presented (h : Known account photo app) (hs : SameSession app app')
    (hpresented : ∀ x ∈ app'.presented, ∀ c, x.2 = .personalInformation c → x ∈ app.presented) :
    Forms account photo app' := by
  intro x hx c hc
  rw [hs.listening, hs.uid]
  exact h.forms x (hpresented x hx c hc) c hc

theorem present (h : Known account photo app) {sheet : Sheet}
    (hsheet : ∀ c, sheet ≠ .personalInformation c) : Known account photo (app.present sheet) := by
  refine h.congr (SameSession.present app sheet) ?_
  refine h.forms_of_presented (SameSession.present app sheet) fun x hx c hc ↦ ?_
  rcases List.mem_cons.mp hx with rfl | hold
  · exact absurd hc (hsheet c)
  · exact hold

theorem presentFrom (h : Known account photo app) (sender : ℕ) {sheet : Sheet}
    (hsheet : ∀ c, sheet ≠ .personalInformation c) :
    Known account photo (app.presentFrom sender sheet) := by
  rw [App.presentFrom]
  split_ifs
  · exact h.present hsheet
  · exact h

theorem segueToTabController (h : Known account photo app) :
    Known account photo app.segueToTabController where
  auth := h.auth
  uid := h.uid
  forms := by simp [Forms, App.segueToTabController]
  keychain := h.keychain
  users := h.users

theorem presentLogin (h : Known account photo app) : Known account photo app.presentLogin := by
  rw [App.presentLogin]
  split_ifs
  · exact h.segueToTabController
  · exact h.present (by simp)

theorem launch (h : Known account photo app) : Known account photo app.launch :=
  presentLogin ⟨h.auth, rfl, by simp [Forms], h.keychain, h.users⟩

/-- The listener brings all forms up to date at once. -/
theorem stateDidChange {user : User} (hlistening : app.listening) (hauth : app.authUser = some user)
    (haccount : account user)
    (hphoto : ∀ x ∈ app.presented, ∀ c, x.2 = .personalInformation c →
      ∀ url, c.photoURL = some url → photo url)
    (husers : ∀ key fields, app.users key = some fields → StoredFor account photo key fields) :
    Known account photo (app.stateDidChange user) where
  auth user' h := by
    obtain rfl := Option.some.inj (hauth.symm.trans h)
    exact haccount
  uid := by simp [App.stateDidChange, hlistening, hauth]
  forms x hx c hc := by
    obtain ⟨y, hy, rfl⟩ := List.mem_map.mp hx
    refine ⟨hlistening, ?_⟩
    cases hsheet : y.2 with
    | personalInformation c' =>
      obtain rfl : { c' with user := some user } = c := by simpa [Sheet.setUser, hsheet] using hc
      refine ⟨rfl, ?_, hphoto y hy c' hsheet⟩
      rintro _ ⟨⟩
      exact haccount
    | login _ | registration _ | alert _ _ => simp [Sheet.setUser, hsheet] at hc
  keychain uid h := ⟨user, haccount, Option.some.inj h⟩
  users := husers

theorem signedIn (h : Known account photo app) {user : User} (haccount : account user) :
    Known account photo (app.signedIn user) := by
  rw [App.signedIn]
  split_ifs with htold
  · have hlistening : app.listening := by
      simp only [isTold, Bool.and_eq_true] at htold
      exact htold.1
    exact stateDidChange hlistening rfl haccount
      (fun x hx c hc ↦ (h.forms x hx c hc).2.photo) h.users
  · refine ⟨?_, ?_, h.forms, h.keychain, h.users⟩
    · rintro _ ⟨⟩
      exact haccount
    · -- a user with the same uid, if anybody listens
      have hsame : app.listening → app.authUser.map User.uid = some user.uid := by
        intro hl
        simpa [isTold, hl] using htold
      have huid := h.uid
      dsimp only at huid ⊢
      split_ifs at huid ⊢ with hl
      · rw [huid, hsame hl, Option.map_some]
      · exact huid

theorem presentPersonalInformation (h : Known account photo app) (sender : ℕ) :
    Known account photo (app.presentPersonalInformation sender) := by
  rw [App.presentPersonalInformation]
  split_ifs
  · have hphoto : ∀ x ∈ (app.present (.personalInformation {})).presented, ∀ c,
        x.2 = .personalInformation c → ∀ url, c.photoURL = some url → photo url := by
      intro x hx c hc
      rcases List.mem_cons.mp hx with rfl | hold
      · obtain rfl : ({} : PersonalInformationViewController) = c := by simpa using hc
        simp
      · exact (h.forms x hold c hc).2.photo
    rw [setupUserListeners]
    split
    · next hauth =>
      have hnone : app.uid = none := by
        have hauth' : app.authUser = none := hauth
        rw [h.uid, hauth']
        simp
      refine ⟨h.auth, ?_, ?_, h.keychain, h.users⟩
      · have hauth' : app.authUser = none := hauth
        simp [App.present, hnone, hauth']
      · intro x hx c hc
        refine ⟨rfl, ?_, ?_, hphoto x hx c hc⟩
        · rcases List.mem_cons.mp hx with rfl | hold
          · obtain rfl : ({} : PersonalInformationViewController) = c := by simpa using hc
            exact hnone.symm
          · exact (h.forms x hold c hc).2.uid
        · rcases List.mem_cons.mp hx with rfl | hold
          · obtain rfl : ({} : PersonalInformationViewController) = c := by simpa using hc
            simp
          · exact (h.forms x hold c hc).2.account
    · next user hauth =>
      exact stateDidChange rfl hauth (h.auth user hauth) hphoto h.users
  · exact h

theorem loginAnswered (h : Known account photo app) (sender : ℕ) {result : Except String User}
    (haccount : ∀ user, result = .ok user → account user) :
    Known account photo (app.loginAnswered sender result) := by
  cases result with
  | error description => exact h.presentFrom sender (by simp)
  | ok user =>
    have hs := h.signedIn (haccount user rfl)
    refine segueToTabController ⟨hs.auth, hs.uid, hs.forms, ?_, hs.users⟩
    rintro _ ⟨⟩
    exact ⟨user, haccount user rfl, rfl⟩

theorem userCreated (h : Known account photo app) (sender : ℕ) {result : Except String User}
    (haccount : ∀ user, result = .ok user → account user) :
    Known account photo (app.userCreated sender result) := by
  cases result with
  | error description => exact h.presentFrom sender (by simp)
  | ok user =>
    obtain ⟨hauth, huid, hforms, hkeychain, husers⟩ := h.signedIn (haccount user rfl)
    rw [App.userCreated]
    dsimp only
    split <;> exact ⟨hauth, huid, hforms, hkeychain, husers⟩

theorem signInAnswered (h : Known account photo app) (sender : ℕ) {result : Except String User}
    (haccount : ∀ user, result = .ok user → account user) :
    Known account photo (app.signInAnswered sender result) := by
  cases result with
  | error description => exact h.presentPersonalInformation sender
  | ok user => exact (h.signedIn (haccount user rfl)).presentPersonalInformation sender

theorem answer (h : Known account photo app) (n : ℕ) {result : Except String User}
    (haccount : ∀ user, result = .ok user → account user) :
    Known account photo (app.answer n result) := by
  rw [App.answer]
  split
  · exact h
  · next x _ =>
    obtain ⟨sender, request⟩ := x
    have hc : Known account photo { app with requests := app.requests.eraseIdx n } :=
      ⟨h.auth, h.uid, h.forms, h.keychain, h.users⟩
    cases request with
    | login email password => exact hc.loginAnswered sender haccount
    | createUser email password => exact hc.userCreated sender haccount
    | signIn email password => exact hc.signInAnswered sender haccount

theorem readQuestions (h : Known account photo app) : Known account photo app.readQuestions :=
  h.congr (SameSession.readQuestions app) h.forms

/-- The user that is unwrapped is there, and the uid is a segment of a path. -/
theorem sendUserData_eq (hsegment : ∀ user, account user → IsSegment user.uid)
    {c : PersonalInformationViewController} (hc : Held account photo app.uid c) :
    app.sendUserData c = app ∨ ∃ photoURL uid user fields, c.photoURL = some photoURL ∧
      app.uid = some uid ∧ c.user = some user ∧ user.uid = uid ∧
      UserDataConverter.parsedSetData (profileJson (userData c photoURL user)) = .ok fields ∧
      create (userData c photoURL user) uid .questions app.users =
        (Database.setData app.users (.child .users uid) fields, .issued) ∧
      app.sendUserData c = App.readQuestions (App.segueToTabController
        { app with users := Database.setData app.users (.child .users uid) fields }) := by
  rw [App.sendUserData]
  split
  · exact .inl rfl
  · exact .inl rfl
  · next uid _ huid huser =>
    have hnone := hc.uid
    rw [huid, huser] at hnone
    cases hnone
  · next photoURL uid user hphotoURL huid huser =>
    have hsame : user.uid = uid := by
      have hsome := hc.uid
      rw [huid, huser] at hsome
      exact Option.some.inj hsome
    have hs : IsSegment uid := hsame ▸ hsegment user (hc.account user huser)
    obtain ⟨fields, hfields⟩ := parsedSetData_profile (userData c photoURL user)
    have hcreate := create_profile hs (userData c photoURL user) .questions app.users hfields
    refine .inr ⟨photoURL, uid, user, fields, hphotoURL, huid, huser, hsame, hfields, hcreate, ?_⟩
    rw [hcreate]

theorem sendUserData (h : Known account photo app) (hsegment : ∀ user, account user → IsSegment user.uid)
    {c : PersonalInformationViewController} (hc : Held account photo app.uid c) :
    Known account photo (app.sendUserData c) := by
  obtain heq | ⟨photoURL, uid, user, fields, hphotoURL, -, huser, hsame, hfields, -, heq⟩ :=
    sendUserData_eq hsegment hc
  · rwa [heq]
  · rw [heq]
    refine readQuestions (segueToTabController ⟨h.auth, h.uid, h.forms, h.keychain, ?_⟩)
    intro key fields' hkey
    by_cases he : key = .child .users uid
    · subst he
      obtain rfl : fields = fields' := by
        simpa [Database.setData] using hkey
      exact ⟨user, c, photoURL, hc.account user huser, hc.photo photoURL hphotoURL, by rw [hsame],
        hfields⟩
    · exact h.users key fields' (by simpa [Database.setData, he] using hkey)

theorem held (h : Known account photo app) {k : ℕ} {c : PersonalInformationViewController}
    {rest : List (ℕ × Sheet)} (hp : app.presented = (k, .personalInformation c) :: rest) :
    Held account photo app.uid c :=
  (h.forms (k, .personalInformation c) (by simp [hp]) c rfl).2

theorem submitInformation (h : Known account photo app)
    (hsegment : ∀ user, account user → IsSegment user.uid) :
    Known account photo app.submitInformation := by
  rw [App.submitInformation]
  split
  · next hp => exact h.sendUserData hsegment (h.held hp)
  · exact h

theorem logout (h : Known account photo app) (removed : Bool) :
    Known account photo (app.logout removed) := by
  rw [App.logout]
  split
  · split_ifs
    · exact h
    · exact presentLogin ⟨h.auth, h.uid, h.forms, by simp, h.users⟩
  · exact h

theorem survey (h : Known account photo app) (a : FirstViewController.Action) :
    Known account photo (app.survey a) := by
  rw [App.survey]
  split
  · exact h
  · split_ifs
    · exact ⟨h.auth, h.uid, h.forms, h.keychain, h.users⟩
    · exact h

theorem edit (h : Known account photo app) (field : Field) (text : String) :
    Known account photo (app.edit field text) := by
  refine h.congr (SameSession.edit app field text) ?_
  rw [App.edit]
  split
  · exact h.forms
  · next x rest hp =>
    intro y hy c hc
    rcases List.mem_cons.mp hy with rfl | hold
    · cases hsheet : x.2 with
      | personalInformation c' =>
        obtain ⟨hl, huid, haccount, hphoto⟩ := h.forms x (by simp [hp]) c' hsheet
        have hkept : c.user = c'.user ∧ c.photoURL = c'.photoURL := by
          simp only [hsheet, Sheet.edit] at hc
          split at hc <;> cases hc <;> exact ⟨rfl, rfl⟩
        exact ⟨hl, by rw [hkept.1]; exact huid, by rw [hkept.1]; exact haccount,
          by rw [hkept.2]; exact hphoto⟩
      | login _ | registration _ =>
        simp only [hsheet, Sheet.edit] at hc
        split at hc <;> cases hc
      | alert _ _ => simp [hsheet, Sheet.edit] at hc
    · exact h.forms y (by simp [hp, hold]) c hc

theorem login (h : Known account photo app) : Known account photo app.login := by
  refine h.congr (SameSession.login app) ?_
  refine h.forms_of_presented (SameSession.login app) fun x hx c _ ↦ ?_
  unfold App.login at hx
  split at hx
  · split at hx <;> exact hx
  · exact hx

theorem showRegistration (h : Known account photo app) : Known account photo app.showRegistration := by
  rw [App.showRegistration]
  split
  · exact h.present (by simp)
  · exact h

theorem registerUser (h : Known account photo app) : Known account photo app.registerUser := by
  rw [App.registerUser]
  split
  · split_ifs
    · exact ⟨h.auth, h.uid, h.forms, h.keychain, h.users⟩
    · exact h.present (by simp)
  · exact h

theorem setProfilePicUrl (h : Known account photo app) {url : String} (hurl : photo url) :
    Known account photo (app.photo url) := by
  refine h.congr (SameSession.photo app url) fun x hx c hc ↦ ?_
  obtain ⟨y, hy, rfl⟩ := List.mem_map.mp hx
  cases hsheet : y.2 with
  | personalInformation c' =>
    obtain ⟨hl, huid, haccount, -⟩ := h.forms y hy c' hsheet
    obtain rfl : { c' with photoURL := some url } = c := by
      simpa [Sheet.setProfilePicUrl, hsheet] using hc
    refine ⟨hl, huid, haccount, ?_⟩
    rintro _ ⟨⟩
    exact hurl
  | login _ | registration _ | alert _ _ => simp [Sheet.setProfilePicUrl, hsheet] at hc

theorem dismiss (h : Known account photo app) : Known account photo app.dismiss := by
  rw [App.dismiss]
  split
  · exact h
  · next x rest hp =>
    refine ⟨h.auth, h.uid, fun y hy c hc ↦ ?_, h.keychain, h.users⟩
    exact h.forms y (by rw [hp]; exact List.mem_cons_of_mem x hy) c hc

end Known

theorem known_step (h : Known account photo app) (hsegment : ∀ user, account user → IsSegment user.uid)
    {action : Action} (haccount : ∀ n user, action = .answer n (.ok user) → account user)
    (hphoto : ∀ url, action = .photo url → photo url) : Known account photo (app.step action) := by
  cases hcrash : app.crash with
  | some failure =>
    cases action with
    | launch => simpa [step, hcrash] using h.launch
    | _ => simpa [step, hcrash] using h
  | none =>
    rw [step_alive hcrash]
    cases action with
    | launch => exact h.launch
    | edit field text => exact h.edit field text
    | loginButton => exact h.login
    | showRegistration => exact h.showRegistration
    | registerButton => exact h.registerUser
    | answer n result => exact h.answer n fun user hu ↦ haccount n user (by rw [hu])
    | photo url => exact h.setProfilePicUrl (hphoto url rfl)
    | submitInformation => exact h.submitInformation hsegment
    | dismiss => exact h.dismiss
    | logout removed => exact h.logout removed
    | survey a => exact h.survey a
    | questions snapshot =>
      obtain ⟨crash, heq⟩ := questions_eq app snapshot
      rw [act, heq]
      exact ⟨h.auth, h.uid, h.forms, h.keychain, h.users⟩
    | profile n document =>
      obtain ⟨fetches, crash, heq⟩ := profile_eq app n document
      rw [act, heq]
      exact ⟨h.auth, h.uid, h.forms, h.keychain, h.users⟩

/-- The accounts that have signed in during the run. -/
def SignedIn (actions : List Action) (user : User) : Prop :=
  IsSegment user.uid ∧ ∃ n, .answer n (.ok user) ∈ actions

def Uploaded (actions : List Action) (url : String) : Prop := .photo url ∈ actions

theorem known_run {accounts : List String} {actions : List Action}
    (h : Execution.Along step (fun app action ↦ app.isHonest action) { accounts := accounts } actions) :
    Known (SignedIn actions) (Uploaded actions) (run { accounts := accounts } actions) := by
  have hmem : Execution.Along step (fun _ action ↦ action ∈ actions) { accounts := accounts } actions :=
    Execution.along_of_forall (fun _ hmem _ ↦ hmem) _
  refine Execution.invariant_along (I := Known (SignedIn actions) (Uploaded actions)) ?_
    (Known.installed accounts) (Execution.along_and h hmem)
  rintro app action hknown ⟨hhonest, hin⟩
  refine known_step hknown (fun _ hu ↦ hu.1) ?_ ?_
  · rintro n user rfl
    simp only [isHonest, Bool.and_eq_true] at hhonest
    exact ⟨by simpa using hhonest.1, n, hin⟩
  · rintro url rfl
    exact hin

section

variable (app)

/-- The process ends in the survey screen, or with a callback that nobody sees
any more and that cannot decode what it is given. -/
def Ends : Action → Failure → Prop
  | .survey a, failure =>
    ∃ uid screen, app.root = .tab uid screen ∧ (screen.step a).crash = some failure
  | .questions snapshot, failure => readCallback Questions snapshot = .crashed failure
  | .profile _ document, failure => profileCallback document = .crashed failure
  | _, _ => False

theorem received_crash {α : Type} {delivery : Delivery α} {failure : Failure}
    (hcrash : app.crash = none) (h : (app.received delivery).crash = some failure) :
    delivery = .crashed failure := by
  cases delivery with
  | crashed _ => exact congrArg Delivery.crashed (Option.some.inj h)
  | delivered _ | nothing => cases hcrash.symm.trans h

end

/-- The user that `sendUserData` unwraps is always there, and its document can
always be written. -/
theorem ends_act (hknown : Known account photo app)
    (hsegment : ∀ user, account user → IsSegment user.uid) (hcrash : app.crash = none)
    {action : Action} {failure : Failure} (h : (app.act action).crash = some failure) :
    app.Ends action failure := by
  have hkept (hsame : (app.act action).crash = app.crash) : app.Ends action failure := by
    cases (hsame.trans hcrash).symm.trans h
  cases action with
  | launch => cases (SameStore.presentLogin _).crash.symm.trans h
  | submitInformation =>
    apply hkept
    simp only [act, App.submitInformation]
    split
    · next hp =>
      obtain heq | ⟨photoURL, uid, user, fields, -, -, -, -, -, -, heq⟩ :=
        Known.sendUserData_eq hsegment (hknown.held hp)
      · rw [heq]
      · rw [heq]
        rfl
    · rfl
  | survey a =>
    simp only [act, App.survey] at h
    split at h
    · cases hcrash.symm.trans h
    · next uid screen hroot =>
      split_ifs at h
      · exact ⟨uid, screen, hroot, h⟩
      · cases hcrash.symm.trans h
  | questions snapshot =>
    simp only [act, App.questions] at h
    split_ifs at h
    · exact received_crash app hcrash h
    · cases hcrash.symm.trans h
  | profile n document =>
    simp only [act, App.profile] at h
    split at h
    · cases hcrash.symm.trans h
    · exact received_crash { app with fetches := app.fetches.eraseIdx n } hcrash h
  | _ => exact hkept (act_quiet app rfl).crash

/-- Whenever the process has ended, the survey screen or a callback has ended
it, and never a form. -/
theorem crash_survey {accounts : List String} {actions : List Action}
    (h : Execution.Along step (fun app action ↦ app.isHonest action) { accounts := accounts } actions)
    {failure : Failure} (hcrash : (run { accounts := accounts } actions).crash = some failure) :
    ∃ before action, before ++ [action] <+: actions ∧
      (run { accounts := accounts } before).crash = none ∧
      (run { accounts := accounts } before).Ends action failure := by
  induction actions using List.reverseRecOn with
  | nil => cases hcrash
  | append_singleton actions action ih =>
    obtain ⟨hbefore, -⟩ := Execution.along_append.mp h
    rw [run_concat] at hcrash
    cases hlive : (run { accounts := accounts } actions).crash with
    | none =>
      rw [step_alive hlive] at hcrash
      exact ⟨actions, action, List.prefix_refl _, hlive,
        ends_act (known_run hbefore) (fun _ hu ↦ hu.1) hlive hcrash⟩
    | some earlier =>
      -- a launch is the only action that is taken, and it starts a new process
      have hold : (run { accounts := accounts } actions).crash = some failure := by
        cases action with
        | launch =>
          have hnone : (run { accounts := accounts } actions).launch.crash = none :=
            (SameStore.presentLogin _).crash
          simp [step, hlive, hnone] at hcrash
        | _ => simpa [step, hlive] using hcrash
      obtain ⟨before, last, hpre, hends⟩ := ih hbefore hold
      exact ⟨before, last, hpre.trans (List.prefix_append _ _), hends⟩

def repeatedQuestions : List DocumentSnapshot :=
  [⟨"q", some [("Question", .string "Rent?"), ("date", .string "May")]⟩,
    ⟨"r", some [("Question", .string "Rent?"), ("date", .string "June")]⟩]

theorem crash_survey_repeated : ∃ before action,
    before ++ [action] <+: annRegisters ++ annSubmits ++
      [.survey (.questions (some repeatedQuestions)), .survey .selectRow] ∧
    (run {} before).crash = none ∧
    (run {} before).Ends action (.raised ResearchKit.ORKOrderedTask.nonUniqueIdentifiers) :=
  crash_survey (by decide +kernel) (by decide +kernel)

/-- Every stored profile belongs to an account that has signed in: it is found
under its uid, and is read back with its email and a photo that was uploaded. -/
theorem profiles_accounted (accounts : List String) {actions : List Action}
    (h : Execution.Along step (fun app action ↦ app.isHonest action) { accounts := accounts } actions)
    {key : DocumentKey} {fields : Fields}
    (hkey : (run { accounts := accounts } actions).users key = some fields) :
    ∃ user n photoURL firstName lastName, .answer n (.ok user) ∈ actions ∧
      .photo photoURL ∈ actions ∧ key = .child .users user.uid ∧
      profileCallback (some ⟨user.uid, some fields⟩) =
        .delivered (UserData.ofFields firstName lastName user.email photoURL user.uid) := by
  obtain ⟨user, c, photoURL, ⟨-, n, hanswer⟩, hphoto, rfl, hfields⟩ :=
    (known_run h).users key fields hkey
  exact ⟨user, n, photoURL, c.firstName, c.lastName, hanswer, hphoto, rfl,
    profileCallback_stored user.uid hfields⟩

theorem profiles_accounted_submitted : ∃ user n photoURL firstName lastName,
    .answer n (.ok user) ∈ annRegisters ++ annSubmits ∧
    .photo photoURL ∈ annRegisters ++ annSubmits ∧
    DocumentKey.child .users "u" = .child .users user.uid ∧
    profileCallback (some ⟨user.uid, some [("firstName", .string "Ann"), ("lastName", .string "Lee"),
      ("userEmail", .string "ann@lee"), ("photoUrl", .string "url")]⟩) =
      .delivered (UserData.ofFields firstName lastName user.email photoURL user.uid) :=
  profiles_accounted [] (by decide +kernel) rfl

end App

end Croesus.Session
