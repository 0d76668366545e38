import Croesus.Session.Registration

namespace Croesus.Session

open ActivityIndicator Library FirstViewController
open Registering (IsCovered showLoadingAdded_covered hideLoading_covered drain_hideLoading
  edit_requests)

/-- The app while a login screen is open, with the overlays. -/
structure LoggingIn where
  app : App
  loading : Overlays ℕ

namespace LoggingIn

inductive Event
  | edit (field : Field) (text : String)
  | loginButton
  | answer (n : ℕ) (result : Except String User)
  | dismissAlert
  | block

variable (s : LoggingIn)

/-- The overlay of `checkAlreadyLoggedIn` is shown and hidden either way. -/
def presentLogin : LoggingIn where
  app := s.app.presentLogin
  loading := (s.loading.showLoadingAdded s.app.next).hideLoading

def login (sender : ℕ) (c : LoginViewController) : LoggingIn :=
  -- the guard comes before the overlay
  if c.userName = "" ∨ c.password = "" then s
  else { app := s.app.login, loading := s.loading.showLoadingAdded sender }

/-- The controller and the fields of the login screen whose button can be pressed. -/
def reachable : Option (ℕ × LoginViewController) :=
  match s.app.presented with
  | (sender, .login c) :: _ =>
    if (s.loading.subviews sender).isSome then none else some (sender, c)
  | _ => none

def loginButton : LoggingIn :=
  match s.reachable with
  | none => s
  | some (sender, c) => s.login sender c

def answer (n : ℕ) (result : Except String User) : LoggingIn :=
  match s.app.requests[n]? with
  | none => s
  | some _ => { app := s.app.answer n result, loading := s.loading.hideLoading }

def dismissAlert : LoggingIn :=
  match s.app.presented with
  | (_, .alert _ _) :: _ => { s with app := s.app.dismiss }
  | _ => s

def step : Event → LoggingIn
  | .edit field text => { s with app := s.app.edit field text }
  | .loginButton => s.loginButton
  | .answer n result => s.answer n result
  | .dismissAlert => s.dismissAlert
  | .block => { s with loading := s.loading.block }

/-- The calls of Firebase Auth that the step makes. -/
def calls (event : Event) : List (ℕ × Request) :=
  match event with
  | .answer n _ => (s.step event).app.requests.drop (s.app.requests.eraseIdx n).length
  | _ => (s.step event).app.requests.drop s.app.requests.length

/-- The answer is to a sign-in that is under way. -/
def Answers (n : ℕ) : Prop := n < s.app.requests.length

/-- What the step has to do with the login that the controller `sender` is for. -/
structure Follows (sender : ℕ) (event : Event) : Prop where
  signIn : ∀ x ∈ s.calls event, ∃ c rest, event = .loginButton ∧ s.app.requests = [] ∧
    s.app.presented = (sender, .login c) :: rest ∧
      x = (sender, .login c.userName c.password) ∧ c.userName ≠ "" ∧ c.password ≠ ""
  left : s.app.presented ≠ [] → ((s.step event).app.presented = [] ↔
    ∃ n user, event = .answer n (.ok user) ∧ s.Answers n)
  admitted : ∀ n user, event = .answer n (.ok user) → s.Answers n →
    (s.step event).app.root = .tab (some user.uid) (Screen.load (some user.uid)) ∧
      (s.step event).app.keychain = some user.uid
  refused : ∀ n description, event = .answer n (.error description) → s.Answers n →
    (∃ c rest, s.app.presented = (sender, .login c) :: rest) ∧ (s.step event).app.presented =
      (s.app.next, .alert "Sign In Failed" description) :: s.app.presented
  kept : (¬ ∃ n user, event = .answer n (.ok user) ∧ s.Answers n) →
    App.SameSession s.app (s.step event).app
  covered : ((s.step event).loading.drain.subviews sender).isSome ↔
    (s.step event).app.requests ≠ []

/-- A login screen is about to be presented. -/
structure Closed : Prop where
  keychain : s.app.keychain = none
  requests : s.app.requests = []
  consistent : s.loading.Consistent
  queue : s.loading.queue = 0
  subviews : s.loading.subviews s.app.next = none

/-- The login screen with or without an alert, or what is left once it has gone. -/
inductive OnScreen (sender : ℕ) : List (ℕ × Sheet) → Prop
  | login c rest : OnScreen sender ((sender, .login c) :: rest)
  | alert k title message c rest :
    OnScreen sender ((k, .alert title message) :: (sender, .login c) :: rest)
  | gone : OnScreen sender []

/-- Nothing is under way, and an overlay on the screen is about to be removed. -/
structure Idle (sender : ℕ) : Prop where
  requests : s.app.requests = []
  presented : OnScreen sender s.app.presented
  loading : s.loading.queue = 0 ∧ s.loading.subviews sender = none ∨
    s.loading.queue = 1 ∧ IsCovered s.loading sender

/-- A sign-in is under way, and the overlay covers the screen. -/
structure Waiting (sender : ℕ) : Prop where
  requests : ∃ email password, s.app.requests = [(sender, .login email password)]
  presented : ∃ c rest, s.app.presented = (sender, .login c) :: rest
  queue : s.loading.queue = 0
  loading : IsCovered s.loading sender

structure Invariant (sender : ℕ) : Prop where
  consistent : s.loading.Consistent
  phase : s.Idle sender ∨ s.Waiting sender

variable {s} {sender : ℕ}

theorem Closed.invariant (h : s.Closed) : s.presentLogin.Invariant s.app.next := by
  have hcovered := showLoadingAdded_covered h.subviews
  have hshown := h.consistent.showLoadingAdded s.app.next
  obtain ⟨hq, hcovered'⟩ := hideLoading_covered hcovered
  have happ : s.presentLogin.app = s.app.present (.login {}) := by
    rw [presentLogin, App.presentLogin, h.keychain]
    rfl
  refine ⟨hshown.hideLoading, .inl ⟨?_, ?_, .inr ⟨?_, hcovered'⟩⟩⟩
  · rw [happ]
    exact h.requests
  · rw [happ]
    exact .login _ _
  · rw [presentLogin, hq, Overlays.showLoadingAdded_queue, h.queue]

/-- Once the queue has drained the overlay covers the screen exactly while a
sign-in is under way. -/
theorem Invariant.covered (h : s.Invariant sender) :
    (s.loading.drain.subviews sender).isSome ↔ s.app.requests ≠ [] := by
  rw [Overlays.drain_subviews h.consistent, Overlays.remaining]
  obtain hi | hw := h.phase
  · obtain ⟨hq, hs⟩ | ⟨hq, view, hs, hb⟩ := hi.loading
    · simp [hq, hs, hi.requests]
    · simp [hq, hs, hb, hi.requests]
  · obtain ⟨view, hs, -⟩ := hw.loading
    obtain ⟨email, password, hr⟩ := hw.requests
    simp [hw.queue, hs, hr]

/-- The button can only be pressed on the screen itself, and with nothing under way. -/
theorem Invariant.reachable (h : s.Invariant sender) {x : ℕ × LoginViewController}
    (hr : s.reachable = some x) : x.1 = sender ∧
      (∃ rest, s.app.presented = (sender, .login x.2) :: rest) ∧
      s.app.requests = [] ∧ s.loading.queue = 0 ∧ s.loading.subviews sender = none := by
  rw [LoggingIn.reachable] at hr
  split at hr
  · next k c rest hp =>
    split_ifs at hr with hs
    obtain rfl := Option.some.inj hr
    obtain hi | hw := h.phase
    · have hsender : k = sender := by
        have honscreen := hi.presented
        rw [hp] at honscreen
        cases honscreen
        rfl
      subst hsender
      obtain ⟨hq, hnone⟩ | ⟨-, view, hview, -⟩ := hi.loading
      · exact ⟨rfl, ⟨rest, hp⟩, hi.requests, hq, hnone⟩
      · simp [hview] at hs
    · obtain ⟨c', rest', hp'⟩ := hw.presented
      obtain ⟨view, hview, -⟩ := hw.loading
      cases hp.symm.trans hp'
      simp [hview] at hs
  · cases hr

theorem OnScreen.edit {app : App} (h : OnScreen sender app.presented) (field : Field)
    (text : String) : OnScreen sender (app.edit field text).presented := by
  generalize hp : app.presented = presented at h
  cases h with
  | login c rest => cases field <;> simpa [App.edit, hp, Sheet.edit] using .login _ _
  | alert k title message c rest => simpa [App.edit, hp, Sheet.edit] using .alert _ _ _ _ _
  | gone => simpa [App.edit, hp] using .gone

theorem step_edit (h : s.Invariant sender) (field : Field) (text : String) :
    (s.step (.edit field text)).Invariant sender where
  consistent := h.consistent
  phase := by
    have hrequests := edit_requests s.app field text
    obtain hi | hw := h.phase
    · exact .inl ⟨hrequests.trans hi.requests, hi.presented.edit field text, hi.loading⟩
    · obtain ⟨⟨email, password, hr⟩, ⟨c, rest, hp⟩, hq, hl⟩ := hw
      refine .inr ⟨⟨email, password, hrequests.trans hr⟩, ?_, hq, hl⟩
      cases field <;> exact ⟨_, rest, by simp [step, App.edit, hp, Sheet.edit]; rfl⟩

theorem dismissAlert_cases (s : LoggingIn) : s.dismissAlert = s ∨
    ∃ k title message rest, s.app.presented = (k, .alert title message) :: rest ∧
      s.dismissAlert.app.presented = rest ∧ s.dismissAlert.app.requests = s.app.requests ∧
      s.dismissAlert.loading = s.loading := by
  unfold dismissAlert
  split
  · next k title message rest hp =>
    refine .inr ⟨k, title, message, rest, hp, ?_, ?_, rfl⟩
    · simp [App.dismiss, hp]
    · simp [App.dismiss, hp]
  · exact .inl rfl

theorem dismissAlert_session (s : LoggingIn) : App.SameSession s.app s.dismissAlert.app := by
  unfold dismissAlert
  split
  · exact .dismiss s.app
  · exact .refl s.app

theorem step_dismissAlert (h : s.Invariant sender) : (s.step .dismissAlert).Invariant sender := by
  rw [step]
  obtain heq | ⟨k, title, message, rest, hp, hp', hr, hl⟩ := dismissAlert_cases s
  · rwa [heq]
  · refine ⟨by rw [hl]; exact h.consistent, .inl ?_⟩
    obtain hi | hw := h.phase
    · refine ⟨hr.trans hi.requests, ?_, by rw [hl]; exact hi.loading⟩
      have honscreen := hi.presented
      rw [hp] at honscreen
      rw [hp']
      cases honscreen
      exact .login _ _
    · obtain ⟨c, rest', hw⟩ := hw.presented
      cases hp.symm.trans hw

theorem step_block (h : s.Invariant sender) : (s.step .block).Invariant sender where
  consistent := h.consistent.block
  phase := by
    obtain ⟨hr, hp, ⟨hq, hs⟩ | ⟨hq, view, hs, hb⟩⟩ | hw := h.phase
    · refine .inl ⟨hr, hp, .inl ?_⟩
      rw [step, Overlays.block_idle hq]
      exact ⟨hq, hs⟩
    · refine .inl ⟨hr, hp, .inl ⟨by rw [step, Overlays.block_queue h.consistent, hq], ?_⟩⟩
      rw [step, Overlays.block_subviews h.consistent, Overlays.remaining,
        if_pos ⟨by omega, hs.trans hb.symm⟩]
    · right
      rw [step, Overlays.block_idle hw.queue]
      exact hw

/-- The button does nothing, or with both fields filled it signs in with them. -/
theorem loginButton_cases (h : s.Invariant sender) : s.step .loginButton = s ∨
    ∃ c rest, s.app.presented = (sender, .login c) :: rest ∧ s.app.requests = [] ∧
      s.loading.queue = 0 ∧ s.loading.subviews sender = none ∧ c.userName ≠ "" ∧ c.password ≠ "" ∧
      s.step .loginButton =
        { app := { s.app with requests := [(sender, .login c.userName c.password)] }
          loading := s.loading.showLoadingAdded sender } := by
  simp only [step, loginButton]
  cases hreach : s.reachable with
  | none => exact .inl rfl
  | some x =>
    obtain ⟨rfl, ⟨rest, hp⟩, hr, hq, hs⟩ := h.reachable hreach
    by_cases hempty : x.2.userName = "" ∨ x.2.password = ""
    · exact .inl (if_pos hempty)
    · have hfilled := not_or.mp hempty
      refine .inr ⟨x.2, rest, hp, hr, hq, hs, hfilled.1, hfilled.2, ?_⟩
      simp [login, hempty, App.login, hp, hr]

theorem step_loginButton (h : s.Invariant sender) : (s.step .loginButton).Invariant sender := by
  obtain heq | ⟨c, rest, hp, hr, hq, hs, -, -, heq⟩ := loginButton_cases h
  · rwa [heq]
  · rw [heq]
    refine ⟨h.consistent.showLoadingAdded sender, .inr ⟨⟨_, _, rfl⟩, ⟨c, rest, hp⟩, ?_, ?_⟩⟩
    · simp [hq]
    · exact showLoadingAdded_covered hs

/-- An answer finds the one call that is under way. -/
theorem Invariant.answered (h : s.Invariant sender) {n : ℕ} (hn : s.Answers n) :
    n = 0 ∧ (∃ email password, s.app.requests = [(sender, .login email password)]) ∧
      s.Waiting sender := by
  rw [Answers] at hn
  obtain hi | hw := h.phase
  · simp [hi.requests] at hn
  · obtain ⟨email, password, hr⟩ := hw.requests
    rw [hr, List.length_singleton] at hn
    exact ⟨by omega, ⟨email, password, hr⟩, hw⟩

theorem answer_nothing {n : ℕ} (h : ¬ s.Answers n) (result : Except String User) :
    s.step (.answer n result) = s := by
  have hnone : s.app.requests[n]? = none := List.getElem?_eq_none (Nat.not_lt.mp h)
  simp only [step, answer, hnone]

section Answer

variable {email password : String} {c : LoginViewController} {rest : List (ℕ × Sheet)}

theorem answer_error (hr : s.app.requests = [(sender, .login email password)])
    (hp : s.app.presented = (sender, .login c) :: rest) (description : String) :
    s.step (.answer 0 (.error description)) =
      { app := { s.app with
          requests := []
          presented := (s.app.next, .alert "Sign In Failed" description) :: (sender, .login c) :: rest
          next := s.app.next + 1 }
        loading := s.loading.hideLoading } := by
  simp [step, answer, App.answer, hr, App.answered, App.loginAnswered, App.presentFrom, App.isOnTop,
    hp, App.present]

theorem answer_ok (hr : s.app.requests = [(sender, .login email password)]) (user : User) :
    s.step (.answer 0 (.ok user)) =
      { app := App.loginAnswered { s.app with requests := [] } sender (.ok user)
        loading := s.loading.hideLoading } := by
  simp [step, answer, App.answer, hr, App.answered]

end Answer

theorem loginAnswered_ok (sender : ℕ) (app : App) (user : User) :
    (app.loginAnswered sender (.ok user)).presented = [] ∧
      (app.loginAnswered sender (.ok user)).requests = app.requests ∧
      (app.loginAnswered sender (.ok user)).root =
        .tab (some user.uid) (Screen.load (some user.uid)) ∧
      (app.loginAnswered sender (.ok user)).keychain = some user.uid := by
  refine ⟨rfl, ?_, rfl, rfl⟩
  rw [App.loginAnswered, App.segueToTabController, App.signedIn]
  split_ifs <;> rfl

theorem step_answer (h : s.Invariant sender) (n : ℕ) (result : Except String User) :
    (s.step (.answer n result)).Invariant sender := by
  by_cases hn : s.Answers n
  · obtain ⟨rfl, ⟨email, password, hr⟩, -, ⟨c, rest, hp⟩, hq, hcovered⟩ := h.answered hn
    obtain ⟨hq', hcovered'⟩ := hideLoading_covered hcovered
    have hhidden : s.loading.hideLoading.queue = 1 := by rw [hq', hq]
    cases result with
    | error description =>
      rw [answer_error hr hp description]
      exact ⟨h.consistent.hideLoading,
        .inl ⟨rfl, .alert _ _ _ c rest, .inr ⟨hhidden, hcovered'⟩⟩⟩
    | ok user =>
      obtain ⟨hgone, hrequests, -⟩ := loginAnswered_ok sender
        { s.app with requests := [] } user
      rw [answer_ok hr]
      refine ⟨h.consistent.hideLoading, .inl ⟨hrequests, ?_, .inr ⟨hhidden, hcovered'⟩⟩⟩
      rw [hgone]
      exact .gone
  · rwa [answer_nothing hn]

theorem Invariant.step (h : s.Invariant sender) (event : Event) :
    (s.step event).Invariant sender := by
  cases event with
  | edit field text => exact step_edit h field text
  | loginButton => exact step_loginButton h
  | answer n result => exact step_answer h n result
  | dismissAlert => exact step_dismissAlert h
  | block => exact step_block h

/-- A step that calls nothing, answers nothing and leaves the screen where it is. -/
theorem follows_of_quiet (h : s.Invariant sender) {event : Event}
    (hsame : App.SameSession s.app (s.step event).app) (hcalls : s.calls event = [])
    (hpresented : s.app.presented ≠ [] → (s.step event).app.presented ≠ [])
    (hanswer : ∀ n result, event = .answer n result → ¬ s.Answers n) : s.Follows sender event where
  signIn x hx := by simp [hcalls] at hx
  left hne := by
    refine iff_of_false (hpresented hne) ?_
    rintro ⟨n, user, he, hn⟩
    exact hanswer n _ he hn
  admitted n user he hn := absurd hn (hanswer n _ he)
  refused n description he hn := absurd hn (hanswer n _ he)
  kept _ := hsame
  covered := (h.step event).covered

theorem follows_edit (h : s.Invariant sender) (field : Field) (text : String) :
    s.Follows sender (.edit field text) := by
  refine follows_of_quiet h (.edit s.app field text) ?_ ?_ (by simp)
  · simp [calls, step, edit_requests]
  · intro hne
    cases hp : s.app.presented with
    | nil => exact absurd hp hne
    | cons x rest => simp [step, App.edit, hp]

theorem follows_dismissAlert (h : s.Invariant sender) : s.Follows sender .dismissAlert := by
  have hstep := dismissAlert_cases s
  refine follows_of_quiet h (dismissAlert_session s) ?_ ?_ (by simp)
  · obtain heq | ⟨-, -, -, -, -, -, hr, -⟩ := hstep
    · simp [calls, step, heq]
    · simp [calls, step, hr]
  · intro hne
    obtain heq | ⟨k, title, message, rest, hp, hp', hr, -⟩ := hstep
    · simpa [step, heq] using hne
    · obtain hi | hw := h.phase
      · have honscreen := hi.presented
        rw [hp] at honscreen
        cases honscreen
        simp [step, hp']
      · obtain ⟨c, rest', hw⟩ := hw.presented
        cases hp.symm.trans hw

theorem follows_block (h : s.Invariant sender) : s.Follows sender .block :=
  follows_of_quiet h (.refl s.app) (by simp [calls, step]) id (by simp)

theorem follows_loginButton (h : s.Invariant sender) : s.Follows sender .loginButton := by
  obtain heq | ⟨c, rest, hp, hr, -, -, hname, hpassword, heq⟩ := loginButton_cases h
  · refine follows_of_quiet h (by rw [heq]; exact .refl s.app) ?_ ?_ (by simp)
    · simp [calls, heq]
    · rw [heq]
      exact id
  · have hcalls : s.calls .loginButton = [(sender, .login c.userName c.password)] := by
      simp [calls, heq, hr]
    refine ⟨fun x hx ↦ ?_, fun hne ↦ ?_, by simp, by simp, fun _ ↦ ?_, (h.step _).covered⟩
    · rw [hcalls, List.mem_singleton] at hx
      exact ⟨c, rest, rfl, hr, hp, hx, hname, hpassword⟩
    · refine iff_of_false ?_ (by simp)
      rwa [heq]
    · rw [heq]
      exact .of_sheets s.app _ _ _ _

theorem follows_answer (h : s.Invariant sender) (n : ℕ) (result : Except String User) :
    s.Follows sender (.answer n result) := by
  by_cases hn : s.Answers n
  · obtain ⟨rfl, ⟨email, password, hr⟩, hw⟩ := h.answered hn
    obtain ⟨c, rest, hp⟩ := hw.presented
    have hcovered := (h.step (.answer 0 result)).covered
    cases result with
    | error description =>
      have heq := answer_error hr hp description
      have hcalls : s.calls (.answer 0 (.error description)) = [] := by simp [calls, heq]
      refine ⟨by simp [hcalls], fun _ ↦ iff_of_false ?_ (by simp), by simp, ?_, fun _ ↦ ?_, hcovered⟩
      · simp [heq]
      · rintro _ _ he -
        obtain ⟨-, ⟨⟩⟩ := Event.answer.inj he
        rw [heq, hp]
        exact ⟨⟨c, rest, rfl⟩, rfl⟩
      · rw [heq]
        exact .of_sheets s.app _ _ _ _
    | ok user =>
      obtain ⟨hgone, hrequests, hroot, hkeychain⟩ := loginAnswered_ok sender
        { s.app with requests := [] } user
      have heq := answer_ok hr user
      have hcalls : s.calls (.answer 0 (.ok user)) = [] := by simp [calls, heq, hrequests]
      refine ⟨by simp [hcalls], fun _ ↦ iff_of_true ?_ ⟨0, user, rfl, hn⟩, ?_, by simp, ?_, hcovered⟩
      · rw [heq]
        exact hgone
      · rintro _ _ he -
        obtain ⟨-, ⟨⟩⟩ := Event.answer.inj he
        rw [heq]
        exact ⟨hroot, hkeychain⟩
      · exact fun hno ↦ absurd ⟨0, user, rfl, hn⟩ hno
  · have hstep := answer_nothing hn result
    refine follows_of_quiet h (by rw [hstep]; exact .refl s.app) ?_ ?_ ?_
    · simp [calls, hstep, List.eraseIdx_of_length_le (Nat.not_lt.mp hn)]
    · rw [hstep]
      exact id
    · rintro m _ he
      obtain ⟨rfl, -⟩ := Event.answer.inj he
      exact hn

theorem Invariant.follows (h : s.Invariant sender) (event : Event) : s.Follows sender event := by
  cases event with
  | edit field text => exact follows_edit h field text
  | loginButton => exact follows_loginButton h
  | answer n result => exact follows_answer h n result
  | dismissAlert => exact follows_dismissAlert h
  | block => exact follows_block h

/-- From the opening of the screen on, a sign-in is started by the button only,
one at a time and with what is in the fields; the tab bar controller comes with
its success, an alert over the screen with its failure, and nothing else changes
the session; and the overlay covers the screen exactly while it is under way,
once the queue has drained. -/
theorem login_run (h : s.Closed) (events : List Event) :
    Execution.Along step (fun s' event ↦ s'.Follows s.app.next event) s.presentLogin events :=
  Execution.along_of_invariant (I := fun s' ↦ s'.Invariant s.app.next) (P := fun _ _ ↦ True)
    (fun _ event h _ ↦ h.step event) (fun _ event h _ ↦ h.follows event) h.invariant
    (Execution.along_of_forall (fun _ _ _ ↦ trivial) _)

def annLogsIn : List Event :=
  [.edit .userName "ann@lee", .block, .loginButton, .edit .password "sceret", .loginButton,
    .loginButton, .answer 0 (.error "wrong password"), .block, .dismissAlert,
    .edit .password "secret", .loginButton, .answer 0 (.ok ⟨"u", "ann@lee"⟩), .block]

theorem login_run_ann :
    Execution.Along step (fun s event ↦ s.Follows 0 event) (presentLogin ⟨{}, {}⟩) annLogsIn :=
  login_run (s := ⟨{}, {}⟩) ⟨rfl, rfl, .empty, rfl, rfl⟩ annLogsIn

end LoggingIn

end Croesus.Session
