import Croesus.Helpers.ActivityIndicator
import Croesus.Session.App

namespace Croesus.Session

open ActivityIndicator Library

/-- The app while a registration screen is open, with the overlays, which `App`
leaves out. -/
structure Registering where
  app : App
  loading : Overlays ℕ

namespace Registering

/-- The keyboard is not covered by the overlay, but the button is. -/
inductive Event
  | edit (field : Field) (text : String)
  | registerButton
  | answer (n : ℕ) (result : Except String User)
  | dismissAlert
  | block

variable (s : Registering)

def registerUser (sender : ℕ) (c : RegistrationViewController) : Registering :=
  let loading := s.loading.showLoadingAdded sender
  if c.email ≠ "" ∧ c.password ≠ "" ∧ c.cofirmPassword ≠ "" then
    { app := s.app.registerUser, loading := loading }
  else { app := s.app.registerUser, loading := loading.hideLoading }

/-- The controller and the fields of the registration screen whose button can
be pressed. -/
def reachable : Option (ℕ × RegistrationViewController) :=
  match s.app.presented with
  | (sender, .registration c) :: _ =>
    if (s.loading.subviews sender).isSome then none else some (sender, c)
  | _ => none

def registerButton : Registering :=
  match s.reachable with
  | none => s
  | some (sender, c) => s.registerUser sender c

/-- The overlay is shown again before `signIn` is called, and hidden whatever
comes of it. -/
def answer (n : ℕ) (result : Except String User) : Registering :=
  match s.app.requests[n]?, result with
  | none, _ => s
  | some (sender, .createUser _ _), .ok _ =>
    { app := s.app.answer n result, loading := s.loading.showLoadingAdded sender }
  | some _, _ => { app := s.app.answer n result, loading := s.loading.hideLoading }

def dismissAlert : Registering :=
  match s.app.presented with
  | (_, .alert _ _) :: _ => { s with app := s.app.dismiss }
  | _ => s

def step : Event → Registering
  | .edit field text => { s with app := s.app.edit field text }
  | .registerButton => s.registerButton
  | .answer n result => s.answer n result
  | .dismissAlert => s.dismissAlert
  | .block => { s with loading := s.loading.block }

/-- The calls of Firebase Auth that the step makes. -/
def calls (event : Event) : List (ℕ × Request) :=
  match event with
  | .answer n _ => (s.step event).app.requests.drop (s.app.requests.eraseIdx n).length
  | _ => (s.step event).app.requests.drop s.app.requests.length

def showsPersonalInformation : Bool :=
  match s.app.presented with
  | (_, .personalInformation _) :: _ => true
  | _ => false

/-- The registration ends here without `PersonalInformationViewController`: the
button is pressed without anything being called, or a call fails. -/
def IsRefused (event : Event) : Prop :=
  match event with
  | .registerButton => s.reachable.isSome ∧ s.calls event = []
  | .answer n (.error _) => n < s.app.requests.length
  | _ => False

/-- What the step has to do with the registration that the controller `sender` is for. -/
structure Follows (sender : ℕ) (event : Event) : Prop where
  createUser : ∀ email password, (sender, .createUser email password) ∈ s.calls event →
    ∃ c rest, s.app.presented = (sender, .registration c) :: rest ∧
      c.email = email ∧ c.password = password ∧ c.email ≠ "" ∧ c.password ≠ "" ∧
        c.cofirmPassword ≠ "" ∧ c.password = c.cofirmPassword
  signIn : ∀ email password, (sender, .signIn email password) ∈ s.calls event →
    ∃ n user, event = .answer n (.ok user) ∧
      s.app.requests[n]? = some (sender, .createUser email password)
  presented : (s.step event).showsPersonalInformation ∧ ¬ s.showsPersonalInformation ↔
    ∃ n user email password, event = .answer n (.ok user) ∧
      s.app.requests[n]? = some (sender, .signIn email password)
  refused : s.IsRefused event → (s.step event).loading.drain.subviews sender = none ∧
    ∃ k message c rest, (s.step event).app.presented =
      (k, .alert "Error" message) :: (sender, .registration c) :: rest

/-- Where the code keeps to that. -/
def isKept : Event → Bool
  | .registerButton => s.reachable.all fun x ↦
      x.2.email = "" || x.2.password = "" || x.2.cofirmPassword = "" ||
        x.2.password = x.2.cofirmPassword
  | .answer n result =>
    match s.app.requests[n]?, result, s.app.presented with
    | some (_, .createUser email password), .ok _, (_, .registration c) :: _ =>
      c.email = email && c.password = password
    | some (_, .signIn _ _), .error _, _ => false
    | _, _, _ => true
  | _ => true

/-- The registration screen has just been opened. -/
structure Opened (sender : ℕ) : Prop where
  presented : ∃ c rest, s.app.presented = (sender, .registration c) :: rest
  requests : s.app.requests = []
  consistent : s.loading.Consistent
  queue : s.loading.queue = 0
  subviews : s.loading.subviews sender = none

/-- The registration screen, or what it has presented. -/
inductive OnScreen (sender : ℕ) : List (ℕ × Sheet) → Prop
  | registration c rest : OnScreen sender ((sender, .registration c) :: rest)
  | alert k title message c rest :
    OnScreen sender ((k, .alert title message) :: (sender, .registration c) :: rest)
  | personalInformation k p c rest :
    OnScreen sender ((k, .personalInformation p) :: (sender, .registration c) :: rest)

def Request.isRegistration : Request → Bool
  | .login _ _ => false
  | .createUser _ _ | .signIn _ _ => true

/-- The latest overlay is on the view of the controller. -/
def IsCovered (l : Overlays ℕ) (sender : ℕ) : Prop :=
  ∃ view, l.subviews sender = some view ∧ l.blurView = some view

/-- Nothing is under way, and an overlay on the screen is about to be removed. -/
structure Idle (sender : ℕ) : Prop where
  requests : s.app.requests = []
  loading : s.loading.queue = 0 ∧ s.loading.subviews sender = none ∨
    s.loading.queue = 1 ∧ IsCovered s.loading sender

/-- A call is under way, and the overlay covers the screen. -/
structure Waiting (sender : ℕ) : Prop where
  requests : ∃ request, Request.isRegistration request ∧ s.app.requests = [(sender, request)]
  presented : ∃ c rest, s.app.presented = (sender, .registration c) :: rest
  queue : s.loading.queue = 0
  loading : IsCovered s.loading sender

structure Invariant (sender : ℕ) : Prop where
  onScreen : OnScreen sender s.app.presented
  consistent : s.loading.Consistent
  phase : s.Idle sender ∨ s.Waiting sender

variable {s} {sender : ℕ}

theorem Opened.invariant (h : s.Opened sender) : s.Invariant sender where
  onScreen := by
    obtain ⟨c, rest, hp⟩ := h.presented
    rw [hp]
    exact .registration c rest
  consistent := h.consistent
  phase := .inl ⟨h.requests, .inl ⟨h.queue, h.subviews⟩⟩

theorem OnScreen.edit {app : App} (h : OnScreen sender app.presented) (field : Field)
    (text : String) : OnScreen sender (app.edit field text).presented := by
  generalize hp : app.presented = presented at h
  cases h with
  | registration c rest => cases field <;> simpa [App.edit, hp, Sheet.edit] using .registration _ _
  | alert k title message c rest => simpa [App.edit, hp, Sheet.edit] using .alert _ _ _ _ _
  | personalInformation k p c rest =>
    cases field <;> simpa [App.edit, hp, Sheet.edit] using .personalInformation _ _ _ _

/-- The button can only be pressed on the screen itself, and with nothing under way. -/
theorem Invariant.reachable (h : s.Invariant sender) {x : ℕ × RegistrationViewController}
    (hr : s.reachable = some x) : x.1 = sender ∧
      (∃ rest, s.app.presented = (sender, .registration x.2) :: rest) ∧
      s.app.requests = [] ∧ s.loading.queue = 0 ∧ s.loading.subviews sender = none := by
  obtain ⟨honscreen, -, hphase⟩ := h
  rw [Registering.reachable] at hr
  generalize hp : s.app.presented = presented at honscreen hr
  cases honscreen with
  | registration c rest =>
    dsimp only at hr
    split_ifs at hr with hs
    obtain rfl := Option.some.inj hr
    refine ⟨rfl, ⟨rest, rfl⟩, ?_⟩
    have hnone : s.loading.subviews sender = none := by simpa using hs
    obtain ⟨hrequests, ⟨hq, -⟩ | ⟨-, view, hview, -⟩⟩ | ⟨-, -, -, view, hview, -⟩ := hphase
    · exact ⟨hrequests, hq, hnone⟩
    · cases hnone.symm.trans hview
    · cases hnone.symm.trans hview
  | alert k title message c rest => cases hr
  | personalInformation k p c rest => cases hr

theorem showLoadingAdded_covered {l : Overlays ℕ} (hs : l.subviews sender = none) :
    IsCovered (l.showLoadingAdded sender) sender :=
  ⟨⟨l.made, sender⟩, by rw [Overlays.showLoadingAdded_subviews sender sender hs, if_pos rfl],
    Overlays.showLoadingAdded_blurView sender hs⟩

theorem hideLoading_covered {l : Overlays ℕ} (h : IsCovered l sender) :
    l.hideLoading.queue = l.queue + 1 ∧ IsCovered l.hideLoading sender := by
  obtain ⟨view, hs, hb⟩ := h
  rw [Overlays.hideLoading_eq hb]
  exact ⟨rfl, view, hs, hb⟩

theorem drain_hideLoading {l : Overlays ℕ} (hc : l.Consistent) (h : IsCovered l sender) :
    l.hideLoading.drain.subviews sender = none := by
  obtain ⟨hq, view, hs, hb⟩ := hideLoading_covered h
  rw [Overlays.drain_subviews hc.hideLoading, Overlays.remaining,
    if_pos ⟨by omega, hs.trans hb.symm⟩]

theorem edit_requests (app : App) (field : Field) (text : String) :
    (app.edit field text).requests = app.requests := by
  rw [App.edit]
  split <;> rfl

theorem step_edit (h : s.Invariant sender) (field : Field) (text : String) :
    (s.step (.edit field text)).Invariant sender where
  onScreen := h.onScreen.edit field text
  consistent := h.consistent
  phase := by
    have hrequests := edit_requests s.app field text
    obtain hi | hw := h.phase
    · exact .inl ⟨hrequests.trans hi.requests, hi.loading⟩
    · obtain ⟨⟨request, hr, hreq⟩, ⟨c, rest, hp⟩, hq, hl⟩ := hw
      refine .inr ⟨⟨request, hr, hrequests.trans hreq⟩, ?_, hq, hl⟩
      cases field <;> exact ⟨_, rest, by simp [step, App.edit, hp, Sheet.edit]; rfl⟩

theorem dismissAlert_cases (h : OnScreen sender s.app.presented) : s.dismissAlert = s ∨
    ∃ k title message c rest,
      s.app.presented = (k, .alert title message) :: (sender, .registration c) :: rest ∧
      s.dismissAlert.app.presented = (sender, .registration c) :: rest ∧
      s.dismissAlert.app.requests = s.app.requests ∧ s.dismissAlert.loading = s.loading := by
  unfold dismissAlert
  generalize hp : s.app.presented = presented at h
  cases h with
  | registration c rest => exact .inl rfl
  | personalInformation k p c rest => exact .inl rfl
  | alert k title message c rest =>
    right
    refine ⟨k, title, message, c, rest, rfl, ?_, ?_, rfl⟩
    · simp [App.dismiss, hp]
    · simp [App.dismiss, hp]

theorem step_dismissAlert (h : s.Invariant sender) : (s.step .dismissAlert).Invariant sender := by
  rw [step]
  obtain heq | ⟨k, title, message, c, rest, hp, hp', hr, hl⟩ := dismissAlert_cases h.onScreen
  · rwa [heq]
  · refine ⟨by rw [hp']; exact .registration c rest, by rw [hl]; exact h.consistent, .inl ?_⟩
    obtain hi | hw := h.phase
    · exact ⟨hr.trans hi.requests, by rw [hl]; exact hi.loading⟩
    · obtain ⟨c', rest', hw⟩ := hw.presented
      cases hp.symm.trans hw

theorem step_block (h : s.Invariant sender) : (s.step .block).Invariant sender where
  onScreen := h.onScreen
  consistent := h.consistent.block
  phase := by
    obtain ⟨hr, ⟨hq, hs⟩ | ⟨hq, view, hs, hb⟩⟩ | hw := h.phase
    · refine .inl ⟨hr, .inl ?_⟩
      rw [step, Overlays.block_idle hq]
      exact ⟨hq, hs⟩
    · refine .inl ⟨hr, .inl ⟨by rw [step, Overlays.block_queue h.consistent, hq], ?_⟩⟩
      rw [step, Overlays.block_subviews h.consistent, Overlays.remaining,
        if_pos ⟨by omega, hs.trans hb.symm⟩]
    · right
      rw [step, Overlays.block_idle hw.queue]
      exact hw

theorem step_registerButton (h : s.Invariant sender) :
    (s.step .registerButton).Invariant sender := by
  simp only [step, registerButton]
  cases hreach : s.reachable with
  | none => exact h
  | some x =>
    obtain ⟨rfl, ⟨rest, hp⟩, hr, hq, hs⟩ := h.reachable hreach
    have hcovered := showLoadingAdded_covered hs
    have hshown := h.consistent.showLoadingAdded x.1
    simp only [registerUser, App.registerUser, hp]
    split_ifs
    · refine ⟨.registration x.2 rest, hshown, .inr ⟨?_, ⟨x.2, rest, rfl⟩, ?_, hcovered⟩⟩
      · exact ⟨.createUser x.2.email x.2.password, rfl, by rw [hr]; rfl⟩
      · simp [hq]
    · obtain ⟨hq', hcovered'⟩ := hideLoading_covered hcovered
      refine ⟨?_, hshown.hideLoading, .inl ⟨hr, .inr ⟨?_, hcovered'⟩⟩⟩
      · simp only [App.present, hp]
        exact .alert _ _ _ x.2 rest
      · rw [hq', Overlays.showLoadingAdded_queue, hq]

section Answers

variable {c : RegistrationViewController} {rest : List (ℕ × Sheet)}

theorem signedIn_presented (app : App) (user : User)
    (hp : app.presented = (sender, .registration c) :: rest) :
    (app.signedIn user).requests = app.requests ∧
      ∃ rest', (app.signedIn user).presented = (sender, .registration c) :: rest' := by
  rw [App.signedIn]
  split_ifs
  · exact ⟨rfl, _, by rw [App.stateDidChange, hp]; rfl⟩
  · exact ⟨rfl, rest, hp⟩

theorem presentPersonalInformation_presented (app : App)
    (hp : app.presented = (sender, .registration c) :: rest) :
    (app.presentPersonalInformation sender).requests = app.requests ∧
      ∃ k p rest', (app.presentPersonalInformation sender).presented =
        (k, .personalInformation p) :: (sender, .registration c) :: rest' := by
  have htop : app.isOnTop sender := by simp [App.isOnTop, hp]
  rw [App.presentPersonalInformation, if_pos htop, App.setupUserListeners]
  split
  · exact ⟨rfl, app.next, {}, rest, by simp only [App.present, hp]⟩
  · exact ⟨rfl, _, _, _, by simp only [App.present, App.stateDidChange, hp]; rfl⟩

variable {app : App}

theorem answer_createUser_error {email password : String}
    (hp : app.presented = (sender, .registration c) :: rest)
    (hr : app.requests = [(sender, .createUser email password)]) (description : String) :
    (app.answer 0 (.error description)).requests = [] ∧
      (app.answer 0 (.error description)).presented =
        (app.next, .alert "Error" "oops, something went wrong. Please try again") ::
          (sender, .registration c) :: rest := by
  simp [App.answer, hr, App.answered, App.userCreated, App.presentFrom, App.isOnTop, hp, App.present]

/-- What is in the fields now is what `signIn` is called with. -/
theorem answer_createUser_ok {email password : String}
    (hp : app.presented = (sender, .registration c) :: rest)
    (hr : app.requests = [(sender, .createUser email password)]) (user : User) :
    (app.answer 0 (.ok user)).requests = [(sender, .signIn c.email c.password)] ∧
      ∃ rest', (app.answer 0 (.ok user)).presented = (sender, .registration c) :: rest' := by
  obtain ⟨hrequests, rest', hpresented⟩ :=
    signedIn_presented { app with requests := [] } user hp
  have hlookup : (((App.signedIn { app with requests := [] } user).presented ++
      (App.signedIn { app with requests := [] } user).dismissed).lookup sender) =
      some (.registration c) := by
    simp [hpresented]
  simp only [App.answer, hr, App.answered, List.getElem?_cons_zero, List.eraseIdx_cons_zero,
    App.userCreated, hlookup]
  exact ⟨by rw [hrequests]; rfl, rest', hpresented⟩

theorem answer_signIn {email password : String}
    (hp : app.presented = (sender, .registration c) :: rest)
    (hr : app.requests = [(sender, .signIn email password)]) (result : Except String User) :
    (app.answer 0 result).requests = [] ∧ ∃ k p rest', (app.answer 0 result).presented =
      (k, .personalInformation p) :: (sender, .registration c) :: rest' := by
  simp only [App.answer, hr, App.answered, List.getElem?_cons_zero, List.eraseIdx_cons_zero]
  cases result with
  | error description =>
    exact presentPersonalInformation_presented { app with requests := [] } hp
  | ok user =>
    obtain ⟨hrequests, rest', hpresented⟩ :=
      signedIn_presented { app with requests := [] } user hp
    obtain ⟨hr', hp'⟩ := presentPersonalInformation_presented _ hpresented
    exact ⟨hr'.trans hrequests, hp'⟩

end Answers

theorem answer_nothing {n : ℕ} (h : s.app.requests[n]? = none) (result : Except String User) :
    s.step (.answer n result) = s := by
  simp only [step, answer, h]

/-- An answer finds the one call that is under way. -/
theorem Invariant.answered (h : s.Invariant sender) {n : ℕ} {x : ℕ × Request}
    (hx : s.app.requests[n]? = some x) :
    n = 0 ∧ s.app.requests = [x] ∧ x.1 = sender ∧ Request.isRegistration x.2 ∧ s.Waiting sender := by
  obtain hi | hw := h.phase
  · simp [hi.requests] at hx
  · obtain ⟨request, hreq, hr⟩ := hw.requests
    rw [hr, List.getElem?_singleton] at hx
    split_ifs at hx with hn
    obtain rfl := Option.some.inj hx
    exact ⟨hn, hr, rfl, hreq, hw⟩

theorem step_answer (h : s.Invariant sender) (n : ℕ) (result : Except String User) :
    (s.step (.answer n result)).Invariant sender := by
  cases hx : s.app.requests[n]? with
  | none => rwa [answer_nothing hx]
  | some x =>
    obtain ⟨rfl, hr, rfl, hreq, -, ⟨c, rest, hp⟩, hq, hcovered⟩ := h.answered hx
    obtain ⟨sender, request⟩ := x
    obtain ⟨hq', hcovered'⟩ := hideLoading_covered hcovered
    have hhidden : s.loading.hideLoading.queue = 1 := by rw [hq', hq]
    cases request with
    | login email password => cases hreq
    | createUser email password =>
      cases result with
      | error description =>
        obtain ⟨hr', hp'⟩ := answer_createUser_error hp hr description
        simp only [step, answer, hx]
        refine ⟨?_, h.consistent.hideLoading, .inl ⟨hr', .inr ⟨hhidden, hcovered'⟩⟩⟩
        rw [hp']
        exact .alert _ _ _ c rest
      | ok user =>
        obtain ⟨hr', rest', hp'⟩ := answer_createUser_ok hp hr user
        have hshown : s.loading.showLoadingAdded sender = s.loading := by
          obtain ⟨view, hs, -⟩ := hcovered
          exact Overlays.showLoadingAdded_skipped hs
        simp only [step, answer, hx, hshown]
        refine ⟨?_, h.consistent, .inr ⟨⟨_, rfl, hr'⟩, ⟨c, rest', hp'⟩, hq, hcovered⟩⟩
        rw [hp']
        exact .registration c rest'
    | signIn email password =>
      obtain ⟨hr', k, p, rest', hp'⟩ := answer_signIn hp hr result
      simp only [step, answer, hx]
      refine ⟨?_, h.consistent.hideLoading, .inl ⟨hr', .inr ⟨hhidden, hcovered'⟩⟩⟩
      rw [hp']
      exact .personalInformation k p c rest'

theorem Invariant.step (h : s.Invariant sender) (event : Event) :
    (s.step event).Invariant sender := by
  cases event with
  | edit field text => exact step_edit h field text
  | registerButton => exact step_registerButton h
  | answer n result => exact step_answer h n result
  | dismissAlert => exact step_dismissAlert h
  | block => exact step_block h

/-- A step that calls nothing, opens nothing and refuses nothing. -/
theorem follows_of_quiet {event : Event} (hcalls : s.calls event = [])
    (hshows : (s.step event).showsPersonalInformation → s.showsPersonalInformation)
    (hanswer : ∀ n user email password, event = .answer n (.ok user) →
      s.app.requests[n]? ≠ some (sender, .signIn email password))
    (hrefused : ¬ s.IsRefused event) : s.Follows sender event where
  createUser email password hmem := by simp [hcalls] at hmem
  signIn email password hmem := by simp [hcalls] at hmem
  presented := by
    refine iff_of_false (fun hp ↦ hp.2 (hshows hp.1)) ?_
    rintro ⟨n, user, email, password, he, hr⟩
    exact hanswer n user email password he hr
  refused hr := absurd hr hrefused

theorem showsPersonalInformation_edit (field : Field) (text : String) :
    (s.step (.edit field text)).showsPersonalInformation = s.showsPersonalInformation := by
  simp only [step, App.edit, showsPersonalInformation]
  cases hp : s.app.presented with
  | nil => simp [hp]
  | cons x rest =>
    obtain ⟨k, sheet⟩ := x
    cases sheet <;> cases field <;> simp [Sheet.edit]

theorem follows_edit (field : Field) (text : String) : s.Follows sender (.edit field text) := by
  apply follows_of_quiet
  · simp [calls, step, edit_requests]
  · simp [showsPersonalInformation_edit]
  · simp
  · exact id

theorem follows_dismissAlert (h : s.Invariant sender) : s.Follows sender .dismissAlert := by
  have hstep := dismissAlert_cases h.onScreen
  apply follows_of_quiet
  · obtain heq | ⟨-, -, -, -, -, -, -, hr, -⟩ := hstep
    · simp [calls, step, heq]
    · simp [calls, step, hr]
  · obtain heq | ⟨-, -, -, c, rest, -, hp, -⟩ := hstep
    · simp [step, heq]
    · simp [step, showsPersonalInformation, hp]
  · simp
  · exact id

theorem follows_block : s.Follows sender .block :=
  follows_of_quiet (by simp [calls, step]) id (by simp) id

theorem follows_unreachable (hreach : s.reachable = none) : s.Follows sender .registerButton := by
  have hstep : s.step .registerButton = s := by simp only [step, registerButton, hreach]
  apply follows_of_quiet
  · simp [calls, hstep]
  · rw [hstep]
    exact id
  · simp
  · simp [IsRefused, hreach]

section Button

variable {c : RegistrationViewController} {rest : List (ℕ × Sheet)}

/-- With all fields filled `createUser` is called, whatever the confirmation says. -/
theorem follows_filled (hreach : s.reachable = some (sender, c))
    (hp : s.app.presented = (sender, .registration c) :: rest) (hr : s.app.requests = [])
    (hfilled : c.email ≠ "" ∧ c.password ≠ "" ∧ c.cofirmPassword ≠ "") :
    s.Follows sender .registerButton ↔ c.password = c.cofirmPassword := by
  have happ : (s.step .registerButton).app =
      { s.app with requests := [(sender, .createUser c.email c.password)] } := by
    simp [step, registerButton, hreach, registerUser, hfilled, App.registerUser, hp, hr]
  have hcalls : s.calls .registerButton = [(sender, .createUser c.email c.password)] := by
    simp [calls, happ, hr]
  constructor
  · intro hf
    obtain ⟨c', rest', hp', -, -, -, -, -, he⟩ :=
      hf.createUser c.email c.password (by simp [hcalls])
    obtain ⟨rfl, rfl⟩ : c = c' ∧ rest = rest' := by simpa [hp] using hp'
    exact he
  · intro he
    constructor
    · intro email password hmem
      obtain ⟨rfl, rfl⟩ : email = c.email ∧ password = c.password := by
        simpa [hcalls] using hmem
      exact ⟨c, rest, hp, rfl, rfl, hfilled.1, hfilled.2.1, hfilled.2.2, he⟩
    · intro email password hmem
      simp [hcalls] at hmem
    · refine iff_of_false ?_ (by simp)
      simp [showsPersonalInformation, happ, hp]
    · intro hrefused
      simp [IsRefused, hcalls] at hrefused

theorem follows_unfilled (hc : s.loading.Consistent) (hs : s.loading.subviews sender = none)
    (hreach : s.reachable = some (sender, c))
    (hp : s.app.presented = (sender, .registration c) :: rest)
    (hfilled : ¬ (c.email ≠ "" ∧ c.password ≠ "" ∧ c.cofirmPassword ≠ "")) :
    s.Follows sender .registerButton := by
  have hstep : s.step .registerButton = s.registerUser sender c := by
    simp only [step, registerButton, hreach]
  have happ : (s.registerUser sender c).app =
      s.app.present (.alert "Error" "Please fill in all fields") := by
    simp only [registerUser, if_neg hfilled, App.registerUser, hp]
  have hcalls : s.calls .registerButton = [] := by
    simp [calls, hstep, happ, App.present]
  have hloading : (s.registerUser sender c).loading =
      (s.loading.showLoadingAdded sender).hideLoading := by
    simp only [registerUser, if_neg hfilled]
  constructor
  · simp [hcalls]
  · simp [hcalls]
  · refine iff_of_false ?_ (by simp)
    simp [hstep, showsPersonalInformation, happ, App.present]
  · intro _
    rw [hstep, hloading, happ, App.present, hp]
    refine ⟨?_, _, _, c, rest, rfl⟩
    exact drain_hideLoading (hc.showLoadingAdded sender) (showLoadingAdded_covered hs)

end Button

theorem follows_registerButton (h : s.Invariant sender) :
    s.Follows sender .registerButton ↔ s.isKept .registerButton := by
  cases hreach : s.reachable with
  | none => exact iff_of_true (follows_unreachable hreach) (by simp [isKept, hreach])
  | some x =>
    obtain ⟨rfl, ⟨rest, hp⟩, hr, -, hs⟩ := h.reachable hreach
    by_cases hfilled : x.2.email ≠ "" ∧ x.2.password ≠ "" ∧ x.2.cofirmPassword ≠ ""
    · rw [follows_filled hreach hp hr hfilled]
      simp [isKept, hreach, hfilled]
    · refine iff_of_true (follows_unfilled h.consistent hs hreach hp hfilled) ?_
      simp only [not_and_or, not_not] at hfilled
      obtain he | he | he := hfilled <;> simp [isKept, hreach, he]

theorem follows_nothing {n : ℕ} (hx : s.app.requests[n]? = none) (result : Except String User) :
    s.Follows sender (.answer n result) := by
  have hn : s.app.requests.length ≤ n := List.getElem?_eq_none_iff.mp hx
  have hstep := answer_nothing hx result
  apply follows_of_quiet
  · simp [calls, hstep, List.eraseIdx_of_length_le hn]
  · rw [hstep]
    exact id
  · rintro m user email password he
    obtain rfl : n = m := by simpa using (Event.answer.inj he).1
    simp [hx]
  · cases result <;> simp [IsRefused, hn]

section Answer

variable {c : RegistrationViewController} {rest : List (ℕ × Sheet)} {request : Request}

theorem step_answer_app (hr : s.app.requests = [(sender, request)]) (result : Except String User) :
    (s.step (.answer 0 result)).app = s.app.answer 0 result := by
  simp only [step, answer, hr, List.getElem?_cons_zero]
  cases request <;> cases result <;> rfl

theorem calls_answer (hr : s.app.requests = [(sender, request)]) (result : Except String User) :
    s.calls (.answer 0 result) = (s.app.answer 0 result).requests := by
  simp [calls, hr, step_answer_app hr]

variable {email password : String}

theorem follows_createUser_error (h : s.Invariant sender) (hcovered : IsCovered s.loading sender)
    (hp : s.app.presented = (sender, .registration c) :: rest)
    (hr : s.app.requests = [(sender, .createUser email password)]) (description : String) :
    s.Follows sender (.answer 0 (.error description)) := by
  obtain ⟨hr', hp'⟩ := answer_createUser_error hp hr description
  have happ := step_answer_app hr (.error description)
  have hcalls := (calls_answer hr (.error description)).trans hr'
  have hloading : (s.step (.answer 0 (.error description))).loading = s.loading.hideLoading := by
    simp only [step, answer, hr, List.getElem?_cons_zero]
  constructor
  · simp [hcalls]
  · simp [hcalls]
  · refine iff_of_false ?_ (by simp)
    simp [showsPersonalInformation, happ, hp']
  · intro _
    rw [hloading, happ, hp']
    exact ⟨drain_hideLoading h.consistent hcovered, _, _, c, rest, rfl⟩

/-- What is in the fields now has to be what the account was created with. -/
theorem follows_createUser_ok (hp : s.app.presented = (sender, .registration c) :: rest)
    (hr : s.app.requests = [(sender, .createUser email password)]) (user : User) :
    s.Follows sender (.answer 0 (.ok user)) ↔ c.email = email ∧ c.password = password := by
  obtain ⟨hr', rest', hp'⟩ := answer_createUser_ok hp hr user
  have happ := step_answer_app hr (.ok user)
  have hcalls := (calls_answer hr (.ok user)).trans hr'
  constructor
  · intro hf
    obtain ⟨n, user', he, hcreated⟩ := hf.signIn c.email c.password (by simp [hcalls])
    obtain rfl : 0 = n := (Event.answer.inj he).1
    simpa [hr, eq_comm] using hcreated
  · rintro ⟨rfl, rfl⟩
    constructor
    · simp [hcalls]
    · intro email password hmem
      obtain ⟨rfl, rfl⟩ : email = c.email ∧ password = c.password := by
        simpa [hcalls] using hmem
      exact ⟨0, user, rfl, by rw [hr]; rfl⟩
    · refine iff_of_false ?_ ?_
      · simp [showsPersonalInformation, happ, hp']
      · rintro ⟨n, user', email, password, he, hsigned⟩
        obtain rfl : 0 = n := (Event.answer.inj he).1
        simp [hr] at hsigned
    · exact False.elim

/-- `PersonalInformationViewController` is presented in both cases. -/
theorem follows_signIn (hp : s.app.presented = (sender, .registration c) :: rest)
    (hr : s.app.requests = [(sender, .signIn email password)]) (result : Except String User) :
    s.Follows sender (.answer 0 result) ↔ ∃ user, result = .ok user := by
  obtain ⟨hr', k, p, rest', hp'⟩ := answer_signIn hp hr result
  have hcalls := (calls_answer hr result).trans hr'
  have hshows : s.showsPersonalInformation = false := by simp [showsPersonalInformation, hp]
  have hshown : (s.step (.answer 0 result)).showsPersonalInformation := by
    simp [showsPersonalInformation, step_answer_app hr, hp']
  constructor
  · intro hf
    obtain ⟨n, user, email, password, he, -⟩ := hf.presented.mp ⟨hshown, by simp [hshows]⟩
    exact ⟨user, (Event.answer.inj he).2⟩
  · rintro ⟨user, rfl⟩
    constructor
    · simp [hcalls]
    · simp [hcalls]
    · refine iff_of_true ⟨hshown, by simp [hshows]⟩ ⟨0, user, email, password, rfl, ?_⟩
      rw [hr]
      rfl
    · exact False.elim

end Answer

theorem follows_answer (h : s.Invariant sender) (n : ℕ) (result : Except String User) :
    s.Follows sender (.answer n result) ↔ s.isKept (.answer n result) := by
  cases hx : s.app.requests[n]? with
  | none => exact iff_of_true (follows_nothing hx result) (by simp [isKept, hx])
  | some x =>
    obtain ⟨rfl, hr, rfl, hreq, -, ⟨c, rest, hp⟩, -, hcovered⟩ := h.answered hx
    obtain ⟨sender, request⟩ := x
    cases request with
    | login email password => cases hreq
    | createUser email password =>
      cases result with
      | error description =>
        exact iff_of_true (follows_createUser_error h hcovered hp hr description)
          (by simp [isKept, hx])
      | ok user =>
        rw [follows_createUser_ok hp hr user]
        simp [isKept, hx, hp]
    | signIn email password =>
      rw [follows_signIn hp hr result]
      cases result <;> simp [isKept, hx]

theorem follows_iff (h : s.Invariant sender) (event : Event) :
    s.Follows sender event ↔ s.isKept event := by
  cases event with
  | edit field text => exact iff_of_true (follows_edit field text) rfl
  | registerButton => exact follows_registerButton h
  | answer n result => exact follows_answer h n result
  | dismissAlert => exact iff_of_true (follows_dismissAlert h) rfl
  | block => exact iff_of_true follows_block rfl

theorem along_follows (h : s.Invariant sender) (events : List Event) :
    Execution.Along step (fun s event ↦ s.Follows sender event) s events ↔
      Execution.Along step (fun s event ↦ s.isKept event) s events :=
  Execution.along_congr (I := fun s ↦ s.Invariant sender) (fun _ event h ↦ h.step event)
    (fun _ event h ↦ follows_iff h event) h events

/-- From the opening of the screen on, every step of a registration does what
it has to do, if and only if the password is confirmed whenever the button is
pressed, email and password are still what they were when the account has been
created, and no sign-in fails. -/
theorem registration_iff (sender : ℕ) (h : s.Opened sender) (events : List Event) :
    Execution.Along step (fun s event ↦ s.Follows sender event) s events ↔
      Execution.Along step (fun s event ↦ s.isKept event) s events :=
  along_follows h.invariant events

/-- A registration screen with these fields, on top of the login screen. -/
def filled (email password cofirmPassword : String) : Registering where
  app := { presented := [(1, .registration ⟨email, password, cofirmPassword⟩), (0, .login {})], next := 2 }
  loading := {}

theorem opened_filled (email password cofirmPassword : String) :
    (filled email password cofirmPassword).Opened 1 where
  presented := ⟨_, _, rfl⟩
  requests := rfl
  consistent := .empty
  queue := rfl
  subviews := rfl

/-- The password is not confirmed at first. -/
def annRegisters : List Event :=
  [.edit .email "ann@lee", .edit .password "secret", .registerButton, .dismissAlert, .block,
    .edit .cofirmPassword "secret", .registerButton, .answer 0 (.ok ⟨"u", "ann@lee"⟩),
    .answer 0 (.ok ⟨"u", "ann@lee"⟩), .block]

theorem registration_confirmed :
    Execution.Along step (fun s event ↦ s.Follows 1 event) (filled "" "" "") annRegisters :=
  (registration_iff 1 (opened_filled "" "" "") annRegisters).mpr (by decide +kernel)

/-- The confirmation is never compared with the password. -/
theorem registration_unconfirmed :
    ¬ ∀ (sender : ℕ) (s : Registering), s.Opened sender → ∀ events : List Event,
      Execution.Along step (fun s event ↦ s.Follows sender event) s events := by
  intro h
  obtain ⟨hf, -⟩ := h 1 (filled "ann@lee" "secret" "sceret") (opened_filled _ _ _) [.registerButton]
  have hcalled : (1, .createUser "ann@lee" "secret") ∈
      (filled "ann@lee" "secret" "sceret").calls .registerButton := by
    simp [calls, step, registerButton, reachable, filled, registerUser, App.registerUser]
  obtain ⟨c, rest, hp, -, -, -, -, -, he⟩ := hf.createUser "ann@lee" "secret" hcalled
  obtain ⟨rfl, -⟩ : ⟨"ann@lee", "secret", "sceret"⟩ = c ∧ [(0, .login {})] = rest := by
    simpa [filled] using hp
  exact absurd he (by decide)

section

variable {app : App} {loading : Overlays ℕ} {k : ℕ} {c : LoginViewController}
  {rest : List (ℕ × Sheet)}

theorem opened_showRegistration (hp : app.presented = (k, .login c) :: rest)
    (hr : app.requests = []) (hc : loading.Consistent) (hq : loading.queue = 0)
    (hs : loading.subviews app.next = none) :
    Opened ⟨app.showRegistration, loading⟩ app.next where
  presented := ⟨{}, (k, .login c) :: rest, by rw [App.showRegistration, hp, App.present, hp]⟩
  requests := by rw [App.showRegistration, hp]; exact hr
  consistent := hc
  queue := hq
  subviews := hs

/-- The actions of the app that a step stands for. -/
def actions (s : Registering) : Event → List Action
  | .edit field text => [.edit field text]
  | .registerButton => if s.reachable.isSome then [.registerButton] else []
  | .answer n result => [.answer n result]
  | .dismissAlert =>
    match s.app.presented with
    | (_, .alert _ _) :: _ => [.dismiss]
    | _ => []
  | .block => []

def acting : Registering → List Event → List Action
  | _, [] => []
  | s, event :: events => s.actions event ++ acting (s.step event) events

theorem step_app (halive : s.app.crash = none) (event : Event) :
    (s.step event).app = s.app.run (s.actions event) ∧ (s.step event).app.crash = none := by
  cases event with
  | edit field text =>
    refine ⟨(App.step_alive halive (.edit field text)).symm, ?_⟩
    exact (App.SameSession.edit s.app field text).crash.trans halive
  | registerButton =>
    simp only [step, registerButton, actions]
    cases hreach : s.reachable with
    | none => exact ⟨rfl, halive⟩
    | some x =>
      have happ : (s.registerUser x.1 x.2).app = s.app.registerUser := by
        rw [registerUser]
        split <;> rfl
      rw [happ]
      exact ⟨(App.step_alive halive .registerButton).symm,
        (App.SameSession.registerUser s.app).crash.trans halive⟩
  | answer n result =>
    have happ : (s.answer n result).app = s.app.answer n result := by
      unfold answer
      split
      · next hnone => rw [App.answer, hnone]
      · rfl
      · rfl
    rw [step, happ]
    exact ⟨(App.step_alive halive (.answer n result)).symm,
      (App.SameStore.answer s.app n result).crash.trans halive⟩
  | dismissAlert =>
    simp only [step, dismissAlert, actions]
    split
    · exact ⟨(App.step_alive halive .dismiss).symm,
        (App.SameSession.dismiss s.app).crash.trans halive⟩
    · exact ⟨rfl, halive⟩
  | block => exact ⟨rfl, halive⟩

theorem run_app (halive : s.app.crash = none) (events : List Event) :
    (events.foldl step s).app = s.app.run (s.acting events) := by
  induction events generalizing s with
  | nil => rfl
  | cons event events ih =>
    obtain ⟨happ, halive'⟩ := step_app halive event
    rw [List.foldl_cons, ih halive', happ, acting, App.run, App.run, App.run, List.foldl_append]

/-- A registration that is opened from the login screen, with nothing under
way, is a run of the app, and does what it has to do under the same condition. -/
theorem registration_showRegistration (halive : app.crash = none)
    (hp : app.presented = (k, .login c) :: rest) (hr : app.requests = [])
    (hc : loading.Consistent) (hq : loading.queue = 0) (hs : loading.subviews app.next = none)
    (events : List Event) (hopened : s = ⟨app.showRegistration, loading⟩) :
    (events.foldl step s).app = app.run (.showRegistration :: s.acting events) ∧
      (Execution.Along step (fun s event ↦ s.Follows app.next event) s events ↔
        Execution.Along step (fun s event ↦ s.isKept event) s events) := by
  subst hopened
  have halive' : app.showRegistration.crash = none :=
    (App.SameSession.showRegistration app).crash.trans halive
  refine ⟨?_, along_follows (opened_showRegistration hp hr hc hq hs).invariant events⟩
  rw [run_app halive', App.run, App.run, List.foldl_cons, App.step_alive halive]
  rfl

end

end Registering

end Croesus.Session
