import Croesus.Helpers.ActivityIndicator
import Croesus.Managers.Collections
import Croesus.Session.Identity

namespace Croesus

open ActivityIndicator Firestore FIRFirestoreService Library

namespace FIRFirestoreService.Call

def written (db : Database) : Call → Written
  | create x uid c => (FIRFirestoreService.create x uid c db).2
  | update x c => (FIRFirestoreService.update x c db).2
  | addSurveyResponse x autoId c => (FIRFirestoreService.addSurveyResponse x autoId c db).2

end FIRFirestoreService.Call

namespace Session

/-- What is seen of the `n`-th call: its completion, the backend's answer to
its write, and the change to the tab screen that its completion makes. -/
inductive Entry
  | completed (n : ℕ) (success : Bool)
  | answered (n : ℕ) (accepted : Bool)
  | moved (n : ℕ)
  deriving DecidableEq

def Entry.completion (n : ℕ) : Entry → Option Bool
  | .completed m success => if m = n then some success else none
  | _ => none

/-- The documents with the writes that were issued, how the calls have ended so
far, and what was seen of them. -/
structure Writes where
  db : Database
  calls : List Written := []
  trace : List Entry := []
  loading : Overlays ℕ := {}
  crash : Option Failure := none

namespace Writes

/-- The contents of a `PersonalInformationViewController` are given with the tap
on its button, together with the global uid. -/
inductive Event
  | create {α : Type} [Codable α] (x : α) (uid : String) (collection : FIRCollectionReference)
  | addSurveyResponse {α : Type} [Codable α] (x : α) (autoId : String)
      (collection : FIRCollectionReference)
  | submitInformation (uid : Option String) (c : PersonalInformationViewController)
  | answer (n : ℕ) (accepted : Bool)
  | block

variable (screen : ℕ) (s : Writes)

def see (entry : Entry) : Writes := { s with trace := s.trace ++ [entry] }

/-- The completion is called as soon as the write has been issued, and never if
there is none. -/
def call (call : Call) (completion : Bool → Writes → Writes) : Writes :=
  let n := s.calls.length
  let written := call.written s.db
  let s := { s with db := call.perform s.db, calls := s.calls ++ [written] }
  match written with
  | .issued => completion true (s.see (.completed n true))
  | .caught _ => s
  | .raised e => { s with crash := some (.raised e) }

def sendUserData (uid : Option String) (c : PersonalInformationViewController) : Writes :=
  let n := s.calls.length
  let s := { s with loading := s.loading.showLoadingAdded screen }
  match c.photoURL, uid, c.user with
  | none, _, _ | _, none, _ => { s with loading := s.loading.hideLoading }
  | some _, some _, none => { s with crash := some .trapped }
  | some photoURL, some uid, some user =>
    s.call (.create (App.userData c photoURL user) uid .questions) fun completed s ↦
      if completed then { s with loading := s.loading.hideLoading }.see (.moved n) else s

/-- A write is answered once. -/
def answer (n : ℕ) (accepted : Bool) : Writes :=
  if s.calls[n]? = some .issued ∧ ∀ b, .answered n b ∉ s.trace then s.see (.answered n accepted)
  else s

def step (event : Event) : Writes :=
  if s.crash.isSome then s
  else match event with
    | Event.create x uid c => s.call (.create x uid c) fun _ s ↦ s
    | Event.addSurveyResponse x autoId c => s.call (.addSurveyResponse x autoId c) fun _ s ↦ s
    | Event.submitInformation uid c => s.sendUserData screen uid c
    | Event.answer n accepted => s.answer n accepted
    | Event.block => { s with loading := s.loading.block }

def run (db : Database) (events : List Event) : Writes := events.foldl (step screen) { db := db }

def completions (n : ℕ) : List Bool := s.trace.filterMap (Entry.completion n)

/-- The backend has answered every write that was issued. -/
def IsSettled : Prop := ∀ n, s.calls[n]? = some .issued → ∃ b, .answered n b ∈ s.trace

/-- The completions tell of the writes, the screen moves on for a profile that
was stored, and its overlay is removed. -/
structure Truthful : Prop where
  once : ∀ n, (s.completions n).length ≤ 1
  accepted : ∀ n pre suf, s.trace = pre ++ .completed n true :: suf → .answered n true ∈ pre
  failed : ∀ n, (∃ e, s.calls[n]? = some (.caught e)) ∨ .answered n false ∈ s.trace →
    ∀ success ∈ s.completions n, success = false
  answered : s.IsSettled → ∀ n < s.calls.length, (s.completions n).length = 1
  moved : ∀ n pre suf, s.trace = pre ++ .moved n :: suf → .answered n true ∈ pre
  overlay : s.IsSettled → s.crash = none → s.loading.drain.subviews screen = none

/-- `create` or `addSurveyResponse` is called. -/
def makesCall (event : Event) : Bool :=
  s.crash.isNone && match event with
    | Event.create _ _ _ | Event.addSurveyResponse _ _ _ => true
    | Event.submitInformation uid c => c.photoURL.isSome && uid.isSome && c.user.isSome
    | Event.answer _ _ | Event.block => false

/-- A completion is called once for every write that is issued, with `true`, and
before the backend can have answered. -/
structure Premature (calls : List Written) (trace : List Entry) : Prop where
  completions : ∀ n, trace.filterMap (Entry.completion n) =
    if calls[n]? = some .issued then [true] else []
  issued : ∀ n, calls[n]? = some .issued →
    ∃ pre suf, trace = pre ++ .completed n true :: suf ∧ .answered n true ∉ pre
  answered : ∀ n b, .answered n b ∈ trace → calls[n]? = some .issued

namespace Premature

variable {calls : List Written} {trace : List Entry}

theorem empty : Premature [] [] := by
  constructor <;> simp

theorem see (h : Premature calls trace) (entry : Entry) (hnone : ∀ n, entry.completion n = none)
    (hanswered : ∀ n b, entry = .answered n b → calls[n]? = some .issued) :
    Premature calls (trace ++ [entry]) where
  completions n := by simpa [hnone] using h.completions n
  issued n hn := by
    obtain ⟨pre, suf, rfl, hpre⟩ := h.issued n hn
    exact ⟨pre, suf ++ [entry], by simp, hpre⟩
  answered n b hmem := by
    rcases List.mem_append.mp hmem with hmem | hmem
    · exact h.answered n b hmem
    · exact hanswered n b (List.mem_singleton.mp hmem).symm

theorem refuse (h : Premature calls trace) {written : Written} (hw : written ≠ .issued) :
    Premature (calls ++ [written]) trace := by
  have hsame (n : ℕ) : (calls ++ [written])[n]? = some .issued ↔ calls[n]? = some .issued := by
    rw [List.getElem?_append]
    split_ifs with hn
    · rfl
    · rw [List.getElem?_eq_none (not_lt.mp hn), List.getElem?_singleton]
      split_ifs <;> simp [hw]
  constructor
  · simpa only [hsame] using h.completions
  · simpa only [hsame] using h.issued
  · simpa only [hsame] using h.answered

theorem issue (h : Premature calls trace) :
    Premature (calls ++ [.issued]) (trace ++ [.completed calls.length true]) := by
  have hnew (n : ℕ) : (calls ++ [Written.issued])[n]? = some .issued ↔
      calls[n]? = some .issued ∨ n = calls.length := by
    rw [List.getElem?_append]
    split_ifs with hn
    · simp [Nat.ne_of_lt hn]
    · rw [List.getElem?_eq_none (not_lt.mp hn), List.getElem?_singleton]
      split_ifs with hz
      · simp
        omega
      · simp
        omega
  constructor
  · intro n
    simp only [List.filterMap_append, h.completions, hnew]
    by_cases hn : calls.length = n
    · simp [hn, Entry.completion]
    · simp [hn, Ne.symm hn, Entry.completion]
  · intro n hn
    obtain hold | rfl := (hnew n).mp hn
    · obtain ⟨pre, suf, rfl, hpre⟩ := h.issued n hold
      exact ⟨pre, suf ++ [.completed calls.length true], by simp, hpre⟩
    · refine ⟨trace, [], rfl, fun hmem ↦ ?_⟩
      have hold := h.answered _ true hmem
      simp at hold
  · intro n b hmem
    have hold : .answered n b ∈ trace := by simpa using hmem
    exact (hnew n).mpr (.inl (h.answered n b hold))

end Premature

variable {screen s} {db : Database}

/-- What a call does to the record, given that its completion only adds to the trace. -/
theorem call_premature (h : Premature s.calls s.trace) (call : Call)
    {completion : Bool → Writes → Writes}
    (hc : ∀ s', Premature s'.calls s'.trace →
      Premature (completion true s').calls (completion true s').trace) :
    Premature (s.call call completion).calls (s.call call completion).trace := by
  rw [Writes.call]
  dsimp only
  split
  · next hw =>
    apply hc
    rw [hw]
    exact h.issue
  · next e hw => exact h.refuse (by simp [hw])
  · next e hw => exact h.refuse (by simp [hw])

theorem sendUserData_premature (h : Premature s.calls s.trace) (uid : Option String)
    (c : PersonalInformationViewController) :
    Premature (s.sendUserData screen uid c).calls (s.sendUserData screen uid c).trace := by
  unfold sendUserData
  dsimp only
  split
  · exact h
  · exact h
  · exact h
  · refine call_premature (s := { s with loading := s.loading.showLoadingAdded screen }) h _
      fun s' h' ↦ ?_
    exact h'.see (.moved _) (fun _ ↦ rfl) (by simp)

/-- The same write as in `App`, where completions and overlays do not appear. -/
theorem sendUserData_app (screen : ℕ) {app : App} (hdb : s.db = app.users) (hcrash : s.crash = app.crash)
    (c : PersonalInformationViewController) :
    (s.sendUserData screen app.uid c).db = (app.sendUserData c).users ∧
      (s.sendUserData screen app.uid c).crash = (app.sendUserData c).crash := by
  unfold sendUserData App.sendUserData
  cases c.photoURL with
  | none => exact ⟨hdb, hcrash⟩
  | some photoURL =>
    cases app.uid with
    | none => exact ⟨hdb, hcrash⟩
    | some uid =>
      cases c.user with
      | none => exact ⟨hdb, rfl⟩
      | some user =>
        have hrefused :
            (create (App.userData c photoURL user) uid .questions app.users).2 ≠ .issued →
              (create (App.userData c photoURL user) uid .questions app.users).1 = app.users :=
          store_refused
        simp only [Writes.call, Call.written, Call.perform, hdb]
        rcases hcreate : create (App.userData c photoURL user) uid .questions app.users with
          ⟨users, _ | e | e⟩
        · exact ⟨rfl, hcrash⟩
        · exact ⟨by simpa [hcreate, App.readQuestions] using hrefused, hcrash⟩
        · exact ⟨by simpa [hcreate] using hrefused, rfl⟩

theorem answer_premature (h : Premature s.calls s.trace) (n : ℕ) (accepted : Bool) :
    Premature (s.answer n accepted).calls (s.answer n accepted).trace := by
  rw [Writes.answer]
  split_ifs with hn
  · apply h.see (.answered n accepted) (fun _ ↦ rfl)
    intro m b he
    obtain rfl : n = m := (Entry.answered.inj he).1
    exact hn.1
  · exact h

theorem step_premature (s : Writes) (event : Event) (h : Premature s.calls s.trace) :
    Premature (s.step screen event).calls (s.step screen event).trace := by
  unfold step
  split_ifs
  · exact h
  · cases event with
    | create x uid c => exact call_premature h _ fun _ h' ↦ h'
    | addSurveyResponse x autoId c => exact call_premature h _ fun _ h' ↦ h'
    | submitInformation uid c => exact sendUserData_premature h uid c
    | answer n accepted => exact answer_premature h n accepted
    | block => exact h

theorem call_length (call : Call) {completion : Bool → Writes → Writes}
    (hc : ∀ s', (completion true s').calls = s'.calls) :
    (s.call call completion).calls.length = s.calls.length + 1 := by
  rw [Writes.call]
  dsimp only
  split
  · rw [hc]
    simp [see]
  · simp
  · simp

theorem sendUserData_length (s : Writes) (uid : Option String)
    (c : PersonalInformationViewController) : (s.sendUserData screen uid c).calls.length =
      if c.photoURL.isSome && uid.isSome && c.user.isSome then s.calls.length + 1
      else s.calls.length := by
  unfold sendUserData
  cases c.photoURL with
  | none => rfl
  | some photoURL =>
    cases uid with
    | none => rfl
    | some uid =>
      cases c.user with
      | none => rfl
      | some user =>
        apply call_length (s := { s with loading := s.loading.showLoadingAdded screen })
        intro s'
        rfl

theorem answer_calls (s : Writes) (n : ℕ) (accepted : Bool) :
    (s.answer n accepted).calls = s.calls := by
  rw [Writes.answer]
  split_ifs <;> rfl

theorem step_length (s : Writes) (event : Event) : (s.step screen event).calls.length =
    if s.makesCall event then s.calls.length + 1 else s.calls.length := by
  unfold step makesCall
  cases hcrash : s.crash with
  | some failure => simp
  | none =>
    cases event with
    | create x uid c => simpa using call_length (.create x uid c) fun _ ↦ rfl
    | addSurveyResponse x autoId c =>
      simpa using call_length (.addSurveyResponse x autoId c) fun _ ↦ rfl
    | submitInformation uid c => exact sendUserData_length s uid c
    | answer n accepted => simp [answer_calls]
    | block => rfl

/-- Without a write nothing completes, nor is it answered. -/
theorem answer_of_no_calls (h : s.calls = []) (n : ℕ) (accepted : Bool) :
    s.answer n accepted = s := by
  rw [Writes.answer, h, if_neg]
  simp

/-- A run without calls: nothing is seen, and the overlay goes. -/
structure Silent (screen : ℕ) (s : Writes) : Prop where
  calls : s.calls = []
  trace : s.trace = []
  consistent : s.loading.Consistent
  overlay : s.crash = none → s.loading.remaining screen = none

namespace Silent

theorem empty : Silent screen { db := db } :=
  ⟨rfl, rfl, .empty, fun _ ↦ rfl⟩

/-- The guard of `sendUserData` hides the overlay that was just shown. -/
theorem sendUserData (h : Silent screen s) (uid : Option String)
    (c : PersonalInformationViewController)
    (hc : ¬ (c.photoURL.isSome && uid.isSome && c.user.isSome)) :
    Silent screen (s.sendUserData screen uid c) := by
  have hconsistent := h.consistent.showLoadingAdded screen
  have hhidden : Silent screen
      { s with loading := (s.loading.showLoadingAdded screen).hideLoading } :=
    ⟨h.calls, h.trace, hconsistent.hideLoading, fun hcrash ↦
      Overlays.remaining_showLoadingAdded_hideLoading (h.overlay hcrash)⟩
  unfold Writes.sendUserData
  dsimp only
  split
  · exact hhidden
  · exact hhidden
  · exact ⟨h.calls, h.trace, hconsistent, fun hcrash ↦ by cases hcrash⟩
  · next hphoto huser => simp [hphoto, huser] at hc

theorem step (h : Silent screen s) (event : Event) (he : ¬ s.makesCall event) :
    Silent screen (s.step screen event) := by
  unfold makesCall at he
  unfold Writes.step
  cases hcrash : s.crash with
  | some failure => exact h
  | none =>
    rw [hcrash] at he
    cases event with
    | create x uid c => simp at he
    | addSurveyResponse x autoId c => simp at he
    | submitInformation uid c => exact h.sendUserData uid c (by simpa using he)
    | answer n accepted =>
      simpa [answer_of_no_calls h.calls] using h
    | block =>
      refine ⟨h.calls, h.trace, h.consistent.block, fun _ ↦ ?_⟩
      exact (Overlays.block_remaining h.consistent screen).trans (h.overlay hcrash)

end Silent

/-- What a call leaves behind is never the truth: a completion that comes before
the answer, or none at all. -/
theorem Premature.no_calls (h : Premature s.calls s.trace) (ht : s.Truthful screen) :
    s.calls = [] := by
  have hissued (n : ℕ) : s.calls[n]? ≠ some .issued := by
    intro hn
    obtain ⟨pre, suf, htrace, hpre⟩ := h.issued n hn
    exact hpre (ht.accepted n pre suf htrace)
  have hsettled : s.IsSettled := fun n hn ↦ absurd hn (hissued n)
  by_contra hne
  have honce := ht.answered hsettled 0 (List.length_pos_iff.mpr hne)
  rw [Writes.completions, h.completions, if_neg (hissued 0)] at honce
  cases honce

theorem Silent.truthful (h : Silent screen s) : s.Truthful screen where
  once n := by simp [Writes.completions, h.trace]
  accepted n pre suf htrace := by simp [h.trace] at htrace
  failed n _ success hmem := by simp [Writes.completions, h.trace] at hmem
  answered _ n hn := by simp [h.calls] at hn
  moved n pre suf htrace := by simp [h.trace] at htrace
  overlay _ hcrash := (Overlays.drain_subviews h.consistent screen).trans (h.overlay hcrash)

theorem run_premature (screen : ℕ) (db : Database) (events : List Event) :
    Premature (run screen db events).calls (run screen db events).trace :=
  Execution.invariant (I := fun s : Writes ↦ Premature s.calls s.trace) step_premature .empty events

theorem no_calls_iff (screen : ℕ) (db : Database) (events : List Event) :
    (run screen db events).calls = [] ↔
      Execution.Along (step screen) (fun s event ↦ ¬ s.makesCall event) { db := db } events := by
  constructor
  · intro hcalls
    refine Execution.along_of_unchanged (m := fun s ↦ s.calls.length) (fun s event ↦ ?_)
      (fun s event hcall ↦ ?_) (Nat.le_of_eq (congrArg List.length hcalls))
    · rw [step_length]
      split_ifs <;> omega
    · rw [step_length, if_pos (not_not.mp hcall)]
      exact Nat.lt_succ_self _
  · intro hnone
    have hsilent : Silent screen (run screen db events) :=
      Execution.invariant_along (I := Silent screen) (fun s event h he ↦ h.step event he) .empty
        hnone
    exact hsilent.calls

theorem truthful_iff_no_calls (screen : ℕ) (db : Database) (events : List Event) :
    (run screen db events).Truthful screen ↔ (run screen db events).calls = [] := by
  constructor
  · exact (run_premature screen db events).no_calls
  · intro hcalls
    have hsilent : Silent screen (run screen db events) :=
      Execution.invariant_along (I := Silent screen) (fun s event h he ↦ h.step event he) .empty
        ((no_calls_iff screen db events).mp hcalls)
    exact hsilent.truthful

/-- The completions of a run tell the truth if and only if it makes no call. -/
theorem truthful_iff (screen : ℕ) (db : Database) (events : List Event) :
    (run screen db events).Truthful screen ↔
      Execution.Along (step screen) (fun s event ↦ ¬ s.makesCall event) { db := db } events :=
  (truthful_iff_no_calls screen db events).trans (no_calls_iff screen db events)

/-- The backend rejects the profile that the screen has moved on for. -/
theorem truthful_rejected :
    ¬ ∀ (screen : ℕ) (db : Database) (events : List Event),
      (run screen db events).Truthful screen := by
  intro h
  have htrace : (run 0 (fun _ ↦ none)
      [.submitInformation (some "u") ⟨some ⟨"u", "ann@lee"⟩, some "p", "Ann", "Lee"⟩,
        .answer 0 false]).trace = [.completed 0 true, .moved 0, .answered 0 false] := by
    decide
  simpa using (h _ _ _).accepted 0 [] _ htrace

end Writes

namespace App

/-- The presses of Submit, as `Writes` has them. -/
def writes (app : App) : Action → List Writes.Event
  | .submitInformation => app.form.toList.map fun c ↦ .submitInformation app.uid c
  | _ => []

def writing : App → List Action → List Writes.Event
  | _, [] => []
  | app, action :: actions => app.writes action ++ writing (app.step action) actions

theorem writing_concat (app : App) (actions : List Action) (action : Action) :
    writing app (actions ++ [action]) = writing app actions ++ (run app actions).writes action := by
  induction actions generalizing app with
  | nil => simp [writing, run]
  | cons a actions ih =>
    rw [List.cons_append, writing, ih, writing, List.append_assoc]
    rfl

variable {account : User → Prop} {photo : String → Prop} {app : App} {s : Writes}

theorem writes_cases (app : App) (action : Action) :
    (app.writes action = [] ∧ app.submission action = none ∧ (app.step action).users = app.users) ∨
      ∃ c, app.form = some c ∧ app.writes action = [.submitInformation app.uid c] ∧
        (app.submission action).isSome = (c.photoURL.isSome && app.uid.isSome && c.user.isSome) ∧
        app.step action = app.sendUserData c := by
  cases hcrash : app.crash with
  | some failure =>
    refine .inl ⟨?_, ?_, ?_⟩
    · cases action <;> simp [writes, form, hcrash]
    · cases action <;> simp [submission, form, hcrash]
    · cases action with
      | launch =>
        have hlaunch : app.launch.users = app.users := (SameStore.presentLogin _).users
        simpa [step, hcrash] using hlaunch
      | _ => simp [step, hcrash]
  | none =>
    rw [step_alive hcrash]
    cases action with
    | submitInformation =>
      cases hform : app.form with
      | none =>
        refine .inl ⟨by simp [writes, hform], by simp [submission, hform], ?_⟩
        rw [act, submitInformation_of_none hcrash hform]
      | some c =>
        refine .inr ⟨c, rfl, by simp [writes, hform], ?_, ?_⟩
        · cases hphoto : c.photoURL <;> cases huid : app.uid <;> cases huser : c.user <;>
            simp [submission, hform, hphoto, huid, huser]
        · rw [act, submitInformation_of_form hform]
    | _ => exact .inl ⟨rfl, rfl, (users_act app _).resolve_right (by simp)⟩

/-- One action writes the same documents as the calls it stands for. -/
theorem writes_step (screen : ℕ) (h : Known account photo app)
    (hsegment : ∀ user, account user → IsSegment user.uid) (hdb : s.db = app.users)
    (hs : s.crash = none) (action : Action) :
    ((app.writes action).foldl (Writes.step screen) s).db = (app.step action).users ∧
      ((app.writes action).foldl (Writes.step screen) s).crash = none ∧
      (((app.writes action).foldl (Writes.step screen) s).calls = [] ↔
        s.calls = [] ∧ app.submission action = none) := by
  obtain ⟨hnone, hsubmission, husers⟩ | ⟨c, hform, hwrites, hsubmission, hstep⟩ :=
    writes_cases app action
  · rw [hnone, hsubmission, husers]
    exact ⟨hdb, hs, (and_iff_left rfl).symm⟩
  · obtain ⟨hcrash, k, rest, hp⟩ := form_eq_some hform
    have hcalls : s.step screen (.submitInformation app.uid c) =
        s.sendUserData screen app.uid c := by
      simp [Writes.step, hs]
    have halive : (app.sendUserData c).crash = none := by
      obtain heq | ⟨_, _, _, _, -, -, -, -, -, -, heq⟩ :=
        Known.sendUserData_eq hsegment (h.held hp)
      · rwa [heq]
      · rw [heq]
        exact hcrash
    obtain ⟨hdb', hcrash'⟩ := Writes.sendUserData_app screen hdb (hs.trans hcrash.symm) c
    rw [hwrites, List.foldl_cons, List.foldl_nil, hcalls, hstep]
    refine ⟨hdb', hcrash'.trans halive, ?_⟩
    rw [← List.length_eq_zero_iff, Writes.sendUserData_length, ← Option.not_isSome_iff_eq_none,
      hsubmission]
    split_ifs with hmade <;> simp [hmade]

/-- The users' documents of a run are those that its presses of Submit write,
none of which ends the process. -/
theorem writing_run (screen : ℕ) {accounts : List String} {actions : List Action}
    (h : Execution.Along step (fun app action ↦ app.isHonest action) { accounts := accounts } actions)
    {s : Writes} (hs : s = Writes.run screen (fun _ ↦ none) (writing { accounts := accounts } actions)) :
    s.db = (run { accounts := accounts } actions).users ∧ s.crash = none ∧ (s.calls = [] ↔
      Execution.Along step (fun app action ↦ app.submission action = none)
        { accounts := accounts } actions) := by
  induction actions using List.reverseRecOn generalizing s with
  | nil =>
    subst hs
    exact ⟨rfl, rfl, iff_of_true rfl trivial⟩
  | append_singleton actions action ih =>
    obtain ⟨hbefore, -⟩ := Execution.along_append.mp h
    obtain ⟨hdb, hcrash, hcalls⟩ := ih hbefore rfl
    rw [writing_concat, Writes.run, List.foldl_append] at hs
    subst hs
    obtain ⟨hdb', hcrash', hcalls'⟩ :=
      writes_step screen (known_run hbefore) (fun _ hu ↦ hu.1) hdb hcrash action
    rw [run_concat, Execution.along_append]
    refine ⟨hdb', hcrash', hcalls'.trans ?_⟩
    rw [hcalls]
    exact and_congr_right' (and_iff_left trivial).symm

/-- In a run of the app the completions tell the truth if and only if no form
is ever sent. -/
theorem truthful_run {accounts : List String} {actions : List Action}
    (h : Execution.Along step (fun app action ↦ app.isHonest action) { accounts := accounts } actions)
    (screen : ℕ) :
    (Writes.run screen (fun _ ↦ none) (writing { accounts := accounts } actions)).Truthful screen ↔
      Execution.Along step (fun app action ↦ app.submission action = none)
        { accounts := accounts } actions :=
  (Writes.truthful_iff_no_calls _ _ _).trans (writing_run screen h rfl).2.2

end App

end Session

end Croesus
