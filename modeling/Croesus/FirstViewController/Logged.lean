import Croesus.FirstViewController.Provenance
import Croesus.ResearchKit.Completion

namespace Croesus.FirstViewController

open Firestore FIRFirestoreService ResearchKit Library

variable {task : ORKOrderedTask} {tvc : ORKTaskViewController}

/-- The identifiers of the steps that are handed over: each step's, and that of
the row that was open at the end once more. -/
def handedOver (task : ORKOrderedTask) (tvc : ORKTaskViewController) : List String :=
  task.steps.map ORKStep.identifier ++
    ((tvc.currentStepViewController.filter ORKStepViewController.isBeingReviewed).map
      fun vc ↦ vc.step.identifier).toList

theorem identifiers_sublist (task : ORKOrderedTask) (m : ℕ) :
    (ORKTaskViewController.identifiers task m).Sublist (task.steps.map ORKStep.identifier) :=
  (List.take_sublist m task.steps).map _

theorem stack_sublist (task : ORKOrderedTask) (events : List ORKTaskViewController.Event) :
    (ORKTaskViewController.run task events).managedStepIdentifiers.Sublist
      (handedOver task (ORKTaskViewController.run task events)) ∧
    ∀ identifier ∈ (ORKTaskViewController.run task events).managedStepIdentifiers,
      ∃ s ∈ task.steps, s.identifier = identifier := by
  have htask := ORKTaskViewController.run_task task events
  have hpages (m : ℕ) : ∀ identifier ∈ ORKTaskViewController.identifiers task m,
      ∃ s ∈ task.steps, s.identifier = identifier := by
    intro identifier h
    obtain ⟨p, s, -, hs, he⟩ := ORKTaskViewController.mem_identifiers.mp h
    exact ⟨s, List.mem_of_getElem? hs, he⟩
  by_cases hne : task.steps = []
  · rw [ORKTaskViewController.run_nil hne]
    simp
  · have hlocated := ORKTaskViewController.located_run hne events
    generalize ORKTaskViewController.run task events = tvc at hlocated htask ⊢
    subst htask
    cases hlocated with
    | page vc p hpage =>
      rw [hpage.stack]
      refine ⟨(identifiers_sublist tvc.task (p + 1)).trans (List.sublist_append_left _ _), hpages _⟩
    | row vc p r hrow =>
      have hopen : handedOver tvc.task tvc =
          tvc.task.steps.map ORKStep.identifier ++ [vc.step.identifier] := by
        simp [handedOver, hrow.current, Option.filter, hrow.isBeingReviewed]
      rw [hrow.stack, hopen]
      refine ⟨(identifiers_sublist tvc.task (r + 1)).append (List.Sublist.refl _), ?_⟩
      intro identifier h
      rcases List.mem_append.mp h with h | h
      · exact hpages _ identifier h
      · exact ⟨vc.step, List.mem_of_getElem? hrow.step, (List.mem_singleton.mp h).symm⟩

/-- The text results have the identifiers that the results were managed under. -/
theorem textResults_sublist (hkeyed : ORKTaskViewController.Keyed task)
    (hanswers : tvc.Answers task fun _ _ ↦ True) (stack : List (String × ℕ))
    (hstack : ∀ x ∈ stack, ∃ s ∈ task.steps, s.identifier = x.1) {managed : List ORKStepResult}
    (hmanaged : stack.map (fun x ↦ tvc.managedResults
      (ORKTaskViewController.uniqueManagedKey x.1 x.2)) = managed.map some) :
    ((textResults (managed.map ORKStepResult.toResult)).map Prod.fst).Sublist
      (stack.map Prod.fst) := by
  induction stack generalizing managed with
  | nil =>
    obtain rfl : managed = [] := List.map_eq_nil_iff.mp hmanaged.symm
    exact List.nil_sublist _
  | cons x stack ih =>
    cases managed with
    | nil => cases hmanaged
    | cons result managed =>
      obtain ⟨hresult, hrest⟩ := List.cons.inj hmanaged
      obtain ⟨s, hs, hid⟩ := hstack x (by simp)
      have htail := ih (fun y hy ↦ hstack y (by simp [hy])) hrest
      have hsplit : textResults ((result :: managed).map ORKStepResult.toResult) =
          result.results.filterMap asTextQuestionResult ++
            textResults (managed.map ORKStepResult.toResult) := by
        simp [textResults, ORKStepResult.toResult]
      rw [hsplit, List.map_append, List.map_cons, ← List.singleton_append]
      refine List.Sublist.append ?_ htail
      obtain ⟨vc, hvc, rfl, hplain | ⟨k, hunique⟩⟩ := hanswers.results _ _ hresult
      · rw [← hid] at hplain
        exact absurd hplain.symm (hkeyed vc.step hvc.step s hs x.2)
      · rw [(IndexedKey.indexed_inj.mp hunique).1]
        simp only [ORKStepViewController.result]
        split_ifs
        · cases vc.answer <;> simp [Answer.results, asTextQuestionResult]
        · exact List.nil_sublist _

theorem calls_sublist (hkeyed : ORKTaskViewController.Keyed task)
    (events : List ORKTaskViewController.Event) (currentUser : Option UserData)
    (reason : ORKTaskViewControllerFinishReason) :
    ((didFinishWith currentUser (ORKTaskViewController.run task events) reason).calls.map
      Survey.question).Sublist (handedOver task (ORKTaskViewController.run task events)) := by
  obtain ⟨hsublist, hsteps⟩ := stack_sublist task events
  have hadmits : ORKTaskViewController.Admits task (fun _ ↦ True) fun _ _ ↦ True := by
    constructor <;> intros <;> trivial
  have hanswers := (ORKTaskViewController.answers_run hadmits events
    fun _ _ ↦ trivial).updateCurrentResult
  generalize ORKTaskViewController.run task events = tvc at *
  refine List.Sublist.trans ?_ hsublist
  rw [didFinishWith]
  cases hr : tvc.result with
  | none => exact List.nil_sublist _
  | some results =>
    cases currentUser with
    | none => exact List.nil_sublist _
    | some user =>
      dsimp only
      rw [sendSurveyData_eq]
      rw [ORKTaskViewController.result, Option.map_eq_some_iff] at hr
      obtain ⟨managed, hmanaged, rfl⟩ := hr
      have hmap := Lists.mapM_eq_some.mp hmanaged
      rw [ORKTaskViewController.updateCurrentResult_stack] at hmap
      have htexts := textResults_sublist hkeyed hanswers _ (fun x hx ↦ hsteps x.1
        (List.mem_of_getElem? (List.mem_zipIdx_iff_getElem?.mp hx))) hmap
      rw [List.zipIdx_map_fst] at htexts
      refine List.Sublist.trans ?_ htexts
      have hpre := sendTexts_prefix user (textResults (managed.map ORKStepResult.toResult))
      simpa [Function.comp_def] using hpre.sublist.map Prod.fst

theorem surveyResponse_signature {user : UserData} {response response' : Survey}
    (h : surveyResponse user response.question (some response.answer) = some response)
    (h' : surveyResponse user response'.question (some response'.answer) = some response') :
    response.fullNames = response'.fullNames ∧ response.email = response'.email := by
  simp only [surveyResponse, Option.bind_eq_bind, Option.bind_eq_some_iff] at h h'
  obtain ⟨_, _, first, hfirst, last, hlast, email, hemail, hr⟩ := h
  obtain ⟨_, _, first', hfirst', last', hlast', email', hemail', hr'⟩ := h'
  obtain rfl := Option.some.inj (hfirst.symm.trans hfirst')
  obtain rfl := Option.some.inj (hlast.symm.trans hlast')
  obtain rfl := Option.some.inj (hemail.symm.trans hemail')
  rw [← Option.some.inj hr, ← Option.some.inj hr']
  exact ⟨rfl, rfl⟩

def Ran (tvc : ORKTaskViewController) : Prop :=
  ∃ surveyOne task events, setupSurveyScreen surveyOne = .ok task ∧
    tvc = ORKTaskViewController.run task events

theorem Ran.handle (h : Ran tvc) (event : ORKTaskViewController.Event) : Ran (tvc.handle event) := by
  obtain ⟨surveyOne, task, events, htask, rfl⟩ := h
  refine ⟨surveyOne, task, events ++ [event], htask, ?_⟩
  simp [ORKTaskViewController.run]

namespace Screen

/-- The profile is set once, and what has been sent was sent without it or with it. -/
structure Logged (s : Screen) : Prop where
  fetched : s.currentUser.isSome → s.fetching = false
  task : ∀ tvc, s.task = some tvc → Ran tvc
  log : ∀ finished ∈ s.log, Ran finished.controller ∧ ∃ currentUser,
    (currentUser = none ∨ currentUser = s.currentUser) ∧
      finished.outcome = didFinishWith currentUser finished.controller finished.reason

variable {s : Screen} {action : Action}

theorem getUserProfile_fetching (document : Option DocumentSnapshot) :
    (s.getUserProfile document).fetching = false := by
  unfold Screen.getUserProfile; split <;> rfl

theorem getSurveyQuestions_fetching (snapshot : Option (List DocumentSnapshot)) :
    (s.getSurveyQuestions snapshot).fetching = s.fetching := by
  unfold Screen.getSurveyQuestions; split <;> rfl

theorem didSelectRow_fetching : s.didSelectRow.fetching = s.fetching := by
  unfold Screen.didSelectRow; dsimp only; split <;> rfl

theorem logged_load (uid : Option String) : Logged (load uid) := by
  constructor <;> simp [load]

namespace Logged

theorem currentUser_kept (h : Logged s) (hs : s.currentUser.isSome) :
    (s.step action).currentUser = s.currentUser := by
  by_cases hc : s.crash.isSome
  · rw [step_crashed hc]
  · have hlive : s.crash.isSome = false := by simpa using hc
    simp only [Screen.step, hlive, Bool.false_eq_true, if_false]
    cases action with
    | profile document => simp [h.fetched hs]
    | questions snapshot => simp
    | selectRow =>
      dsimp only
      split_ifs <;> simp
    | task event =>
      cases s.task with
      | none => rfl
      | some tvc =>
        dsimp only
        split <;> rfl
    | swipe => rfl

theorem task_step (h : Logged s) {tvc : ORKTaskViewController}
    (htask : (s.step action).task = some tvc) : Ran tvc := by
  cases hcrash : s.crash with
  | some failure =>
    rw [step_crashed (by simp [hcrash])] at htask
    exact h.task tvc htask
  | none =>
    obtain ⟨hold, -⟩ | ⟨-, task, hmade, rfl⟩ | ⟨event, before, -, hbefore, rfl⟩ :=
      Screen.task_step hcrash htask
    · exact h.task tvc hold
    · exact ⟨s.surveyOne, task, [], hmade, rfl⟩
    · exact (h.task before hbefore).handle event

theorem ending_ran (h : Logged s) {x : ORKTaskViewControllerFinishReason × ORKTaskViewController}
    (hx : s.ending action = some x) : Ran x.2 := by
  obtain ⟨event, before, -, hbefore, heq, -⟩ := ending_some hx
  rw [heq]
  exact (h.task before hbefore).handle event

theorem step (h : Logged s) (action : Action) : Logged (s.step action) where
  fetched hs := by
    by_cases hc : s.crash.isSome
    · rw [step_crashed hc] at hs ⊢
      exact h.fetched hs
    · have hlive : s.crash.isSome = false := by simpa using hc
      simp only [Screen.step, hlive, Bool.false_eq_true, if_false] at hs ⊢
      cases action with
      | profile document =>
        dsimp only at hs ⊢
        by_cases hf : s.fetching
        · rw [if_pos hf, getUserProfile_fetching]
        · rw [if_neg hf]
          simpa using hf
      | questions snapshot =>
        rw [getSurveyQuestions_fetching]
        exact h.fetched (by simpa using hs)
      | selectRow =>
        dsimp only at hs ⊢
        split_ifs at hs ⊢ with ht
        · exact h.fetched hs
        · rw [didSelectRow_fetching]
          exact h.fetched (by simpa using hs)
      | task event =>
        cases ht : s.task with
        | none =>
          simp only [ht] at hs
          exact h.fetched hs
        | some tvc =>
          simp only [ht] at hs ⊢
          split at hs <;> exact h.fetched hs
      | swipe => exact h.fetched hs
  task tvc htask := h.task_step htask
  log finished hmem := by
    have hkept (currentUser : Option UserData) (hor : currentUser = none ∨ currentUser = s.currentUser) :
        currentUser = none ∨ currentUser = (s.step action).currentUser := by
      cases hs : s.currentUser with
      | none => exact .inl (by simpa [hs] using hor)
      | some user =>
        rw [h.currentUser_kept (by simp [hs])]
        exact hor
    rw [log_step] at hmem
    rcases List.mem_append.mp hmem with hold | hnew
    · obtain ⟨hran, currentUser, hor, houtcome⟩ := h.log finished hold
      exact ⟨hran, currentUser, hkept currentUser hor, houtcome⟩
    · obtain ⟨x, hx, rfl⟩ := Option.map_eq_some_iff.mp (Option.mem_toList.mp hnew)
      exact ⟨h.ending_ran hx, s.currentUser, hkept _ (.inr rfl), rfl⟩

end Logged

theorem logged_run (uid : Option String) (actions : List Action) : Logged (run uid actions) :=
  Execution.invariant (I := Logged) (fun _ action h ↦ h.step action) (logged_load uid) actions

/-- Each time a task ends, its questions are answered in order and at most
once, but for the row of the review that was open, which is answered again. -/
theorem responses_once (uid : Option String) (actions : List Action) {finished : Finished}
    (hmem : finished ∈ (run uid actions).log) :
    ∃ surveyOne task events, setupSurveyScreen surveyOne = .ok task ∧
      finished.controller = ORKTaskViewController.run task events ∧
      (ORKTaskViewController.Keyed task →
        (finished.outcome.calls.map Survey.question).Sublist
          (handedOver task finished.controller)) := by
  obtain ⟨⟨surveyOne, task, events, htask, hran⟩, currentUser, -, houtcome⟩ :=
    (logged_run uid actions).log finished hmem
  refine ⟨surveyOne, task, events, htask, hran, fun hkeyed ↦ ?_⟩
  rw [houtcome, hran]
  exact calls_sublist hkeyed events currentUser finished.reason

def annsActions : List Action :=
  .profile (some annsProfile) :: oneSurvey ++
    [.selectRow, .task .next, .task (.edit "z"), .task .next, .task (.selectRow 1),
      .task (.edit "y"), .task (.abandon .discarded)]

theorem responses_once_ann : ∃ finished ∈ (run (some "u") annsActions).log, ∃ surveyOne task events,
    setupSurveyScreen surveyOne = .ok task ∧
      finished.controller = ORKTaskViewController.run task events ∧
      (ORKTaskViewController.Keyed task → (finished.outcome.calls.map Survey.question).Sublist
        (handedOver task finished.controller)) := by
  have hlength : 0 < (run (some "u") annsActions).log.length := by decide +kernel
  exact ⟨_, List.getElem_mem hlength, responses_once (some "u") annsActions (List.getElem_mem hlength)⟩

/-- A task that is abandoned on a row sends the old answer and the new one. -/
example : (run (some "u") annsActions).log.map (fun finished ↦
    finished.outcome.calls.map fun response ↦ (response.question, response.answer)) =
    [[("A", "x")], [("A", "z"), ("A", "y")]] := by
  decide +kernel

/-- All that a screen sends is sent in one name. -/
theorem responses_alike (uid : Option String) (actions : List Action) {response response' : Survey}
    (h : response ∈ (run uid actions).log.flatMap fun finished ↦ finished.outcome.calls)
    (h' : response' ∈ (run uid actions).log.flatMap fun finished ↦ finished.outcome.calls) :
    response.fullNames = response'.fullNames ∧ response.email = response'.email := by
  have hsigned {response : Survey}
      (h : response ∈ (run uid actions).log.flatMap fun finished ↦ finished.outcome.calls) :
      ∃ user, (run uid actions).currentUser = some user ∧
        surveyResponse user response.question (some response.answer) = some response := by
    obtain ⟨finished, hmem, hcall⟩ := List.mem_flatMap.mp h
    obtain ⟨-, currentUser, hor, houtcome⟩ := (logged_run uid actions).log finished hmem
    rw [houtcome] at hcall
    obtain ⟨user, huser, hsigned⟩ := signed_of_mem_calls finished.reason hcall
    rcases hor with rfl | rfl
    · cases huser
    · exact ⟨user, huser, hsigned⟩
  obtain ⟨user, huser, hresponse⟩ := hsigned h
  obtain ⟨user', huser', hresponse'⟩ := hsigned h'
  obtain rfl := Option.some.inj (huser.symm.trans huser')
  exact surveyResponse_signature hresponse hresponse'

theorem responses_alike_ann :
    (Survey.mk "A" "x" "Ann Lee" "ann@lee").fullNames =
        (Survey.mk "A" "y" "Ann Lee" "ann@lee").fullNames ∧
      (Survey.mk "A" "x" "Ann Lee" "ann@lee").email =
        (Survey.mk "A" "y" "Ann Lee" "ann@lee").email :=
  responses_alike (some "u") annsActions (by decide +kernel) (by decide +kernel)

end Screen

end Croesus.FirstViewController
