import Croesus.FirstViewController.Simulation
import Croesus.FirstViewController.Submission

namespace Croesus.FirstViewController

open ResearchKit ORKTaskViewController Library

variable {surveyOne : List Questions}

def entry (paged : ℕ → Answer) (x : Questions × ℕ) : List (String × Option String) :=
  match paged x.2 with
  | .unset => []
  | a => [(x.1.Question, a.textAnswer)]

def lastLeft (surveyOne : List Questions) (answers : ℕ → Answer) : List (String × Option String) :=
  (surveyOne.zipIdx 1).map fun x ↦ (x.1.Question, (answers x.2).textAnswer)

theorem completed_results {tvc : ORKTaskViewController} {vc : ORKStepViewController}
    {answers paged : ℕ → Answer}
    (h : OnStep surveyOne tvc vc (surveyOne.length + 2) answers paged) :
    tvc.result = some ((surveySteps surveyOne).zipIdx.map
      fun x ↦ (pageResult x.1 (paged x.2)).toResult) := by
  have hu := h.shown.updateCurrentResult h.refiles
  have hall : firstIdentifiers surveyOne (surveyOne.length + 3) =
      (surveySteps surveyOne).map ORKStep.identifier := by
    rw [firstIdentifiers, ← surveySteps_length, List.take_length]
  have hlist : tvc.updateCurrentResult.managedResultList =
      some ((surveySteps surveyOne).zipIdx.map fun x ↦ pageResult x.1 (paged x.2)) := by
    rw [managedResultList, hu.stack, Lists.mapM_eq_some, hall, List.zipIdx_map, List.map_map,
      List.map_map]
    apply List.map_congr_left
    intro x hx
    have hs := List.mem_zipIdx_iff_getElem?.mp hx
    exact hu.table.pages x.2 x.1 (lt_of_step hs) hs
  rw [result, hlist, Option.map_some, List.map_map]
  rfl

theorem textResults_pages (paged : ℕ → Answer) :
    textResults ((surveySteps surveyOne).zipIdx.map
      fun x ↦ (pageResult x.1 (paged x.2)).toResult) =
      (surveyOne.zipIdx 1).flatMap (entry paged) := by
  have hquestion (q : Questions) (p : ℕ) :
      textResults [(pageResult (questionStep q) (paged p)).toResult] = entry paged (q, p) := by
    simp only [textResults, entry, pageResult, ORKStepResult.toResult, questionStep,
      ORKStep.isQuestionStep, if_true, List.flatMap_singleton]
    cases paged p <;> rfl
  have hmap (l : List (ORKStep × ℕ)) :
      textResults (l.map fun x ↦ (pageResult x.1 (paged x.2)).toResult) =
        l.flatMap fun x ↦ textResults [(pageResult x.1 (paged x.2)).toResult] := by
    simp [textResults, List.flatMap_map]
  rw [hmap, surveySteps, List.cons_append, List.zipIdx_cons, List.flatMap_cons, List.zipIdx_append,
    List.flatMap_append, List.zipIdx_map, List.flatMap_map]
  simp only [Prod.map, id, hquestion]
  exact List.append_nil _

theorem entries_length_le (paged : ℕ → Answer) (l : List (Questions × ℕ)) :
    (l.flatMap (entry paged)).length ≤ l.length := by
  induction l with
  | nil => simp
  | cons x l ih =>
    have hx : (entry paged x).length ≤ 1 := by
      unfold entry
      split <;> simp
    simp only [List.flatMap_cons, List.length_append, List.length_cons]
    omega

/-- If the pages contribute all of the answers last left, then each of them
has the answer last left on it. -/
theorem paged_of_entries {answers paged : ℕ → Answer} (l : List (Questions × ℕ))
    (h : l.flatMap (entry paged) = l.map fun x ↦ (x.1.Question, (answers x.2).textAnswer))
    (hall : ∀ x ∈ l, (answers x.2).isEmpty = false) : ∀ x ∈ l, paged x.2 = answers x.2 := by
  induction l with
  | nil => simp
  | cons x l ih =>
    obtain ⟨s, ha⟩ := Answer.isEmpty_eq_false.mp (hall x (by simp))
    have hlen := entries_length_le paged l
    cases hp : paged x.2 with
    | unset =>
      -- a page without an entry cannot be made up for by the others
      have hx : entry paged x = [] := by rw [entry, hp]
      have hl := congrArg List.length h
      rw [List.flatMap_cons, hx, List.nil_append, List.length_map, List.length_cons] at hl
      omega
    | null => simp [entry, hp, ha, Answer.textAnswer] at h
    | text t =>
      simp only [List.flatMap_cons, entry, hp, ha, Answer.textAnswer, List.singleton_append,
        List.map_cons, List.cons.injEq, Prod.mk.injEq, Option.some.injEq, true_and] at h
      obtain ⟨rfl, hrest⟩ := h
      have htail := ih hrest fun y hy ↦ hall y (by simp [hy])
      intro y hy
      rcases List.mem_cons.mp hy with rfl | hy
      · rw [hp, ha]
      · exact htail y hy

theorem entries_eq {answers paged : ℕ → Answer} (l : List (Questions × ℕ))
    (h : ∀ x ∈ l, paged x.2 = answers x.2) (hall : ∀ x ∈ l, (answers x.2).isEmpty = false) :
    l.flatMap (entry paged) = l.map fun x ↦ (x.1.Question, (answers x.2).textAnswer) := by
  rw [List.map_eq_flatMap]
  apply List.flatMap_congr
  intro x hx
  obtain ⟨s, ha⟩ := Answer.isEmpty_eq_false.mp (hall x hx)
  simp [entry, h x hx, ha]

theorem mem_zipIdx_question {x : Questions × ℕ} (hx : x ∈ surveyOne.zipIdx 1) :
    Form.IsQuestion surveyOne.length x.2 := by
  have := List.mem_zipIdx hx
  exact ⟨by omega, by omega⟩

theorem exists_mem_zipIdx {p : ℕ} (hp : Form.IsQuestion surveyOne.length p) :
    ∃ x ∈ surveyOne.zipIdx 1, x.2 = p := by
  obtain ⟨h1, hn⟩ := hp
  refine ⟨(surveyOne[p - 1], p), List.mk_mem_zipIdx_iff_le_and_getElem?_sub.mpr ⟨h1, ?_⟩, rfl⟩
  exact List.getElem?_eq_getElem _

/-- The responses to a completed run are the answers the user last left, each
once and in order, exactly if every question's page shows the answer last left. -/
theorem calls_lastLeft_iff {tvc : ORKTaskViewController} {vc : ORKStepViewController} {form : Form}
    (h : OnStep surveyOne tvc vc (surveyOne.length + 2) form.answers form.paged)
    {userData : UserData} (hu : userData.isComplete) (hall : form.Answered surveyOne.length)
    (reason : ORKTaskViewControllerFinishReason) :
    (didFinishWith (some userData) tvc reason).calls.map (fun s ↦ (s.question, some s.answer)) =
        lastLeft surveyOne form.answers ↔ form.UpToDate surveyOne.length := by
  have hall' (x) (hx : x ∈ surveyOne.zipIdx 1) : (form.answers x.2).isEmpty = false :=
    hall x.2 (mem_zipIdx_question hx)
  rw [didFinishWith, completed_results h]
  dsimp only
  rw [sendSurveyData_eq, textResults_pages]
  constructor
  · intro heq p hp
    have hle := entries_length_le form.paged (surveyOne.zipIdx 1)
    -- what is sent is a prefix of the entries, and there are no more entries than questions
    have hpre := sendTexts_prefix userData ((surveyOne.zipIdx 1).flatMap (entry form.paged))
    rw [heq] at hpre
    have hfull := hpre.eq_of_length_le (by simpa [lastLeft] using hle)
    obtain ⟨x, hx, rfl⟩ := exists_mem_zipIdx hp
    exact paged_of_entries _ hfull.symm hall' x hx
  · intro hup
    have hentries := entries_eq (surveyOne.zipIdx 1)
      (fun x hx ↦ hup x.2 (mem_zipIdx_question hx)) hall'
    rw [hentries]
    refine sendTexts_calls _ ((sendTexts_trapped _).mpr fun y hy ↦ ⟨hu, ?_⟩)
    obtain ⟨x, hx, rfl⟩ := List.mem_map.mp hy
    obtain ⟨s, ha⟩ := Answer.isEmpty_eq_false.mp (hall' x hx)
    simp [ha, Answer.textAnswer]

/-- A completed run ends on the summary, in step with the form. -/
theorem completed_onStep {task : ORKOrderedTask} {events : List Event}
    (htask : setupSurveyScreen (some surveyOne) = .ok task) (hclear : ClearRun surveyOne events)
    (hdone : (run task events).finished = some .completed) :
    ∃ vc, OnStep surveyOne (run task events) vc (surveyOne.length + 2)
      (Form.run surveyOne.length events).answers (Form.run surveyOne.length events).paged := by
  by_cases hd : Distinct surveyOne
  · obtain rfl : surveyTask surveyOne hd = task :=
      Except.ok.inj ((setupSurveyScreen_eq hd).symm.trans htask)
    have hsim := run_simulates hd hclear
    have hshows := hsim.shows
    rwa [ShowsPage, hsim.completed (hsim.finished.symm.trans hdone)] at hshows
  · cases (setupSurveyScreen_error hd).symm.trans htask

/-- A completed run that opens no page under a question's text reports each
question once, in order and with the answer last left for it, exactly if no
answer was revised in the review without its page being shown again. -/
theorem reported_iff {surveyOne : List Questions} {task : ORKOrderedTask} {events : List Event}
    {userData : UserData} (htask : setupSurveyScreen (some surveyOne) = .ok task)
    (hclear : ClearRun surveyOne events) (hu : userData.isComplete)
    (hdone : (run task events).finished = some .completed)
    (hall : (Form.run surveyOne.length events).Answered surveyOne.length) :
    (didFinishWith (some userData) (run task events) .completed).calls.map
        (fun s ↦ (s.question, some s.answer)) =
        lastLeft surveyOne (Form.run surveyOne.length events).answers ↔
      (Form.run surveyOne.length events).UpToDate surveyOne.length := by
  obtain ⟨vc, hs⟩ := completed_onStep htask hclear hdone
  exact calls_lastLeft_iff hs hu hall .completed

/-- The first answer is revised in the review, and its page is gone back to. -/
def revisited : List Event :=
  [.next, .edit "x", .next, .edit "y", .next, .selectRow 1, .edit "z", .next, .back, .back, .next,
    .next, .next, .next]

theorem reported_revisited :
    (didFinishWith (some (.ofFields "Ann" "Lee" "ann@lee" "url"))
        (run (surveyTask [⟨"A", "May"⟩, ⟨"B", "May"⟩] (by decide)) revisited)
        .completed).calls.map (fun s ↦ (s.question, some s.answer)) =
      lastLeft [⟨"A", "May"⟩, ⟨"B", "May"⟩] (Form.run 2 revisited).answers :=
  (reported_iff (setupSurveyScreen_eq (by decide)) (by decide +kernel) rfl (by decide +kernel)
    (by decide +kernel)).mpr (by decide +kernel)

/-- An answer saved from the review is not the one that is reported. -/
theorem reported_stale :
    ¬ ∀ (surveyOne : List Questions) (task : ORKOrderedTask) (events : List Event)
      (userData : UserData), Distinct surveyOne →
      setupSurveyScreen (some surveyOne) = .ok task → userData.isComplete →
      (run task events).finished = some .completed →
      (Form.run surveyOne.length events).Answered surveyOne.length →
      (didFinishWith (some userData) (run task events) .completed).calls.map
          (fun s ↦ (s.question, some s.answer)) =
        lastLeft surveyOne (Form.run surveyOne.length events).answers := by
  intro h
  have hr := h [⟨"A", "May"⟩] _
    [.next, .edit "x", .next, .selectRow 1, .edit "y", .next, .next, .next]
    (.ofFields "Ann" "Lee" "ann@lee" "url") (by decide) (setupSurveyScreen_eq (by decide)) rfl
    (by decide +kernel) (by decide +kernel)
  exact absurd hr (by decide +kernel)

/-- A text that reads like a unique key takes the place of another answer. -/
example :
    (didFinishWith (some (.ofFields "Ann" "Lee" "ann@lee" "url"))
      (run (surveyTask [⟨"A", "May"⟩, ⟨"A:1", "May"⟩] (by decide))
        [.next, .edit "x", .next, .edit "y", .next, .next, .next]) .completed).calls.map
      (fun s ↦ (s.question, some s.answer)) = [("A:1", some "y"), ("A:1", some "y")] := by
  decide +kernel

end Croesus.FirstViewController
