import Croesus.FirstViewController.Reported
import Croesus.ResearchKit.Answers
import Croesus.ResearchKit.ReviewStepViewController

namespace Croesus.FirstViewController

open ResearchKit ORKTaskViewController Library

/-- The form with the answers that its review lists, as they were when the
review was opened, and the row that the review was come back to from. -/
structure Review where
  form : Form := {}
  listed : Option (ℕ → Answer) := none
  row : Option ℕ := none

namespace Review

variable (n : ℕ) (review : Review)

/-- The review lists what is on the pages of the questions, but for the row it
is come back to from what was left there. -/
def handle (event : Event) : Review :=
  let form := review.form.handle n event
  if form.page = review.form.page ∨ form.page ≠ .step (n + 1) then { review with form := form }
  else match review.form.page with
    | .step _ => ⟨form, some form.paged, none⟩
    | .edit r _ => ⟨form, some (Function.update form.paged r (form.answers r)), some r⟩

def run (events : List Event) : Review := events.foldl (handle n) {}

theorem handle_form (event : Event) : (review.handle n event).form = review.form.handle n event := by
  unfold handle
  dsimp only
  split_ifs
  · rfl
  · split <;> rfl

theorem run_form (events : List Event) : (run n events).form = Form.run n events :=
  Execution.simulation_along (f := handle n) (g := Form.handle n) (R := fun review form ↦
    review.form = form) (P := fun _ _ ↦ True) (fun review _ event h _ ↦ by rw [handle_form, h]) rfl
    (Execution.along_of_forall (fun _ _ _ ↦ trivial) _)

end Review

def ValidAnswer (a : Answer) : Prop :=
  ∀ text, a = .text text → nameAnswerFormat.isTextLengthValid text

theorem ValidAnswer.of_isEmpty {a : Answer} (h : a.isEmpty) : ValidAnswer a := by
  rintro text rfl
  cases h

namespace Form

def ValidBefore (n p : ℕ) (form : Form) : Prop :=
  ∀ q, IsQuestion n q → q < p → ValidAnswer (form.answers q) ∧ ValidAnswer (form.paged q)

/-- A question is only left forwards with an answer that is not too long; one
that is left by going back has to be passed again on the way to the review. -/
def Valid (n : ℕ) (form : Form) : Prop :=
  match form.page with
  | .step p => form.paged p = form.answers p ∧ form.ValidBefore n p
  | .edit r original => (IsQuestion n r → ValidAnswer original) ∧
      ∀ q, IsQuestion n q → ValidAnswer (form.paged q) ∧ (q ≠ r → ValidAnswer (form.answers q))

section Valid

variable {n p r : ℕ} {form : Form} {a original : Answer}

theorem openPage_paged_of_ne {q : ℕ} (h : q ≠ p) : (form.openPage p).paged q = form.paged q :=
  Function.update_of_ne h _ _

theorem openPage_paged_of_lt (hp : n < p) {q : ℕ} (hq : IsQuestion n q) :
    (form.openPage p).paged q = form.paged q := by
  have hle := hq.2
  exact openPage_paged_of_ne (by omega)

theorem validAnswer_of_isValid (h : form.isValid p) : ValidAnswer (form.answers p) := by
  intro text htext
  simpa [isValid, htext, Answer.textAnswer] using h

theorem ValidBefore.openPage (h : form.ValidBefore n p) : (form.openPage p).Valid n := by
  refine ⟨Function.update_self .., fun q hq hlt ↦ ?_⟩
  obtain ⟨hanswer, hpaged⟩ := h q hq hlt
  exact ⟨hanswer, by rwa [openPage_paged_of_ne (by omega)]⟩

theorem ValidBefore.leave (h : form.ValidBefore n p) (a : Answer) :
    (form.leave p a).ValidBefore n p := by
  intro q hq hlt
  have hne : q ≠ p := by omega
  simpa only [Form.leave, Function.update_of_ne hne] using h q hq hlt

/-- The page is passed with a valid answer. -/
theorem ValidBefore.succ (h : form.ValidBefore n p) (hsame : form.paged p = form.answers p)
    (ha : IsQuestion n p → ValidAnswer (form.answers p)) : form.ValidBefore n (p + 1) := by
  intro q hq hlt
  rcases Nat.lt_succ_iff_lt_or_eq.mp hlt with hbefore | rfl
  · exact h q hq hbefore
  · rw [hsame]
    exact ⟨ha hq, ha hq⟩

theorem ValidBefore.forward (h : form.ValidBefore n p) (hpage : form.page = .step p)
    (hsame : form.paged p = form.answers p)
    (ha : IsQuestion n p → ValidAnswer (form.answers p)) : (form.forward n p).Valid n := by
  unfold Form.forward
  split_ifs
  · rw [Valid, hpage]
    exact ⟨hsame, h⟩
  · exact (h.succ hsame ha).openPage

theorem ValidBefore.onStep (h : form.ValidBefore n p) (hpage : form.page = .step p)
    (hsame : form.paged p = form.answers p) (event : Event) : (form.onStep n p event).Valid n := by
  have hstays : form.Valid n := by
    rw [Valid, hpage]
    exact ⟨hsame, h⟩
  have hleft (a : Answer) : (form.leave p a).paged p = (form.leave p a).answers p := by
    simp [Form.leave]
  cases event with
  | edit text =>
    simp only [Form.onStep]
    split_ifs
    · rw [Valid, show (form.leave p (.ofText text)).page = .step p from hpage]
      exact ⟨hleft _, h.leave _⟩
    · exact hstays
  | next =>
    simp only [Form.onStep]
    split_ifs with hc
    · exact hstays
    · refine h.forward hpage hsame fun hq ↦ validAnswer_of_isValid ?_
      by_contra hinvalid
      exact hc ⟨hq, .inr hinvalid⟩
  | skip =>
    simp only [Form.onStep]
    split_ifs
    · refine (h.leave .null).forward hpage (hleft .null) fun _ ↦ .of_isEmpty ?_
      simp [Form.leave, Answer.isEmpty]
    · exact hstays
  | back =>
    simp only [Form.onStep]
    split_ifs
    · exact hstays
    · exact ValidBefore.openPage fun q hq hlt ↦ h q hq (by omega)
  | selectRow row =>
    simp only [Form.onStep]
    split_ifs with hrow
    · obtain ⟨rfl, hle⟩ := hrow
      refine ⟨fun hq ↦ (h row hq (by omega)).1, fun q hq ↦ ?_⟩
      have hlt : q < n + 1 := Nat.lt_succ_of_le hq.2
      exact ⟨(h q hq hlt).2, fun _ ↦ (h q hq hlt).1⟩
    · exact hstays
  | abandon reason =>
    simp only [Form.onStep]
    split_ifs
    · exact hstays
    · exact hstays

/-- A row is left with a valid answer, or with the one that it was opened with. -/
theorem valid_onEdit (h : form.Valid n) (hpage : form.page = .edit r original) (event : Event) :
    (form.onEdit n r original event).Valid n := by
  have hrow := h
  rw [Valid, hpage] at hrow
  obtain ⟨horiginal, hrest⟩ := hrow
  have hrevised (a : Answer) (hq : IsQuestion n r) (ha : ValidAnswer a) :
      ((form.revise r a).openPage (n + 1)).Valid n := by
    refine ValidBefore.openPage fun q hq _ ↦ ⟨?_, (hrest q hq).1⟩
    simp only [Form.revise, Function.update_apply]
    split_ifs with he
    · exact ha
    · exact (hrest q hq).2 he
  have hopened (ha : IsQuestion n r → ValidAnswer (form.answers r)) :
      (form.openPage (n + 1)).Valid n := by
    refine ValidBefore.openPage fun q hq _ ↦ ⟨?_, (hrest q hq).1⟩
    by_cases he : q = r
    · subst he
      exact ha hq
    · exact (hrest q hq).2 he
  cases event with
  | edit text =>
    simp only [Form.onEdit]
    split_ifs
    · rw [Valid, show (form.revise r (.ofText text)).page = .edit r original from hpage]
      refine ⟨horiginal, fun q hq ↦ ⟨(hrest q hq).1, fun hne ↦ ?_⟩⟩
      simpa only [Form.revise, Function.update_of_ne hne] using (hrest q hq).2 hne
    · exact h
  | next =>
    simp only [Form.onEdit]
    split_ifs with hc
    · exact h
    · refine hopened fun hq ↦ validAnswer_of_isValid ?_
      by_contra hinvalid
      exact hc ⟨hq, .inr (.inr hinvalid)⟩
  | skip =>
    simp only [Form.onEdit]
    split_ifs with hc
    · exact hrevised .null hc.1 (.of_isEmpty rfl)
    · exact h
  | back =>
    simp only [Form.onEdit]
    split_ifs with hq
    · exact hrevised original hq (horiginal hq)
    · exact hopened fun hq' ↦ absurd hq' hq
  | selectRow row => exact h
  | abandon reason =>
    simp only [Form.onEdit]
    split_ifs
    · exact h
    · exact h

theorem Valid.handle (h : form.Valid n) (event : Event) : (form.handle n event).Valid n := by
  unfold Form.handle
  split
  · exact h
  · next hpage =>
    have hstep := h
    rw [Valid, hpage] at hstep
    exact hstep.2.onStep hpage hstep.1 event
  · next hpage => exact valid_onEdit h hpage event

theorem Valid.empty : Valid n {} := ⟨rfl, fun q _ hlt ↦ absurd hlt (Nat.not_lt_zero q)⟩

end Valid

end Form

variable {surveyOne : List Questions}

/-- Every question is listed with its answer. -/
def Lists (surveyOne : List Questions) (results : List ORKResult) (listed : ℕ → Answer) : Prop :=
  ∀ p s, Form.IsQuestion surveyOne.length p → (surveySteps surveyOne)[p]? = some s →
    answerStringForStep s (resultForIdentifier results s.identifier) = (listed p).textAnswer

def pageResults (surveyOne : List Questions) (paged : ℕ → Answer) (m : ℕ) : List ORKStepResult :=
  ((surveySteps surveyOne).take m).zipIdx.map fun x ↦ pageResult x.1 (paged x.2)

theorem resultForIdentifier_concat (results : List ORKResult) (result : ORKResult)
    (identifier : String) : resultForIdentifier (results ++ [result]) identifier =
      if result.identifier = identifier then some result
      else resultForIdentifier results identifier := by
  rw [resultForIdentifier, List.reverse_append, List.reverse_singleton, List.singleton_append,
    List.find?_cons]
  split_ifs with h
  · simp [h]
  · simp [h, resultForIdentifier]

theorem resultForIdentifier_pages (hd : Distinct surveyOne) {p m : ℕ} {s : ORKStep}
    (hs : (surveySteps surveyOne)[p]? = some s) (hp : p < m) (paged : ℕ → Answer) :
    resultForIdentifier ((pageResults surveyOne paged m).map ORKStepResult.toResult) s.identifier =
      some (pageResult s (paged p)).toResult := by
  induction m with
  | zero => omega
  | succ m ih =>
    cases ht : (surveySteps surveyOne)[m]? with
    | none =>
      have hlen := List.getElem?_eq_none_iff.mp ht
      have hlt := (List.getElem?_eq_some_iff.mp hs).1
      have he : pageResults surveyOne paged (m + 1) = pageResults surveyOne paged m := by
        rw [pageResults, pageResults, List.take_of_length_le hlen, List.take_of_length_le (by omega)]
      rw [he]
      exact ih (by omega)
    | some t =>
      have hlt := (List.getElem?_eq_some_iff.mp ht).1
      have he : pageResults surveyOne paged (m + 1) =
          pageResults surveyOne paged m ++ [pageResult t (paged m)] := by
        rw [pageResults, List.take_add_one, ht, Option.toList_some, List.zipIdx_append,
          List.map_append, pageResults, List.length_take, Nat.min_eq_left (by omega)]
        simp
      rw [he, List.map_append, List.map_singleton, resultForIdentifier_concat]
      split_ifs with hid
      · obtain rfl : m = p := identifier_inj hd ht hs hid
        obtain rfl : t = s := Option.some.inj (ht.symm.trans hs)
        rfl
      · have hne : p ≠ m := by
          rintro rfl
          obtain rfl : t = s := Option.some.inj (ht.symm.trans hs)
          exact hid rfl
        exact ih (by omega)

theorem answerStringForStep_pageResult {p : ℕ} {s : ORKStep} {a : Answer}
    (hs : (surveySteps surveyOne)[p]? = some s) (hp : Form.IsQuestion surveyOne.length p)
    (ha : ValidAnswer a) :
    answerStringForStep s (some (pageResult s a).toResult) = a.textAnswer := by
  have hq := (isQuestion_iff hs).mpr hp
  cases a with
  | unset | null =>
    simp [answerStringForStep, stepClass_question hs hq, pageResult, ORKStepResult.toResult, hq,
      Answer.results, Answer.textAnswer]
  | text t =>
    simp [answerStringForStep, stepClass_question hs hq, pageResult, ORKStepResult.toResult, hq,
      Answer.results, Answer.textAnswer, ORKTextAnswerFormat.stringForAnswer,
      ORKTextAnswerFormat.isAnswerValidWithString, ha t rfl]

theorem Lists.congr {results : List ORKResult} {listed listed' : ℕ → Answer}
    (h : Lists surveyOne results listed)
    (he : ∀ p, Form.IsQuestion surveyOne.length p → listed' p = listed p) :
    Lists surveyOne results listed' := by
  intro p s hp hs
  rw [he p hp]
  exact h p s hp hs

section Results

variable {tvc : ORKTaskViewController} {vc : ORKStepViewController} {answers paged : ℕ → Answer}
  {original : Answer} {p r : ℕ}

theorem lists_pages (hd : Distinct surveyOne) {m : ℕ} (hm : surveyOne.length < m)
    (hvalid : ∀ p, Form.IsQuestion surveyOne.length p → ValidAnswer (paged p)) :
    Lists surveyOne ((pageResults surveyOne paged m).map ORKStepResult.toResult) paged := by
  intro p s hp hs
  rw [resultForIdentifier_pages hd hs (Nat.lt_of_le_of_lt hp.2 hm)]
  exact answerStringForStep_pageResult hs hp (hvalid p hp)

theorem Table.mapM_pages {results : String → Option ORKStepResult} {d m : ℕ}
    (h : Table surveyOne results answers paged d) (hm : m ≤ d) :
    (firstIdentifiers surveyOne m).zipIdx.mapM
        (fun x : String × ℕ ↦ results (uniqueManagedKey x.1 x.2)) =
      some (pageResults surveyOne paged m) := by
  rw [Lists.mapM_eq_some, firstIdentifiers, pageResults, List.zipIdx_map, List.map_map, List.map_map]
  apply List.map_congr_left
  intro x hx
  have hx' := List.mem_zipIdx_iff_getElem?.mp hx
  have hlt : x.2 < m := by
    have := (List.getElem?_eq_some_iff.mp hx').1
    rw [List.length_take] at this
    omega
  rw [List.getElem?_take_of_lt hlt] at hx'
  exact h.pages x.2 x.1 (by omega) hx'

theorem OnStep.result (h : OnStep surveyOne tvc vc p answers paged) :
    tvc.result = some ((pageResults surveyOne paged (p + 1)).map ORKStepResult.toResult) := by
  have hu := h.shown.updateCurrentResult h.refiles
  rw [ORKTaskViewController.result, managedResultList, hu.stack]
  exact congrArg _ (hu.table.mapM_pages (Nat.le_refl _))

theorem OnStep.lists (h : OnStep surveyOne tvc vc p answers paged) (hp : surveyOne.length ≤ p)
    (hvalid : ∀ p, Form.IsQuestion surveyOne.length p → ValidAnswer (paged p)) :
    ∃ results, tvc.result = some results ∧ Lists surveyOne results paged :=
  ⟨_, h.result, lists_pages h.shown.distinct (by omega) hvalid⟩

/-- The row's result comes after those of the pages, and is found before them. -/
theorem OnEdit.lists (h : OnEdit surveyOne tvc vc r original answers paged)
    (hanswer : Form.IsQuestion surveyOne.length r → ValidAnswer (answers r))
    (hpaged : ∀ p, Form.IsQuestion surveyOne.length p → ValidAnswer (paged p)) :
    ∃ results, tvc.result = some results ∧
      Lists surveyOne results (Function.update paged r (answers r)) := by
  have hu := h.shown.updateCurrentResult h.refiles
  have hlast := h.shown.refile_last
  rw [OnEdit.managedIndex_eq] at hlast
  have hlen := firstIdentifiers_length surveyOne (m := surveyOne.length + 2) (by omega)
  have hresult : tvc.result = some ((pageResults surveyOne paged (surveyOne.length + 2)).map
      ORKStepResult.toResult ++ [(pageResult vc.step (answers r)).toResult]) := by
    rw [ORKTaskViewController.result, managedResultList, hu.stack, List.zipIdx_append,
      List.mapM_append, hu.table.mapM_pages (Nat.le_refl _), hlen, List.zipIdx_singleton]
    simp [hlast]
  refine ⟨_, hresult, fun p s hp hs ↦ ?_⟩
  rw [resultForIdentifier_concat]
  split_ifs with hid
  · obtain rfl : r = p := identifier_inj h.shown.distinct h.shown.step hs hid
    obtain rfl : vc.step = s := Option.some.inj (h.shown.step.symm.trans hs)
    rw [Function.update_self]
    exact answerStringForStep_pageResult hs hp (hanswer hp)
  · have hne : p ≠ r := by
      rintro rfl
      obtain rfl : vc.step = s := Option.some.inj (h.shown.step.symm.trans hs)
      exact hid rfl
    rw [Function.update_of_ne hne]
    exact lists_pages h.shown.distinct (by omega) hpaged p s hp hs

end Results

section Turns

variable {s : Sourced} {vc : ORKStepViewController} {form : Form} {original : Answer} {p r row : ℕ}

theorem stepClass_review {step : ORKStep} (hs : (surveySteps surveyOne)[p]? = some step) :
    step.stepClass = .reviewStep ↔ p = surveyOne.length + 1 := by
  rcases surveySteps_cases hs with ⟨rfl, rfl⟩ | ⟨q, h1, hn, -, rfl⟩ | ⟨rfl, rfl⟩ | ⟨rfl, rfl⟩ <;>
    simp [introStep, questionStep, reviewStep, summaryStep]
  omega

namespace OnStep

theorem handedOver_eq (s : Sourced) {step : Option ORKStep}
    (hs : (surveySteps surveyOne)[p]? = step) : s.handedOver step =
      if p = surveyOne.length + 1 then s.controller.result else s.resultSource := by
  cases step with
  | none =>
    have hlen := List.getElem?_eq_none_iff.mp hs
    rw [surveySteps_length] at hlen
    rw [if_neg (by omega)]
    simp [Sourced.handedOver]
  | some step => simp [Sourced.handedOver, stepClass_review hs]

theorem goForward_source (h : OnStep surveyOne s.controller vc p form.answers form.paged)
    (hcont : vc.shouldContinue) : (s.goForward vc).resultSource =
      if p = surveyOne.length then s.controller.result else s.resultSource := by
  have hafter : s.controller.task.stepAfterStep s.controller.currentStep =
      (surveySteps surveyOne)[p + 1]? := by
    rw [h.currentStep, ORKOrderedTask.stepAfterStep_eq (p := p) (by rw [h.shown.steps, h.shown.step]),
      h.shown.steps]
  have hgo : s.goForward vc = Sourced.flipToNextPage { s with
      controller := s.controller.setManagedResult vc.result vc.step.identifier } vc := by
    simp [Sourced.goForward, hcont, ORKStepViewController.isBeingReviewed, h.parent]
  rw [hgo, Sourced.flipToNextPage_source, h.parent, Option.none_or]
  exact (congrArg _ hafter).trans ((handedOver_eq _ rfl).trans (by
    simp [result_setManagedResult h.shown.current]))

theorem goBackward_source (h : OnStep surveyOne s.controller vc p form.answers form.paged) :
    (s.goBackward vc).resultSource =
      if p = surveyOne.length + 2 then s.controller.result else s.resultSource := by
  have hgo : s.goBackward vc = Sourced.flipToPreviousPage { s with
      controller := s.controller.setManagedResult vc.result vc.step.identifier } vc := by
    simp [Sourced.goBackward, ORKStepViewController.isBeingReviewed, h.parent]
  rw [hgo, Sourced.flipToPreviousPage_source, h.parent, Option.none_or]
  cases p with
  | zero =>
    have hbefore : s.controller.task.stepBeforeStep s.controller.currentStep = none := by
      rw [h.currentStep, ORKOrderedTask.stepBeforeStep_zero (by rw [h.shown.steps, h.shown.step])]
    rw [if_neg (by omega)]
    exact congrArg _ hbefore
  | succ p =>
    have hbefore : s.controller.task.stepBeforeStep s.controller.currentStep =
        (surveySteps surveyOne)[p]? := by
      rw [h.currentStep,
        ORKOrderedTask.stepBeforeStep_succ (p := p) (by rw [h.shown.steps, h.shown.step]),
        h.shown.steps]
    exact (congrArg _ hbefore).trans ((handedOver_eq _ rfl).trans (by
      simp [result_setManagedResult h.shown.current]))

theorem willReviewStep_source (h : OnStep surveyOne s.controller vc p form.answers form.paged) :
    (s.willReviewStep vc row).resultSource = s.resultSource := by
  simp only [Sourced.willReviewStep]
  cases hrow : vc.rows[row]? with
  | none => rfl
  | some step =>
    refine (Sourced.viewControllerForStep_source s step).trans (s.handedOver_of_ne ?_)
    rw [h.shown.rows] at hrow
    split_ifs at hrow with hp
    · obtain ⟨q, hq, hqs⟩ := List.mem_take_iff_getElem.mp (List.mem_of_getElem? hrow)
      exact mt (stepClass_review (List.getElem?_eq_some_iff.mpr ⟨by omega, hqs⟩)).mp (by omega)
    · simp at hrow

end OnStep

namespace OnEdit

theorem flipToPreviousPage_source
    (h : OnEdit surveyOne s.controller vc r original form.answers form.paged) :
    (Sourced.flipToPreviousPage { s with
      controller := s.controller.setManagedResult vc.result vc.step.identifier } vc).resultSource =
      s.controller.result := by
  rw [Sourced.flipToPreviousPage_source, h.parent, Option.some_or,
    OnStep.handedOver_eq _ (Shown.review_getElem? surveyOne), if_pos rfl]
  exact result_setManagedResult h.shown.current

theorem goForward_source (h : OnEdit surveyOne s.controller vc r original form.answers form.paged)
    (hcont : vc.shouldContinue) : (s.goForward vc).resultSource = s.controller.result := by
  rw [← h.flipToPreviousPage_source]
  simp [Sourced.goForward, hcont, ORKStepViewController.isBeingReviewed, h.parent]

end OnEdit

end Turns

/-- If the form has come to its review, then the review has been handed the
results that list the answers; if not, nothing has been handed over. -/
def Hands (surveyOne : List Questions) (before after : Option (List ORKResult)) (page : Page)
    (form : Form) (listed : ℕ → Answer) : Prop :=
  if form.page = page ∨ form.page ≠ .step (surveyOne.length + 1) then after = before
  else ∃ results, after = some results ∧ Lists surveyOne results listed

section Hands

variable {s : Sourced} {vc : ORKStepViewController} {form : Form} {original : Answer} {p r : ℕ}

theorem Hands.stays {source : Option (List ORKResult)} {page : Page} {listed : ℕ → Answer}
    (h : form.page = page ∨ form.page ≠ .step (surveyOne.length + 1)) :
    Hands surveyOne source source page form listed := by
  rw [Hands, if_pos h]

theorem abandon_source (s : Sourced) (reason : ORKTaskViewControllerFinishReason) :
    (if reason = .completed then s
      else { s with controller := s.controller.finishWithReason reason }).resultSource =
      s.resultSource := by
  split_ifs <;> rfl

namespace OnStep

theorem hands_openPage (h : OnStep surveyOne s.controller vc p form.answers form.paged)
    {after : Option (List ORKResult)} {t : ℕ} (hvalid : (form.openPage t).Valid surveyOne.length)
    (ht : t ≠ p)
    (hp : t = surveyOne.length + 1 → surveyOne.length ≤ p)
    (hafter : after = if t = surveyOne.length + 1 then s.controller.result else s.resultSource) :
    Hands surveyOne s.resultSource after (.step p) (form.openPage t) (form.openPage t).paged := by
  by_cases hreview : t = surveyOne.length + 1
  · have hpaged (q : ℕ) (hq : Form.IsQuestion surveyOne.length q) :
        (form.openPage t).paged q = form.paged q := Form.openPage_paged_of_lt (by omega) hq
    obtain ⟨results, hresult, hlists⟩ := h.lists (hp hreview) fun q hq ↦ by
      have hle := hq.2
      rw [← hpaged q hq]
      exact (hvalid.2 q hq (by omega)).2
    have hopens : ¬ ((form.openPage t).page = .step p ∨
        (form.openPage t).page ≠ .step (surveyOne.length + 1)) := by
      rw [← hreview]
      simp [Form.openPage, ht]
    rw [Hands, if_neg hopens, hafter, if_pos hreview]
    exact ⟨results, hresult, hlists.congr hpaged⟩
  · rw [hafter, if_neg hreview]
    exact .stays (.inr (by simp [Form.openPage, hreview]))

theorem hands_forward (h : OnStep surveyOne s.controller vc p form.answers form.paged)
    (hvalid : (form.forward surveyOne.length p).Valid surveyOne.length)
    (hpage : form.page = .step p) (hcont : vc.shouldContinue) :
    Hands surveyOne s.resultSource (s.goForward vc).resultSource (.step p)
      (form.forward surveyOne.length p) (form.forward surveyOne.length p).paged := by
  have hafter := h.goForward_source hcont
  unfold Form.forward at hvalid ⊢
  split_ifs at hvalid ⊢ with hlast
  · rw [hafter, if_neg (by omega)]
    exact .stays (.inl hpage)
  · exact h.hands_openPage hvalid (by omega) (by omega) (by simpa using hafter)

theorem handle_hands (h : OnStep surveyOne s.controller vc p form.answers form.paged)
    (event : Event) (hvalid : (form.handle surveyOne.length event).Valid surveyOne.length)
    (hf : s.controller.finished = form.finished) (hopen : form.finished = none)
    (hpage : form.page = .step p) :
    Hands surveyOne s.resultSource (s.handle event).resultSource (.step p)
      (form.handle surveyOne.length event) (form.handle surveyOne.length event).paged := by
  simp only [Form.handle, hopen, hpage] at hvalid
  simp only [Sourced.handle, hf, hopen, h.shown.current, Form.handle, hpage]
  cases event with
  | edit text =>
    refine .stays (.inl ?_)
    simp only [Form.onStep]
    split_ifs <;> exact hpage
  | next =>
    have hnext := h.next_iff
    simp only [Form.onStep] at hvalid ⊢
    by_cases hgo : vc.continueButtonEnabled ∧ vc.shouldContinue
    · rw [if_neg (hnext.mp hgo)] at hvalid ⊢
      rw [if_pos hgo.1]
      exact h.hands_forward hvalid hpage hgo.2
    · rw [if_pos (not_not.mp (mt hnext.mpr hgo))]
      split_ifs with hc
      · have hn : vc.shouldContinue = false := by simpa [hc] using hgo
        rw [Sourced.goForward, hn]
        exact .stays (.inl hpage)
      · exact .stays (.inl hpage)
  | skip =>
    have hskip := h.skip_iff
    simp only [Form.onStep] at hvalid ⊢
    split_ifs at hvalid ⊢ with hc hq hq
    · exact (h.saveAnswer .null).hands_forward (s := ⟨_, s.resultSource⟩) hvalid hpage
        (shouldContinue_null rfl)
    · exact absurd (hskip.mp hc) hq
    · exact absurd (hskip.mpr hq) hc
    · exact .stays (.inl hpage)
  | back =>
    have hafter := h.goBackward_source
    simp only [Form.onStep] at hvalid ⊢
    split_ifs at hvalid ⊢ with hp
    · rw [hafter, if_neg (by omega)]
      exact .stays (.inl hpage)
    · refine h.hands_openPage hvalid (by omega) (by omega) (hafter.trans ?_)
      simp only [show p = surveyOne.length + 2 ↔ p - 1 = surveyOne.length + 1 by omega]
  | selectRow row =>
    simp only [h.willReviewStep_source]
    refine .stays ?_
    simp only [Form.onStep]
    split_ifs
    · exact .inr (by simp [Form.openEdit])
    · exact .inl hpage
  | abandon reason =>
    simp only [abandon_source]
    refine .stays (.inl ?_)
    simp only [Form.onStep]
    split_ifs <;> exact hpage

end OnStep

namespace OnEdit

theorem hands_leave (h : OnEdit surveyOne s.controller vc r original form.answers form.paged)
    (hvalid : (form.openPage (surveyOne.length + 1)).Valid surveyOne.length)
    {after : Option (List ORKResult)} (hafter : after = s.controller.result) :
    Hands surveyOne s.resultSource after (.edit r original) (form.openPage (surveyOne.length + 1))
      (Function.update (form.openPage (surveyOne.length + 1)).paged r
        ((form.openPage (surveyOne.length + 1)).answers r)) := by
  have hpaged (q : ℕ) (hq : Form.IsQuestion surveyOne.length q) :
      (form.openPage (surveyOne.length + 1)).paged q = form.paged q :=
    Form.openPage_paged_of_lt (Nat.lt_succ_self _) hq
  have hbefore (q : ℕ) (hq : Form.IsQuestion surveyOne.length q) :=
    hvalid.2 q hq (Nat.lt_succ_of_le hq.2)
  obtain ⟨results, hresult, hlists⟩ := h.lists (fun hr ↦ (hbefore r hr).1) fun q hq ↦ by
    rw [← hpaged q hq]
    exact (hbefore q hq).2
  rw [Hands, if_neg (by simp [Form.openPage]), hafter]
  refine ⟨results, hresult, hlists.congr fun q hq ↦ ?_⟩
  simp only [Function.update_apply, hpaged q hq]
  rfl

theorem handle_hands (h : OnEdit surveyOne s.controller vc r original form.answers form.paged)
    (event : Event) (hvalid : (form.handle surveyOne.length event).Valid surveyOne.length)
    (hf : s.controller.finished = form.finished) (hopen : form.finished = none)
    (hpage : form.page = .edit r original) :
    Hands surveyOne s.resultSource (s.handle event).resultSource (.edit r original)
      (form.handle surveyOne.length event)
      (Function.update (form.handle surveyOne.length event).paged r
        ((form.handle surveyOne.length event).answers r)) := by
  simp only [Form.handle, hopen, hpage] at hvalid
  simp only [Sourced.handle, hf, hopen, h.shown.current, Form.handle, hpage]
  cases event with
  | edit text =>
    refine .stays (.inl ?_)
    simp only [Form.onEdit]
    split_ifs <;> exact hpage
  | next =>
    have hnext := h.next_iff
    simp only [Form.onEdit] at hvalid ⊢
    by_cases hgo : vc.continueButtonEnabled ∧ vc.shouldContinue
    · rw [if_neg (hnext.mp hgo)] at hvalid ⊢
      rw [if_pos hgo.1]
      exact h.hands_leave hvalid (h.goForward_source hgo.2)
    · rw [if_pos (not_not.mp (mt hnext.mpr hgo))]
      split_ifs with hc
      · have hn : vc.shouldContinue = false := by simpa [hc] using hgo
        rw [Sourced.goForward, hn]
        exact .stays (.inl hpage)
      · exact .stays (.inl hpage)
  | skip =>
    have hskip := h.skip_iff
    simp only [Form.onEdit] at hvalid ⊢
    split_ifs at hvalid ⊢ with hc hq hq
    · have hs := h.saveAnswer .null
      exact hs.hands_leave (s := ⟨_, s.resultSource⟩) hvalid
        (hs.goForward_source (s := ⟨_, s.resultSource⟩) (shouldContinue_null rfl))
    · exact absurd (hskip.mp hc) hq
    · exact absurd (hskip.mpr hq) hc
    · exact .stays (.inl hpage)
  | back =>
    simp only [Form.onEdit] at hvalid ⊢
    by_cases hq : vc.step.isQuestionStep
    · have hs := h.saveAnswer original
      rw [if_pos ((isQuestion_iff h.shown.step).mp hq)] at hvalid ⊢
      refine hs.hands_leave (s := ⟨_, s.resultSource⟩) hvalid ?_
      rw [← hs.flipToPreviousPage_source (s := ⟨_, s.resultSource⟩)]
      simp [Sourced.goBackward, ORKStepViewController.isBeingReviewed, h.parent, hq, h.original hq]
    · rw [if_neg (mt (isQuestion_iff h.shown.step).mpr hq)] at hvalid ⊢
      refine h.hands_leave hvalid ?_
      rw [← h.flipToPreviousPage_source]
      simp [Sourced.goBackward, hq]
  | selectRow row =>
    have hrow := h.row
    have hnone : vc.rows[row]? = none := by
      rw [h.shown.rows, if_neg (by omega)]
      rfl
    simp only [Sourced.willReviewStep, hnone]
    exact .stays (.inl hpage)
  | abandon reason =>
    simp only [abandon_source]
    refine .stays (.inl ?_)
    simp only [Form.onEdit]
    split_ifs <;> exact hpage

end OnEdit

end Hands

namespace Form

def IsPast (n : ℕ) : Page → Prop
  | .step p => n < p
  | .edit _ _ => True

variable {n : ℕ} {form : Form}

/-- Past the questions only the review is opened from elsewhere, and what is on
the questions' pages stays. -/
theorem isPast_handle {event : Event} (hpast : IsPast n (form.handle n event).page) :
    ((form.handle n event).page = .step (n + 1) ∧ form.page ≠ .step (n + 1)) ∨
      IsPast n form.page ∧ ∀ p, IsQuestion n p → (form.handle n event).paged p = form.paged p := by
  unfold Form.handle at hpast ⊢
  split
  · exact .inr ⟨by simpa [*] using hpast, fun _ _ ↦ rfl⟩
  · next p hopen hpage =>
    simp only [hopen, hpage] at hpast
    rw [hpage]
    cases event with
    | edit text =>
      simp only [onStep] at hpast ⊢
      split_ifs at hpast ⊢ with hc
      · have hle := hc.1.2
        simp only [leave, hpage, IsPast] at hpast
        omega
      · exact .inr ⟨by simpa [hpage] using hpast, fun _ _ ↦ rfl⟩
    | next =>
      simp only [onStep, forward] at hpast ⊢
      split_ifs at hpast ⊢ with hc hp
      · exact .inr ⟨by simpa [hpage] using hpast, fun _ _ ↦ rfl⟩
      · exact .inr ⟨by simpa [hpage] using hpast, fun _ _ ↦ rfl⟩
      · simp only [openPage, IsPast] at hpast
        rcases Nat.lt_succ_iff_lt_or_eq.mp hpast with hlt | rfl
        · exact .inr ⟨hlt, fun q hq ↦ openPage_paged_of_lt hpast hq⟩
        · exact .inl ⟨rfl, by simp⟩
    | skip =>
      simp only [onStep, forward] at hpast ⊢
      split_ifs at hpast ⊢ with hc hp
      · have hle := hc.2
        omega
      · have hle := hc.2
        simp only [openPage, IsPast] at hpast
        obtain rfl : n = p := by omega
        exact .inl ⟨rfl, by simp⟩
      · exact .inr ⟨by simpa [hpage] using hpast, fun _ _ ↦ rfl⟩
    | back =>
      simp only [onStep] at hpast ⊢
      split_ifs at hpast ⊢ with hp
      · exact .inr ⟨by simpa [hpage] using hpast, fun _ _ ↦ rfl⟩
      · simp only [openPage, IsPast] at hpast
        exact .inr ⟨by simp only [IsPast]; omega, fun q hq ↦ openPage_paged_of_lt hpast hq⟩
    | selectRow row =>
      simp only [onStep] at hpast ⊢
      split_ifs at hpast ⊢ with hp
      · obtain ⟨rfl, -⟩ := hp
        exact .inr ⟨Nat.lt_succ_self n, fun _ _ ↦ rfl⟩
      · exact .inr ⟨by simpa [hpage] using hpast, fun _ _ ↦ rfl⟩
    | abandon reason =>
      simp only [onStep] at hpast ⊢
      split_ifs at hpast ⊢
      · exact .inr ⟨by simpa [hpage] using hpast, fun _ _ ↦ rfl⟩
      · exact .inr ⟨by simpa [hpage] using hpast, fun _ _ ↦ rfl⟩
  · next p original hopen hpage =>
    rw [hpage]
    cases event <;> simp only [onEdit] <;> try split_ifs
    · exact .inr ⟨trivial, fun _ _ ↦ rfl⟩
    · exact .inr ⟨trivial, fun _ _ ↦ rfl⟩
    · exact .inr ⟨trivial, fun _ _ ↦ rfl⟩
    · exact .inl ⟨rfl, by simp⟩
    · exact .inl ⟨rfl, by simp⟩
    · exact .inr ⟨trivial, fun _ _ ↦ rfl⟩
    · exact .inl ⟨rfl, by simp⟩
    · exact .inl ⟨rfl, by simp⟩
    · exact .inr ⟨trivial, fun _ _ ↦ trivial⟩
    · exact .inr ⟨trivial, fun _ _ ↦ rfl⟩
    · exact .inr ⟨trivial, fun _ _ ↦ rfl⟩

end Form

namespace Review

variable {n : ℕ} {review : Review}

/-- Past the questions the review lists what is on their pages, but for one row. -/
def Recent (n : ℕ) (review : Review) : Prop :=
  Form.IsPast n review.form.page → ∃ listed, review.listed = some listed ∧
    ∀ p, Form.IsQuestion n p → review.row ≠ some p → listed p = review.form.paged p

theorem Recent.handle (h : Recent n review) (event : Event) : Recent n (review.handle n event) := by
  intro hpast
  rw [handle_form] at hpast
  unfold Review.handle
  dsimp only
  split_ifs with hstays
  · rcases Form.isPast_handle hpast with ⟨hpage, hne⟩ | ⟨hbefore, hpaged⟩
    · rcases hstays with hsame | hother
      · exact absurd (hsame.symm.trans hpage) hne
      · exact absurd hpage hother
    · obtain ⟨listed, hlisted, heq⟩ := h hbefore
      exact ⟨listed, hlisted, fun p hp hrow ↦ (heq p hp hrow).trans (hpaged p hp).symm⟩
  · split
    · exact ⟨_, rfl, fun _ _ _ ↦ rfl⟩
    · next r original _ =>
      refine ⟨_, rfl, fun p _ hrow ↦ Function.update_of_ne ?_ _ _⟩
      rintro rfl
      exact hrow rfl

theorem recent_run (n : ℕ) (events : List Event) : Recent n (run n events) :=
  Execution.invariant (I := Recent n) (a := {}) (fun _ event h ↦ h.handle event)
    (fun hpast ↦ absurd hpast (Nat.not_lt_zero n)) events

end Review

/-- The task view controller does what the form says, and its review has been
handed what lists the answers. -/
structure Sources (surveyOne : List Questions) (s : Sourced) (review : Review) : Prop where
  simulates : Simulates surveyOne s.controller review.form
  valid : review.form.Valid surveyOne.length
  lists : ∀ listed, review.listed = some listed →
    ∃ results, s.resultSource = some results ∧ Lists surveyOne results listed

theorem Sources.handle {s : Sourced} {review : Review} (h : Sources surveyOne s review)
    {event : Event} (hclear : ClearStep surveyOne review.form event) :
    Sources surveyOne (s.handle event) (review.handle surveyOne.length event) where
  simulates := by
    rw [Sourced.handle_controller, Review.handle_form]
    exact h.simulates.handle hclear
  valid := by
    rw [Review.handle_form]
    exact h.valid.handle event
  lists := by
    have hshows := h.simulates.shows
    have hf := h.simulates.finished
    cases hopen : review.form.finished with
    | some reason =>
      have hs : s.handle event = s := by simp [Sourced.handle, hf, hopen]
      have hform : review.form.handle surveyOne.length event = review.form := by
        simp [Form.handle, hopen]
      simpa [hs, Review.handle, hform] using h.lists
    | none =>
      intro listed hlisted
      rw [ShowsPage] at hshows
      unfold Review.handle at hlisted
      dsimp only at hlisted
      split at hshows
      · next p hpage =>
        obtain ⟨vc, hstep⟩ := hshows
        have hands := hstep.handle_hands event (h.valid.handle event) hf hopen hpage
        rw [Hands] at hands
        rw [hpage] at hlisted
        split_ifs at hlisted hands with hstays
        · rw [hands]
          exact h.lists listed hlisted
        · rwa [← Option.some.inj hlisted]
      · next r original hpage =>
        obtain ⟨vc, hedit⟩ := hshows
        have hands := hedit.handle_hands event (h.valid.handle event) hf hopen hpage
        rw [Hands] at hands
        rw [hpage] at hlisted
        split_ifs at hlisted hands with hstays
        · rw [hands]
          exact h.lists listed hlisted
        · rwa [← Option.some.inj hlisted]

theorem run_sources (hd : Distinct surveyOne) {events : List Event}
    (hclear : ClearRun surveyOne events) :
    Sources surveyOne (Sourced.run (surveyTask surveyOne hd) events)
      (Review.run surveyOne.length events) := by
  have hpresent : Sources surveyOne (Sourced.present (surveyTask surveyOne hd)) {} := by
    refine ⟨?_, .empty, by rintro _ ⟨⟩⟩
    rw [Sourced.present_controller]
    exact present_simulates hd hclear.1
  exact Execution.simulation_along (f := Sourced.handle) (g := Review.handle surveyOne.length)
    (P := fun review event ↦ ClearStep surveyOne review.form event)
    (fun _ _ _ h hstep ↦ h.handle hstep) hpresent
    (Execution.along_comp (m := Review.form) (Review.handle_form surveyOne.length) hclear.2)

theorem steps_before_review (surveyOne : List Questions) :
    (surveySteps surveyOne).take (surveyOne.length + 1) = introStep :: surveyOne.map questionStep := by
  simp [surveySteps]

theorem question_getElem? {p : ℕ} {q : Questions} (hp : 1 ≤ p) (hq : surveyOne[p - 1]? = some q) :
    (surveySteps surveyOne)[p]? = some (questionStep q) := by
  obtain ⟨i, rfl⟩ : ∃ i, p = i + 1 := ⟨p - 1, by omega⟩
  rw [Nat.add_sub_cancel] at hq
  have hlt := (List.getElem?_eq_some_iff.mp hq).1
  rw [surveySteps, List.cons_append, List.getElem?_cons_succ,
    List.getElem?_append_left (by simpa using hlt), List.getElem?_map, hq, Option.map_some]

theorem cells_eq {results : List ORKResult} {listed : ℕ → Answer}
    (h : Lists surveyOne results listed) :
    ((surveySteps surveyOne).take (surveyOne.length + 1)).map (cellForRow results) =
      (some "Expenditure Survey", none) ::
        (surveyOne.zipIdx 1).map fun x ↦ (some x.1.Question, (listed x.2).textAnswer) := by
  have hmap : surveyOne.map questionStep = (surveyOne.zipIdx 1).map fun x ↦ questionStep x.1 := by
    conv_lhs => rw [← List.zipIdx_map_fst 1 surveyOne, List.map_map]
    rfl
  rw [steps_before_review, List.map_cons, hmap, List.map_map]
  refine congrArg₂ _ rfl (List.map_congr_left fun x hx ↦ ?_)
  obtain ⟨hle, hq⟩ := List.mk_mem_zipIdx_iff_le_and_getElem?_sub.mp hx
  have hlisted := h x.2 (questionStep x.1) (mem_zipIdx_question hx) (question_getElem? hle hq)
  exact Prod.ext rfl hlisted

/-- The review lists the introduction and the questions in order, each with
what was left on its page or, for the row that was open last, in that row. -/
theorem review_cells {surveyOne : List Questions} {task : ORKOrderedTask} {events : List Event}
    (htask : setupSurveyScreen (some surveyOne) = .ok task) (hclear : ClearRun surveyOne events)
    (hpage : (Form.run surveyOne.length events).page = .step (surveyOne.length + 1)) :
    ∃ vc listed, (Sourced.run task events).controller.currentStepViewController = some vc ∧
      (Review.run surveyOne.length events).listed = some listed ∧
      (Sourced.run task events).cells vc = (some "Expenditure Survey", none) ::
        (surveyOne.zipIdx 1).map fun x ↦ (some x.1.Question, (listed x.2).textAnswer) := by
  by_cases hd : Distinct surveyOne
  · obtain rfl : surveyTask surveyOne hd = task :=
      Except.ok.inj ((setupSurveyScreen_eq hd).symm.trans htask)
    have hsources := run_sources hd hclear
    have hshows := hsources.simulates.shows
    rw [Review.run_form, ShowsPage, hpage] at hshows
    obtain ⟨vc, hstep⟩ := hshows
    have hpast : Form.IsPast surveyOne.length (Review.run surveyOne.length events).form.page := by
      rw [Review.run_form, hpage]
      exact Nat.lt_succ_self _
    obtain ⟨listed, hlisted, -⟩ := Review.recent_run surveyOne.length events hpast
    obtain ⟨results, hsource, hlists⟩ := hsources.lists listed hlisted
    refine ⟨vc, listed, hstep.shown.current, hlisted, ?_⟩
    rw [Sourced.cells, hstep.shown.rows, if_pos rfl, hsource]
    exact cells_eq hlists
  · cases (setupSurveyScreen_error hd).symm.trans htask

def revisedFirst : List Event :=
  [.next, .edit "x", .next, .edit "z", .next, .selectRow 1, .edit "y", .next]

theorem review_cells_revised : ∃ vc listed,
    (Sourced.run (surveyTask [⟨"A", "May"⟩, ⟨"B", "May"⟩] (by decide))
      revisedFirst).controller.currentStepViewController = some vc ∧
    (Review.run 2 revisedFirst).listed = some listed ∧
    (Sourced.run (surveyTask [⟨"A", "May"⟩, ⟨"B", "May"⟩] (by decide)) revisedFirst).cells vc =
      (some "Expenditure Survey", none) :: ([(⟨"A", "May"⟩, 1), (⟨"B", "May"⟩, 2)] :
        List (Questions × ℕ)).map fun x ↦ (some x.1.Question, (listed x.2).textAnswer) :=
  review_cells (setupSurveyScreen_eq (by decide)) (by decide +kernel) (by decide +kernel)

/-- The row that was come back to shows the new answer, which is not sent. -/
example : ((Sourced.run (surveyTask [⟨"A", "May"⟩] (by decide))
    [.next, .edit "x", .next, .selectRow 1, .edit "y", .next]).cells
      (.initWithReviewStep reviewStep [introStep, questionStep ⟨"A", "May"⟩])) =
    [(some "Expenditure Survey", none), (some "A", some "y")] := by
  decide +kernel

/-- Every response to a completed run has its answer from the page of its question. -/
theorem mem_calls_pages {tvc : ORKTaskViewController} {vc : ORKStepViewController}
    {answers paged : ℕ → Answer}
    (h : OnStep surveyOne tvc vc (surveyOne.length + 2) answers paged)
    {currentUser : Option UserData} {reason : ORKTaskViewControllerFinishReason} {response : Survey}
    (hresponse : response ∈ (didFinishWith currentUser tvc reason).calls) :
    ∃ x ∈ surveyOne.zipIdx 1, response.question = x.1.Question ∧
      (paged x.2).textAnswer = some response.answer := by
  rw [didFinishWith, completed_results h] at hresponse
  dsimp only at hresponse
  cases currentUser with
  | none => simp [sendSurveyData] at hresponse
  | some userData =>
    rw [sendSurveyData_eq, textResults_pages] at hresponse
    have hpre := sendTexts_prefix userData
    have hmem := (hpre _).subset (List.mem_map_of_mem hresponse)
    obtain ⟨x, hx, hentry⟩ := List.mem_flatMap.mp hmem
    refine ⟨x, hx, ?_⟩
    unfold entry at hentry
    split at hentry
    · simp at hentry
    · obtain ⟨hquestion, hanswer⟩ := Prod.mk.inj (List.mem_singleton.mp hentry)
      exact ⟨hquestion, hanswer.symm⟩

/-- What is sent after the review is what it listed, but for the answer of the
row that it was come back to from last. -/
theorem calls_listed {surveyOne : List Questions} {task : ORKOrderedTask} {events : List Event}
    (htask : setupSurveyScreen (some surveyOne) = .ok task) (hclear : ClearRun surveyOne events)
    (hdone : (run task events).finished = some .completed) (currentUser : Option UserData) :
    ∃ results, (Sourced.run task events).resultSource = some results ∧
      ∀ response ∈ (didFinishWith currentUser (run task events) .completed).calls,
        ∃ p q, Form.IsQuestion surveyOne.length p ∧ surveyOne[p - 1]? = some q ∧
          response.question = q.Question ∧ ((Review.run surveyOne.length events).row = some p ∨
          answerStringForStep (questionStep q) (resultForIdentifier results q.Question) =
            some response.answer) := by
  by_cases hd : Distinct surveyOne
  · obtain rfl : surveyTask surveyOne hd = task :=
      Except.ok.inj ((setupSurveyScreen_eq hd).symm.trans htask)
    have hsources := run_sources hd hclear
    have hsim := hsources.simulates
    rw [Sourced.run_controller] at hsim
    have hpage := hsim.completed (hsim.finished.symm.trans hdone)
    have hshows := hsim.shows
    rw [ShowsPage, hpage] at hshows
    obtain ⟨vc, hstep⟩ := hshows
    have hpast : Form.IsPast surveyOne.length (Review.run surveyOne.length events).form.page := by
      rw [hpage]
      exact Nat.lt_add_of_pos_right (by omega)
    obtain ⟨listed, hlisted, hrecent⟩ := Review.recent_run surveyOne.length events hpast
    obtain ⟨results, hsource, hlists⟩ := hsources.lists listed hlisted
    refine ⟨results, hsource, fun response hresponse ↦ ?_⟩
    obtain ⟨x, hx, hquestion, hanswer⟩ := mem_calls_pages hstep hresponse
    obtain ⟨hle, hq⟩ := List.mk_mem_zipIdx_iff_le_and_getElem?_sub.mp hx
    have hp := mem_zipIdx_question hx
    refine ⟨x.2, x.1, hp, hq, hquestion, or_iff_not_imp_left.mpr fun hrow ↦ ?_⟩
    rw [← hanswer, ← hrecent x.2 hp hrow]
    exact hlists x.2 (questionStep x.1) hp (question_getElem? hle hq)
  · cases (setupSurveyScreen_error hd).symm.trans htask

theorem calls_listed_revised : ∃ results,
    (Sourced.run (surveyTask [⟨"A", "May"⟩, ⟨"B", "May"⟩] (by decide))
      (revisedFirst ++ [.next, .next])).resultSource = some results ∧
    ∀ response ∈ (didFinishWith (some (.ofFields "Ann" "Lee" "ann@lee" "url"))
        (run (surveyTask [⟨"A", "May"⟩, ⟨"B", "May"⟩] (by decide)) (revisedFirst ++ [.next, .next]))
        .completed).calls,
      ∃ p q, Form.IsQuestion 2 p ∧ ([⟨"A", "May"⟩, ⟨"B", "May"⟩] : List Questions)[p - 1]? = some q ∧
        response.question = q.Question ∧
        ((Review.run 2 (revisedFirst ++ [.next, .next])).row = some p ∨
          answerStringForStep (questionStep q) (resultForIdentifier results q.Question) =
            some response.answer) :=
  calls_listed (setupSurveyScreen_eq (by decide)) (by decide +kernel) (by decide +kernel) _

end Croesus.FirstViewController
