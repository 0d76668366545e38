import Croesus.FirstViewController.Turns

namespace Croesus.FirstViewController

open ResearchKit ORKTaskViewController

variable (surveyOne : List Questions)

def ShowsPage (tvc : ORKTaskViewController) (form : Form) : Prop :=
  match form.page with
  | .step p => ∃ vc, OnStep surveyOne tvc vc p form.answers form.paged
  | .edit r original => ∃ vc, OnEdit surveyOne tvc vc r original form.answers form.paged

/-- The task view controller does what the form says. -/
structure Simulates (tvc : ORKTaskViewController) (form : Form) : Prop where
  finished : tvc.finished = form.finished
  shows : ShowsPage surveyOne tvc form
  completed : form.finished = some .completed → form.page = .step (surveyOne.length + 2)

variable {surveyOne} {tvc : ORKTaskViewController} {vc : ORKStepViewController} {form : Form}
  {p r : ℕ} {original : Answer}

theorem stepClass_question {s : ORKStep} (hs : (surveySteps surveyOne)[p]? = some s)
    (hq : s.isQuestionStep) : s.stepClass = .questionStep nameAnswerFormat := by
  rcases surveySteps_cases hs with ⟨-, rfl⟩ | ⟨q, -, -, -, rfl⟩ | ⟨-, rfl⟩ | ⟨-, rfl⟩
  · exact absurd hq (by decide)
  · rfl
  · exact absurd hq (by decide)
  · exact absurd hq (by decide)

theorem shouldContinue_iff (hs : (surveySteps surveyOne)[p]? = some vc.step)
    (ha : vc.step.isQuestionStep → vc.answer = form.answers p) :
    vc.shouldContinue ↔ (Form.IsQuestion surveyOne.length p → form.isValid p) := by
  rw [← isQuestion_iff hs]
  by_cases hq : vc.step.isQuestionStep
  · simp [ORKStepViewController.shouldContinue, stepClass_question hs hq, hq, ha hq, Form.isValid]
  · have hcont : vc.shouldContinue = true := by
      unfold ORKStepViewController.shouldContinue
      split
      · exact absurd (ORKStep.isQuestionStep_iff.mpr ⟨_, by assumption⟩) hq
      · rfl
    simp [hcont, hq]

theorem shouldContinue_null (h : vc.answer = .null) : vc.shouldContinue := by
  unfold ORKStepViewController.shouldContinue
  split
  · simp [h, Answer.textAnswer, ORKTextAnswerFormat.isTextLengthValid, utf16Length]
  · rfl

theorem edit_eq (hs : (surveySteps surveyOne)[p]? = some vc.step)
    (ha : vc.step.isQuestionStep → vc.answer = form.answers p) (text : String) :
    tvc.edit vc text =
      if Form.IsQuestion surveyOne.length p ∧ form.accepts p text then
        (tvc.saveAnswer vc (.ofText text)).2 else tvc := by
  by_cases hq : vc.step.isQuestionStep
  · have hp := (isQuestion_iff hs).mp hq
    simp [ORKTaskViewController.edit, stepClass_question hs hq, hp, ha hq, Form.accepts]
  · have hp := mt (isQuestion_iff hs).mpr hq
    rw [if_neg (fun h ↦ hp h.1), ORKTaskViewController.edit]
    split
    · exact absurd (ORKStep.isQuestionStep_iff.mpr ⟨_, by assumption⟩) hq
    · rfl

namespace OnStep

theorem simulates (h : OnStep surveyOne tvc vc p form.answers form.paged)
    (hf : tvc.finished = form.finished) (hpage : form.page = .step p)
    (hdone : form.finished = some .completed → p = surveyOne.length + 2) :
    Simulates surveyOne tvc form where
  finished := hf
  shows := by
    rw [ShowsPage, hpage]
    exact ⟨vc, h⟩
  completed hc := by rw [hpage, hdone hc]

theorem simulates_open (h : OnStep surveyOne tvc vc p form.answers form.paged)
    (hf : tvc.finished = form.finished) (hopen : form.finished = none) (hpage : form.page = .step p) :
    Simulates surveyOne tvc form :=
  h.simulates hf hpage fun hc ↦ absurd (hopen.symm.trans hc) (by simp)

theorem saveAnswer (h : OnStep surveyOne tvc vc p form.answers form.paged) (a : Answer) :
    OnStep surveyOne (tvc.saveAnswer vc a).2 (tvc.saveAnswer vc a).1 p
      (form.leave p a).answers (form.leave p a).paged := by
  have hs := h.shown.saveAnswer h.refiles.1 a
  rw [managedIndex_first h.shown.step, if_pos rfl] at hs
  exact ⟨hs, h.parent, by simp [Form.leave]⟩

theorem goForward (h : OnStep surveyOne tvc vc p form.answers form.paged)
    (hf : tvc.finished = form.finished) (hopen : form.finished = none) (hpage : form.page = .step p)
    (hcont : vc.shouldContinue)
    (hclear : p ≠ surveyOne.length + 2 → Clear surveyOne (p + 1) (p + 1)) :
    Simulates surveyOne (tvc.goForward vc) (form.forward surveyOne.length p) := by
  have hp := lt_of_step h.shown.step
  have hgo : tvc.goForward vc =
      (tvc.setManagedResult vc.result vc.step.identifier).flipToNextPage vc := by
    simp [ORKTaskViewController.goForward, hcont, ORKStepViewController.isBeingReviewed, h.parent]
  rw [hgo, Form.forward]
  split_ifs with hlast
  · obtain ⟨hfin, hs⟩ := h.setManagedResult.flipToNextPage_last hlast
    exact simulates hs hfin hpage fun _ ↦ hlast
  · obtain ⟨hfin, vc', hs⟩ := h.setManagedResult.flipToNextPage (by omega) (hclear hlast)
    exact simulates hs (hfin.trans hf) rfl
      fun hc ↦ absurd (hopen.symm.trans hc) (by simp)

theorem goBackward (h : OnStep surveyOne tvc vc p form.answers form.paged)
    (hf : tvc.finished = form.finished) (hopen : form.finished = none) (hpage : form.page = .step p)
    (hclear : p ≠ 0 → Clear surveyOne (p - 1) (p + 1)) :
    Simulates surveyOne (tvc.goBackward vc) (if p = 0 then form else form.openPage (p - 1)) := by
  have hdone (hc : form.finished = some .completed) : p = surveyOne.length + 2 :=
    absurd (hopen.symm.trans hc) (by simp)
  have hgo : tvc.goBackward vc =
      (tvc.setManagedResult vc.result vc.step.identifier).flipToPreviousPage vc := by
    simp [ORKTaskViewController.goBackward, ORKStepViewController.isBeingReviewed, h.parent]
  rw [hgo]
  cases p with
  | zero =>
    obtain ⟨hfin, hs⟩ := h.setManagedResult.flipToPreviousPage_first
    exact hs.simulates (hfin.trans hf) hpage hdone
  | succ p =>
    obtain ⟨hfin, vc', hs⟩ := h.setManagedResult.flipToPreviousPage (hclear (by omega))
    exact simulates hs (hfin.trans hf) rfl
      fun hc ↦ absurd (hopen.symm.trans hc) (by simp)

theorem next_iff (h : OnStep surveyOne tvc vc p form.answers form.paged) :
    (vc.continueButtonEnabled ∧ vc.shouldContinue) ↔
      ¬ (Form.IsQuestion surveyOne.length p ∧ ((form.answers p).isEmpty ∨ ¬ form.isValid p)) := by
  rw [shouldContinue_iff h.shown.step h.shown.answer, ← isQuestion_iff h.shown.step]
  by_cases hq : vc.step.isQuestionStep
  · simp [ORKStepViewController.continueButtonEnabled, ORKStepViewController.isBeingReviewed,
      h.parent, hq, h.shown.answer hq]
  · simp [ORKStepViewController.continueButtonEnabled, hq]

theorem skip_iff (h : OnStep surveyOne tvc vc p form.answers form.paged) :
    vc.skipButtonEnabled ↔ Form.IsQuestion surveyOne.length p := by
  rw [← isQuestion_iff h.shown.step]
  simp [ORKStepViewController.skipButtonEnabled, ORKStepViewController.isBeingReviewed, h.parent]

theorem next (h : OnStep surveyOne tvc vc p form.answers form.paged)
    (hf : tvc.finished = form.finished) (hopen : form.finished = none) (hpage : form.page = .step p)
    (hclear : (form.onStep surveyOne.length p .next).page ≠ .step p →
      Clear surveyOne (Form.position (form.onStep surveyOne.length p .next).page) (p + 1)) :
    Simulates surveyOne (if vc.continueButtonEnabled then tvc.goForward vc else tvc)
      (form.onStep surveyOne.length p .next) := by
  have hnext := h.next_iff
  simp only [Form.onStep] at hclear ⊢
  by_cases hgo : vc.continueButtonEnabled ∧ vc.shouldContinue
  · rw [if_neg (hnext.mp hgo)] at hclear ⊢
    rw [if_pos hgo.1]
    apply h.goForward hf hopen hpage hgo.2
    intro hp
    simpa [Form.forward, hp, Form.openPage, Form.position] using hclear
  · have hsame := h.simulates_open hf hopen hpage
    rw [if_pos (not_not.mp (mt hnext.mpr hgo))]
    split_ifs with hc
    · have hn : vc.shouldContinue = false := by simpa [hc] using hgo
      simpa [ORKTaskViewController.goForward, hn] using hsame
    · exact hsame

theorem skip (h : OnStep surveyOne tvc vc p form.answers form.paged)
    (hf : tvc.finished = form.finished) (hopen : form.finished = none) (hpage : form.page = .step p)
    (hclear : (form.onStep surveyOne.length p .skip).page ≠ .step p →
      Clear surveyOne (Form.position (form.onStep surveyOne.length p .skip).page) (p + 1)) :
    Simulates surveyOne (if vc.skipButtonEnabled then tvc.skip vc else tvc)
      (form.onStep surveyOne.length p .skip) := by
  have hskip := h.skip_iff
  simp only [Form.onStep] at hclear ⊢
  by_cases hq : Form.IsQuestion surveyOne.length p
  · rw [if_pos hq] at hclear ⊢
    rw [if_pos (hskip.mpr hq)]
    have hs := h.saveAnswer .null
    apply hs.goForward hf hopen hpage (shouldContinue_null rfl)
    intro hp
    simpa [Form.forward, hp, Form.openPage, Form.position] using hclear
  · rw [if_neg hq, if_neg (mt hskip.mp hq)]
    exact h.simulates_open hf hopen hpage

theorem selectRow (h : OnStep surveyOne tvc vc p form.answers form.paged)
    (hf : tvc.finished = form.finished) (hopen : form.finished = none) (hpage : form.page = .step p)
    {row : ℕ} (hclear : (form.onStep surveyOne.length p (.selectRow row)).page ≠ .step p →
      Clear surveyOne (Form.position (form.onStep surveyOne.length p (.selectRow row)).page) (p + 1)) :
    Simulates surveyOne (tvc.willReviewStep vc row)
      (form.onStep surveyOne.length p (.selectRow row)) := by
  simp only [Form.onStep] at hclear ⊢
  split_ifs at hclear ⊢ with hrow
  · obtain ⟨rfl, hrow⟩ := hrow
    obtain ⟨hfin, vc', hs⟩ := h.willReviewStep hrow (hclear (by simp [Form.openEdit]))
    exact ⟨hfin.trans hf, ⟨vc', hs⟩, fun hc ↦ absurd (hopen.symm.trans hc) (by simp)⟩
  · -- there is no such row: the page is not the review, or the review lists fewer steps
    have hnone : vc.rows[row]? = none := by
      rw [h.shown.rows]
      split_ifs with hp
      · simp [hp, surveySteps_length]
        omega
      · rfl
    simpa [ORKTaskViewController.willReviewStep, hnone] using h.simulates_open hf hopen hpage

theorem handle (h : OnStep surveyOne tvc vc p form.answers form.paged)
    (hf : tvc.finished = form.finished) (hopen : form.finished = none) (hpage : form.page = .step p)
    {event : Event} (hclear : ClearStep surveyOne form event) :
    Simulates surveyOne (tvc.handle event) (form.handle surveyOne.length event) := by
  have hdone (hc : form.finished = some .completed) : p = surveyOne.length + 2 :=
    absurd (hopen.symm.trans hc) (by simp)
  have hsame := h.simulates_open hf hopen hpage
  simp only [ClearStep, Form.handle, hopen, hpage, Form.depth] at hclear
  simp only [ORKTaskViewController.handle, hf, hopen, h.shown.current, Form.handle, hpage]
  cases event with
  | edit text =>
    dsimp only
    rw [edit_eq h.shown.step h.shown.answer, Form.onStep]
    split_ifs
    · exact (h.saveAnswer _).simulates hf hpage hdone
    · exact hsame
  | next => exact h.next hf hopen hpage hclear
  | skip => exact h.skip hf hopen hpage hclear
  | back =>
    apply h.goBackward hf hopen hpage
    intro hp
    have hne : p - 1 ≠ p := by omega
    simpa [Form.onStep, hp, Form.openPage, Form.position, hne] using hclear
  | selectRow row => exact h.selectRow hf hopen hpage hclear
  | abandon reason =>
    simp only [Form.onStep]
    split_ifs with hr
    · exact hsame
    · exact simulates
        ⟨{ h.shown with }, h.parent, h.paged⟩ rfl hpage fun hc ↦ absurd (Option.some.inj hc) hr

end OnStep

namespace OnEdit

theorem simulates (h : OnEdit surveyOne tvc vc r original form.answers form.paged)
    (hf : tvc.finished = form.finished) (hpage : form.page = .edit r original)
    (hdone : form.finished ≠ some .completed) : Simulates surveyOne tvc form where
  finished := hf
  shows := by
    rw [ShowsPage, hpage]
    exact ⟨vc, h⟩
  completed hc := absurd hc hdone

theorem saveAnswer (h : OnEdit surveyOne tvc vc r original form.answers form.paged) (a : Answer) :
    OnEdit surveyOne (tvc.saveAnswer vc a).2 (tvc.saveAnswer vc a).1 r original
      (form.revise r a).answers (form.revise r a).paged := by
  have hrow := h.row
  have hs := h.shown.saveAnswer h.refiles.1 a
  rw [managedIndex_eq, if_neg (by omega)] at hs
  exact ⟨hs, h.parent, h.row, h.original, h.clear⟩

theorem leave (h : OnEdit surveyOne tvc vc r original form.answers form.paged)
    (hf : tvc.finished = form.finished) (hopen : form.finished = none)
    (hclear : Clear surveyOne (surveyOne.length + 1) (surveyOne.length + 3)) :
    Simulates surveyOne
      ((tvc.setManagedResult vc.result vc.step.identifier).flipToPreviousPage vc)
      (form.openPage (surveyOne.length + 1)) := by
  obtain ⟨hfin, vc', hs⟩ := h.setManagedResult.flipToPreviousPage hclear
  exact hs.simulates (hfin.trans hf) rfl
    fun hc ↦ absurd (hopen.symm.trans hc) (by simp)

theorem goForward_eq (h : OnEdit surveyOne tvc vc r original form.answers form.paged)
    (tvc' : ORKTaskViewController) : tvc'.goForward vc = if vc.shouldContinue then
      (tvc'.setManagedResult vc.result vc.step.identifier).flipToPreviousPage vc else tvc' := by
  simp [ORKTaskViewController.goForward, ORKStepViewController.isBeingReviewed, h.parent]

theorem next_iff (h : OnEdit surveyOne tvc vc r original form.answers form.paged) :
    (vc.continueButtonEnabled ∧ vc.shouldContinue) ↔
      ¬ (Form.IsQuestion surveyOne.length r ∧
        ((form.answers r).isEmpty ∨ form.answers r = original ∨ ¬ form.isValid r)) := by
  rw [shouldContinue_iff h.shown.step h.shown.answer, ← isQuestion_iff h.shown.step]
  by_cases hq : vc.step.isQuestionStep
  · simp [ORKStepViewController.continueButtonEnabled, ORKStepViewController.isBeingReviewed,
      h.parent, hq, h.shown.answer hq, h.original hq, and_assoc]
  · simp [ORKStepViewController.continueButtonEnabled, hq]

theorem skip_iff (h : OnEdit surveyOne tvc vc r original form.answers form.paged) :
    vc.skipButtonEnabled ↔
      Form.IsQuestion surveyOne.length r ∧ original.isEmpty = false := by
  rw [← isQuestion_iff h.shown.step]
  by_cases hq : vc.step.isQuestionStep
  · simp [ORKStepViewController.skipButtonEnabled, ORKStepViewController.isBeingReviewed,
      h.parent, hq, h.original hq]
  · simp [ORKStepViewController.skipButtonEnabled, hq]

theorem next (h : OnEdit surveyOne tvc vc r original form.answers form.paged)
    (hf : tvc.finished = form.finished) (hopen : form.finished = none)
    (hpage : form.page = .edit r original)
    (hclear : (form.onEdit surveyOne.length r original .next).page ≠ .edit r original →
      Clear surveyOne (Form.position (form.onEdit surveyOne.length r original .next).page)
        (surveyOne.length + 3)) :
    Simulates surveyOne (if vc.continueButtonEnabled then tvc.goForward vc else tvc)
      (form.onEdit surveyOne.length r original .next) := by
  have hnext := h.next_iff
  simp only [Form.onEdit] at hclear ⊢
  by_cases hgo : vc.continueButtonEnabled ∧ vc.shouldContinue
  · rw [if_neg (hnext.mp hgo)] at hclear ⊢
    rw [if_pos hgo.1, h.goForward_eq, if_pos hgo.2]
    exact h.leave hf hopen (hclear (by simp [Form.openPage]))
  · have hsame : Simulates surveyOne tvc form := h.simulates hf hpage (by simp [hopen])
    have hn (hc : vc.continueButtonEnabled) : ¬ vc.shouldContinue := fun hs ↦ hgo ⟨hc, hs⟩
    rw [if_pos (not_not.mp (mt hnext.mpr hgo)), h.goForward_eq]
    split_ifs with hc hs
    · exact absurd hs (hn hc)
    · exact hsame
    · exact hsame

theorem skip (h : OnEdit surveyOne tvc vc r original form.answers form.paged)
    (hf : tvc.finished = form.finished) (hopen : form.finished = none)
    (hpage : form.page = .edit r original)
    (hclear : (form.onEdit surveyOne.length r original .skip).page ≠ .edit r original →
      Clear surveyOne (Form.position (form.onEdit surveyOne.length r original .skip).page)
        (surveyOne.length + 3)) :
    Simulates surveyOne (if vc.skipButtonEnabled then tvc.skip vc else tvc)
      (form.onEdit surveyOne.length r original .skip) := by
  have hskip := h.skip_iff
  simp only [Form.onEdit] at hclear ⊢
  by_cases hq : Form.IsQuestion surveyOne.length r ∧ original.isEmpty = false
  · rw [if_pos hq] at hclear ⊢
    rw [if_pos (hskip.mpr hq)]
    have hs := h.saveAnswer .null
    have hcont : (tvc.saveAnswer vc .null).1.shouldContinue := shouldContinue_null rfl
    have hgo : tvc.skip vc = (tvc.saveAnswer vc .null).2.goForward (tvc.saveAnswer vc .null).1 := rfl
    rw [hgo, hs.goForward_eq, if_pos hcont]
    exact hs.leave hf hopen (hclear (by simp [Form.openPage]))
  · rw [if_neg hq, if_neg (mt hskip.mp hq)]
    exact h.simulates hf hpage (by simp [hopen])

theorem goBackward (h : OnEdit surveyOne tvc vc r original form.answers form.paged)
    (hf : tvc.finished = form.finished) (hopen : form.finished = none)
    (hclear : Clear surveyOne (surveyOne.length + 1) (surveyOne.length + 3)) :
    Simulates surveyOne (tvc.goBackward vc) (form.onEdit surveyOne.length r original .back) := by
  simp only [Form.onEdit]
  by_cases hq : vc.step.isQuestionStep
  · have hs := h.saveAnswer original
    rw [if_pos ((isQuestion_iff h.shown.step).mp hq)]
    have hback : tvc.goBackward vc = ((tvc.saveAnswer vc original).2.setManagedResult
        (tvc.saveAnswer vc original).1.result vc.step.identifier).flipToPreviousPage
          (tvc.saveAnswer vc original).1 := by
      simp [ORKTaskViewController.goBackward, ORKStepViewController.isBeingReviewed, h.parent, hq,
        h.original hq]
      rfl
    rw [hback]
    exact hs.leave hf hopen hclear
  · rw [if_neg (mt (isQuestion_iff h.shown.step).mpr hq)]
    have hback : tvc.goBackward vc =
        (tvc.setManagedResult vc.result vc.step.identifier).flipToPreviousPage vc := by
      simp [ORKTaskViewController.goBackward, hq]
    rw [hback]
    exact h.leave hf hopen hclear

theorem handle (h : OnEdit surveyOne tvc vc r original form.answers form.paged)
    (hf : tvc.finished = form.finished) (hopen : form.finished = none)
    (hpage : form.page = .edit r original) {event : Event}
    (hclear : ClearStep surveyOne form event) :
    Simulates surveyOne (tvc.handle event) (form.handle surveyOne.length event) := by
  have hdone : form.finished ≠ some .completed := by simp [hopen]
  have hsame : Simulates surveyOne tvc form := h.simulates hf hpage hdone
  simp only [ClearStep, Form.handle, hopen, hpage, Form.depth] at hclear
  simp only [ORKTaskViewController.handle, hf, hopen, h.shown.current, Form.handle, hpage]
  cases event with
  | edit text =>
    dsimp only
    rw [edit_eq h.shown.step h.shown.answer, Form.onEdit]
    split_ifs
    · exact (h.saveAnswer _).simulates hf hpage hdone
    · exact hsame
  | next => exact h.next hf hopen hpage hclear
  | skip => exact h.skip hf hopen hpage hclear
  | back => exact h.goBackward hf hopen (hclear (by simp [Form.onEdit, Form.openPage]))
  | selectRow row =>
    have hrow := h.row
    have hnone : vc.rows[row]? = none := by
      rw [h.shown.rows, if_neg (by omega)]
      rfl
    simpa [ORKTaskViewController.willReviewStep, hnone, Form.onEdit] using hsame
  | abandon reason =>
    simp only [Form.onEdit]
    split_ifs with hr
    · exact hsame
    · exact simulates
        ⟨{ h.shown with }, h.parent, h.row, h.original, h.clear⟩ rfl hpage
        fun hc ↦ hr (Option.some.inj hc)

end OnEdit

theorem Simulates.handle (h : Simulates surveyOne tvc form) {event : Event}
    (hclear : ClearStep surveyOne form event) :
    Simulates surveyOne (tvc.handle event) (form.handle surveyOne.length event) := by
  have hshows := h.shows
  cases hopen : form.finished with
  | some reason =>
    simpa only [ORKTaskViewController.handle, h.finished, hopen, Form.handle] using h
  | none =>
    rw [ShowsPage] at hshows
    split at hshows
    · obtain ⟨vc, hs⟩ := hshows
      exact hs.handle h.finished hopen (by assumption) hclear
    · obtain ⟨vc, hs⟩ := hshows
      exact hs.handle h.finished hopen (by assumption) hclear

theorem Table.empty : Table surveyOne (fun _ ↦ none) (fun _ ↦ .unset) (fun _ ↦ .unset) 0 where
  plain _ _ _ _ := rfl
  pages _ _ hp := by omega
  clear _ hp := by omega

theorem present_simulates (hd : Distinct surveyOne) (hclear : Clear surveyOne 0 0) :
    Simulates surveyOne (present (surveyTask surveyOne hd)) {} := by
  have hs : (surveySteps surveyOne)[0]? = some introStep := rfl
  have h1 := Table.empty.file hd hs hclear .unset
  have h2 := h1.file hd hs hclear .unset
  rw [if_pos rfl, Function.update_idem, Function.update_eq_self] at h2
  rw [if_pos rfl, Function.update_eq_self] at h2
  -- filed twice under the key of page 0: by the step's controller and when it is shown
  have h3 := h2.extend hclear fun s hs' ↦ by
    obtain rfl : introStep = s := Option.some.inj (hs.symm.trans hs')
    exact Function.update_self ..
  refine OnStep.simulates (p := 0)
    (⟨?_, rfl, rfl⟩ : OnStep _ _ (.initWithStep introStep ⟨"IntroStep", []⟩) _ _ _) rfl rfl (by simp)
  exact ⟨hd, rfl, rfl, rfl, h3, hs, fun _ ↦ rfl, rfl⟩

/-- In a run that opens no page under a question's text, the task view
controller does what the form says. -/
theorem run_simulates (hd : Distinct surveyOne) {events : List Event}
    (hclear : ClearRun surveyOne events) :
    Simulates surveyOne (run (surveyTask surveyOne hd) events) (Form.run surveyOne.length events) :=
  Library.Execution.simulation_along (f := ORKTaskViewController.handle)
    (g := Form.handle surveyOne.length) (P := ClearStep surveyOne)
    (fun _ _ _ hsim hstep ↦ hsim.handle hstep) (present_simulates hd hclear.1) hclear.2

end Croesus.FirstViewController
