import Croesus.FirstViewController.Shown

namespace Croesus.FirstViewController

open ResearchKit ORKTaskViewController

variable {surveyOne : List Questions}

theorem managedIndex_first {p : ℕ} {s : ORKStep} (hs : (surveySteps surveyOne)[p]? = some s) :
    managedIndex (firstIdentifiers surveyOne (p + 1)) s.identifier = p := by
  have hp := lt_of_step hs
  rw [firstIdentifiers_succ hs, managedIndex_last, firstIdentifiers_length surveyOne (by omega)]

theorem getLast?_first {p : ℕ} {s : ORKStep} (hs : (surveySteps surveyOne)[p]? = some s) :
    (firstIdentifiers surveyOne (p + 1)).getLast? = some s.identifier := by
  simp [firstIdentifiers_succ hs]

theorem getLast?_first_ne (hd : Distinct surveyOne) {p t : ℕ} {s s' : ORKStep}
    (hs : (surveySteps surveyOne)[p]? = some s) (hs' : (surveySteps surveyOne)[t]? = some s')
    (hpt : p ≠ t) : (firstIdentifiers surveyOne (p + 1)).getLast? ≠ some s'.identifier := by
  rw [getLast?_first hs]
  exact fun h ↦ hpt (identifier_inj hd hs hs' (Option.some.inj h))

variable {tvc : ORKTaskViewController} {vc : ORKStepViewController} {answers paged : ℕ → Answer}
  {p r : ℕ}

/-- A page is shown as the last of the pages up to it, whether it was put on the
stack or was there already. -/
theorem Shown.showPage {stack : List String} {c d t : ℕ} {s : ORKStep} {vc' : ORKStepViewController}
    (h : Shown surveyOne tvc stack vc c answers paged d)
    (hr : Refiles surveyOne stack c vc.step answers paged)
    (hs : (surveySteps surveyOne)[t]? = some s) (hfresh : Fresh surveyOne vc' t s answers)
    (hstack : firstIdentifiers surveyOne (t + 1) =
      if stack.getLast? = some s.identifier then stack else stack ++ [s.identifier])
    (hclear : Clear surveyOne t t) :
    Shown surveyOne (tvc.showViewController vc') (firstIdentifiers surveyOne (t + 1)) vc' t answers
      (Function.update paged t (answers t)) d ∧
    (tvc.showViewController vc').managedResults (uniqueManagedKey s.identifier t) =
      some (pageResult s (answers t)) := by
  have hindex := managedIndex_first hs
  obtain rfl := hfresh.step
  have hshow := h.showViewController hr vc' (firstIdentifiers surveyOne (t + 1)) hs hfresh.answer
    hfresh.rows hstack (by rwa [hindex])
  rwa [hindex, if_pos rfl] at hshow

/-- Page `p` of the form is shown, as the last of the pages up to it. -/
structure OnStep (surveyOne : List Questions) (tvc : ORKTaskViewController)
    (vc : ORKStepViewController) (p : ℕ) (answers paged : ℕ → Answer) : Prop where
  shown : Shown surveyOne tvc (firstIdentifiers surveyOne (p + 1)) vc p answers paged (p + 1)
  parent : vc.parentReviewStep = none
  paged : paged p = answers p

/-- Page `r` is shown, opened from the review. -/
structure OnEdit (surveyOne : List Questions) (tvc : ORKTaskViewController)
    (vc : ORKStepViewController) (r : ℕ) (original : Answer) (answers paged : ℕ → Answer) : Prop where
  shown : Shown surveyOne tvc
    (firstIdentifiers surveyOne (surveyOne.length + 2) ++ [vc.step.identifier]) vc r answers paged
    (surveyOne.length + 2)
  parent : vc.parentReviewStep = some reviewStep
  row : r ≤ surveyOne.length
  original : vc.step.isQuestionStep → vc.originalAnswer = original
  clear : Clear surveyOne r (surveyOne.length + 2)

namespace OnStep

theorem refiles (h : OnStep surveyOne tvc vc p answers paged) :
    Refiles surveyOne (firstIdentifiers surveyOne (p + 1)) p vc.step answers paged := by
  rw [Refiles, managedIndex_first h.shown.step]
  exact ⟨h.shown.table.clear p (by omega), fun _ ↦ h.paged⟩

theorem currentStep (h : OnStep surveyOne tvc vc p answers paged) :
    tvc.currentStep = some vc.step := by
  simp [ORKTaskViewController.currentStep, h.shown.current]

theorem setManagedResult (h : OnStep surveyOne tvc vc p answers paged) :
    OnStep surveyOne (tvc.setManagedResult vc.result vc.step.identifier) vc p answers paged :=
  ⟨h.shown.setManagedResult h.refiles, h.parent, h.paged⟩

theorem flipToNextPage (h : OnStep surveyOne tvc vc p answers paged)
    (hp : p < surveyOne.length + 2) (hclear : Clear surveyOne (p + 1) (p + 1)) :
    (tvc.flipToNextPage vc).finished = tvc.finished ∧ ∃ vc',
      OnStep surveyOne (tvc.flipToNextPage vc) vc' (p + 1) answers
        (Function.update paged (p + 1) (answers (p + 1))) := by
  obtain ⟨s, hs⟩ := step_exists surveyOne (p := p + 1) (by omega)
  have hu := h.shown.updateCurrentResult h.refiles
  have hafter : tvc.task.stepAfterStep tvc.currentStep = some s := by
    rw [h.currentStep, ORKOrderedTask.stepAfterStep_eq (p := p) (by rw [h.shown.steps, h.shown.step]),
      h.shown.steps, hs]
  have hlen : (firstIdentifiers surveyOne (p + 1)).length = p + 1 :=
    firstIdentifiers_length surveyOne (by omega)
  have hlast := getLast?_first_ne h.shown.distinct h.shown.step hs (by omega)
  obtain ⟨hfresh, hview⟩ := hu.viewControllerForStep h.refiles hs hlast (by rwa [hlen])
    fun ht ↦ ⟨[], by simp [show p = surveyOne.length by omega], .inl rfl⟩
  have hflip : tvc.flipToNextPage vc =
      (tvc.updateCurrentResult.viewControllerForStep s).2.showViewController
        (tvc.updateCurrentResult.viewControllerForStep s).1 := by
    simp [ORKTaskViewController.flipToNextPage, h.parent, hafter,
      ORKStepViewController.isBeingReviewed]
  rw [hlen, if_pos rfl] at hview
  have hr : Refiles surveyOne (firstIdentifiers surveyOne (p + 1)) p vc.step answers
      (Function.update paged (p + 1) (answers (p + 1))) := by
    refine ⟨h.refiles.1, fun _ ↦ ?_⟩
    rw [Function.update_of_ne (by omega)]
    exact h.paged
  obtain ⟨hshow, hfiled⟩ := hview.showPage hr hs hfresh
    (by rw [if_neg hlast, firstIdentifiers_succ hs]) hclear
  rw [Function.update_idem] at hshow
  rw [hflip]
  refine ⟨by simp, _, ⟨{ hshow with table := ?_ }, hfresh.parent, by simp⟩⟩
  apply hshow.table.extend hclear
  intro s' hs'
  obtain rfl : s = s' := Option.some.inj (hs.symm.trans hs')
  rw [hfiled, Function.update_self]

theorem flipToNextPage_last (h : OnStep surveyOne tvc vc p answers paged)
    (hp : p = surveyOne.length + 2) :
    (tvc.flipToNextPage vc).finished = some .completed ∧
      OnStep surveyOne (tvc.flipToNextPage vc) vc p answers paged := by
  have hafter : tvc.task.stepAfterStep tvc.currentStep = none := by
    rw [h.currentStep, ORKOrderedTask.stepAfterStep_eq (p := p) (by rw [h.shown.steps, h.shown.step]),
      h.shown.steps, List.getElem?_eq_none (by rw [surveySteps_length]; omega)]
  have hflip : tvc.flipToNextPage vc = tvc.updateCurrentResult.finishWithReason .completed := by
    simp [ORKTaskViewController.flipToNextPage, h.parent, hafter]
  rw [hflip]
  exact ⟨rfl, { h.shown.updateCurrentResult h.refiles with }, h.parent, h.paged⟩

theorem flipToPreviousPage (h : OnStep surveyOne tvc vc (p + 1) answers paged)
    (hclear : Clear surveyOne p (p + 2)) :
    (tvc.flipToPreviousPage vc).finished = tvc.finished ∧ ∃ vc',
      OnStep surveyOne (tvc.flipToPreviousPage vc) vc' p answers
        (Function.update paged p (answers p)) := by
  have hp := lt_of_step h.shown.step
  obtain ⟨s, hs⟩ := step_exists surveyOne (p := p) (by omega)
  have hu := h.shown.updateCurrentResult h.refiles
  have hbefore : tvc.task.stepBeforeStep tvc.currentStep = some s := by
    rw [h.currentStep, ORKOrderedTask.stepBeforeStep_succ (p := p) (by rw [h.shown.steps, h.shown.step]),
      h.shown.steps, hs]
  have hlen : (firstIdentifiers surveyOne (p + 2)).length = p + 2 :=
    firstIdentifiers_length surveyOne (by omega)
  obtain ⟨hfresh, hview⟩ := hu.viewControllerForStep h.refiles hs
    (getLast?_first_ne h.shown.distinct h.shown.step hs (by omega)) (by rwa [hlen])
    fun ht ↦ ⟨[reviewStep.identifier, vc.step.identifier],
      by rw [firstIdentifiers_succ h.shown.step, firstIdentifiers_succ hs, ht,
        Option.some.inj (hs.symm.trans (ht ▸ Shown.review_getElem? surveyOne)), List.append_assoc]; rfl,
      .inr ⟨_, rfl⟩⟩
  have hflip : tvc.flipToPreviousPage vc =
      (tvc.updateCurrentResult.viewControllerForStep s).2.removeLastIdentifier.showViewController
        (tvc.updateCurrentResult.viewControllerForStep s).1 := by
    simp [ORKTaskViewController.flipToPreviousPage, h.parent, hbefore]
  rw [hlen, if_neg (by omega)] at hview
  have hremoved := hview.removeLastIdentifier
  rw [firstIdentifiers_succ h.shown.step, List.dropLast_concat] at hremoved
  have hr : Refiles surveyOne (firstIdentifiers surveyOne (p + 1)) (p + 1) vc.step answers paged := by
    rw [Refiles, managedIndex_other (getLast?_first_ne h.shown.distinct hs h.shown.step (by omega)),
      firstIdentifiers_length surveyOne (by omega)]
    exact ⟨h.shown.table.clear (p + 1) (by omega), fun _ ↦ h.paged⟩
  obtain ⟨hshow, -⟩ := hremoved.showPage hr hs hfresh (by rw [if_pos (getLast?_first hs)])
    (h.shown.table.clear p (by omega))
  rw [hflip]
  exact ⟨by simp, _, hshow.shrink, hfresh.parent, by simp⟩

theorem flipToPreviousPage_first (h : OnStep surveyOne tvc vc 0 answers paged) :
    (tvc.flipToPreviousPage vc).finished = tvc.finished ∧
      OnStep surveyOne (tvc.flipToPreviousPage vc) vc 0 answers paged := by
  have hbefore : tvc.task.stepBeforeStep tvc.currentStep = none := by
    rw [h.currentStep, ORKOrderedTask.stepBeforeStep_zero (by rw [h.shown.steps, h.shown.step])]
  have hflip : tvc.flipToPreviousPage vc = tvc.updateCurrentResult := by
    simp [ORKTaskViewController.flipToPreviousPage, h.parent, hbefore]
  rw [hflip]
  exact ⟨by simp, h.shown.updateCurrentResult h.refiles, h.parent, h.paged⟩

theorem willReviewStep (h : OnStep surveyOne tvc vc (surveyOne.length + 1) answers paged)
    (hrow : r ≤ surveyOne.length) (hclear : Clear surveyOne r (surveyOne.length + 2)) :
    (tvc.willReviewStep vc r).finished = tvc.finished ∧ ∃ vc',
      OnEdit surveyOne (tvc.willReviewStep vc r) vc' r (answers r) answers paged := by
  obtain ⟨s, hs⟩ := step_exists surveyOne (p := r) (by omega)
  have hrows : vc.rows[r]? = some s := by
    rw [h.shown.rows, if_pos rfl, List.getElem?_take_of_lt (by omega), hs]
  have hvc : vc.step = reviewStep :=
    Option.some.inj (h.shown.step.symm.trans (Shown.review_getElem? surveyOne))
  have hlen : (firstIdentifiers surveyOne (surveyOne.length + 2)).length = surveyOne.length + 2 :=
    firstIdentifiers_length surveyOne (by omega)
  have hlast := getLast?_first_ne h.shown.distinct h.shown.step hs (by omega)
  obtain ⟨hfresh, hview⟩ := h.shown.viewControllerForStep h.refiles hs hlast (by rwa [hlen])
    fun ht ↦ by omega
  have hwill : tvc.willReviewStep vc r = (tvc.viewControllerForStep s).2.showViewController
      { (tvc.viewControllerForStep s).1 with parentReviewStep := some vc.step } := by
    simp [ORKTaskViewController.willReviewStep, hrows]
  rw [hlen, if_neg (by omega)] at hview
  have hindex : managedIndex (firstIdentifiers surveyOne (surveyOne.length + 2) ++ [s.identifier])
      s.identifier = surveyOne.length + 2 := by rw [managedIndex_last, hlen]
  obtain ⟨hshow, -⟩ := hview.showViewController h.refiles
    { (tvc.viewControllerForStep s).1 with parentReviewStep := some vc.step }
    (firstIdentifiers surveyOne (surveyOne.length + 2) ++ [s.identifier])
    (by rw [hfresh.step, hs]) (by rw [hfresh.step]; exact hfresh.answer) hfresh.rows
    (by rw [hfresh.step, if_neg hlast]) (by rw [hfresh.step, hindex]; exact hclear)
  rw [hfresh.step, hindex, if_neg (by omega)] at hshow
  rw [hwill]
  refine ⟨by simp, { (tvc.viewControllerForStep s).1 with parentReviewStep := some vc.step },
    ⟨?_, ?_, hrow, ?_, hclear⟩⟩
  · simpa only [hfresh.step] using hshow
  · rw [hvc]
  · rw [hfresh.step]
    exact hfresh.original

end OnStep

namespace OnEdit

variable {original : Answer}

theorem managedIndex_eq (surveyOne : List Questions) (vc : ORKStepViewController) :
    managedIndex (firstIdentifiers surveyOne (surveyOne.length + 2) ++ [vc.step.identifier])
      vc.step.identifier = surveyOne.length + 2 := by
  rw [managedIndex_last, firstIdentifiers_length surveyOne (by omega)]

theorem refiles (h : OnEdit surveyOne tvc vc r original answers paged) :
    Refiles surveyOne (firstIdentifiers surveyOne (surveyOne.length + 2) ++ [vc.step.identifier]) r
      vc.step answers paged := by
  have hrow := h.row
  rw [Refiles, managedIndex_eq]
  exact ⟨h.clear, fun hk ↦ by omega⟩

theorem setManagedResult (h : OnEdit surveyOne tvc vc r original answers paged) :
    OnEdit surveyOne (tvc.setManagedResult vc.result vc.step.identifier) vc r original answers paged :=
  { h with shown := h.shown.setManagedResult h.refiles }

theorem flipToPreviousPage (h : OnEdit surveyOne tvc vc r original answers paged)
    (hclear : Clear surveyOne (surveyOne.length + 1) (surveyOne.length + 3)) :
    (tvc.flipToPreviousPage vc).finished = tvc.finished ∧ ∃ vc',
      OnStep surveyOne (tvc.flipToPreviousPage vc) vc' (surveyOne.length + 1) answers
        (Function.update paged (surveyOne.length + 1) (answers (surveyOne.length + 1))) := by
  have hrow := h.row
  have hs := Shown.review_getElem? surveyOne
  have hlen := firstIdentifiers_length surveyOne (m := surveyOne.length + 2) (by omega)
  have hne : some vc.step.identifier ≠ some reviewStep.identifier := fun he ↦ by
    have := identifier_inj h.shown.distinct h.shown.step hs (Option.some.inj he)
    omega
  obtain ⟨hfresh, hview⟩ := h.shown.viewControllerForStep h.refiles hs (by simpa using hne)
    (by simpa [hlen] using hclear)
    fun _ ↦ ⟨[reviewStep.identifier, vc.step.identifier],
      by rw [firstIdentifiers_succ hs, List.append_assoc]; rfl, .inr ⟨_, rfl⟩⟩
  have hflip : tvc.flipToPreviousPage vc =
      (tvc.viewControllerForStep reviewStep).2.removeLastIdentifier.showViewController
        (tvc.viewControllerForStep reviewStep).1 := by
    simp [ORKTaskViewController.flipToPreviousPage, h.parent]
  rw [List.length_append, hlen, if_neg (by simp)] at hview
  have hremoved := hview.removeLastIdentifier
  rw [List.dropLast_concat] at hremoved
  have hr : Refiles surveyOne (firstIdentifiers surveyOne (surveyOne.length + 2)) r vc.step answers
      paged := by
    rw [Refiles, managedIndex_other (getLast?_first_ne h.shown.distinct hs h.shown.step (by omega)),
      hlen]
    exact ⟨h.clear, fun hk ↦ by omega⟩
  obtain ⟨hshow, -⟩ := hremoved.showPage hr hs hfresh (by rw [if_pos (getLast?_first hs)])
    (h.shown.table.clear _ (by omega))
  rw [hflip]
  exact ⟨by simp, _, hshow, hfresh.parent, by simp⟩

end OnEdit

end Croesus.FirstViewController
