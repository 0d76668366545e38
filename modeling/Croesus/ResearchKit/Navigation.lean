import Croesus.ResearchKit.ManagedResults

namespace Croesus.ResearchKit.ORKTaskViewController

open Library

def identifiers (task : ORKOrderedTask) (m : ℕ) : List String :=
  (task.steps.take m).map ORKStep.identifier

def rowsBefore (task : ORKOrderedTask) (p : ℕ) (step : ORKStep) : List ORKStep :=
  if step.stepClass = .reviewStep then
    (task.steps.take p).filter fun s ↦ s.isQuestionStep || s.isInstructionStep
  else []

/-- The controller shows step `p`, reached page by page. -/
structure OnPage (tvc : ORKTaskViewController) (vc : ORKStepViewController) (p : ℕ) : Prop where
  current : tvc.currentStepViewController = some vc
  step : tvc.task.steps[p]? = some vc.step
  parent : vc.parentReviewStep = none
  rows : vc.rows = rowsBefore tvc.task p vc.step
  stack : tvc.managedStepIdentifiers = identifiers tvc.task (p + 1)

/-- The controller shows step `p`, opened from the review at `r`. -/
structure OnRow (tvc : ORKTaskViewController) (vc : ORKStepViewController) (p r : ℕ) : Prop where
  current : tvc.currentStepViewController = some vc
  step : tvc.task.steps[p]? = some vc.step
  before : p < r
  parent : ∃ reviewStep, tvc.task.steps[r]? = some reviewStep ∧
    vc.parentReviewStep = some reviewStep
  rows : vc.rows = []
  stack : tvc.managedStepIdentifiers = identifiers tvc.task (r + 1) ++ [vc.step.identifier]

section Identifiers

variable {task : ORKOrderedTask} {m p : ℕ} {s t : ORKStep}

theorem identifiers_succ (hs : task.steps[m]? = some s) :
    identifiers task (m + 1) = identifiers task m ++ [s.identifier] := by
  simp [identifiers, List.take_add_one, hs]

theorem getLast?_identifiers (hs : task.steps[m]? = some s) :
    (identifiers task (m + 1)).getLast? = some s.identifier := by
  simp [identifiers_succ hs]

theorem mem_identifiers {identifier : String} :
    identifier ∈ identifiers task m ↔
      ∃ p s, p < m ∧ task.steps[p]? = some s ∧ s.identifier = identifier := by
  simp only [identifiers, List.mem_map, List.mem_take_iff_getElem]
  constructor
  · rintro ⟨s, ⟨p, hp, rfl⟩, he⟩
    exact ⟨p, _, by omega, List.getElem?_eq_getElem _, he⟩
  · rintro ⟨p, s, hp, hs, he⟩
    obtain ⟨hlt, hg⟩ := List.getElem?_eq_some_iff.mp hs
    exact ⟨s, ⟨p, by omega, hg⟩, he⟩

theorem notMem_identifiers (hs : task.steps[p]? = some s) (hp : m ≤ p) :
    s.identifier ∉ identifiers task m := by
  intro h
  obtain ⟨q, t, hq, ht, he⟩ := mem_identifiers.mp h
  have := ORKOrderedTask.index_unique task ht hs he
  omega

theorem getLast?_identifiers_ne (hs : task.steps[p]? = some s) (hp : m ≤ p) :
    (identifiers task m).getLast? ≠ some s.identifier :=
  fun h ↦ notMem_identifiers hs hp (List.mem_of_getLast? h)

theorem dropLast_identifiers (hs : task.steps[m]? = some s) :
    (identifiers task (m + 1)).dropLast = identifiers task m := by
  rw [identifiers_succ hs, List.dropLast_concat]

end Identifiers

variable {tvc tvc' : ORKTaskViewController} {vc vc' : ORKStepViewController} {p r t : ℕ}
  {s : ORKStep} {rest : List String}

theorem collect_append {reviewStep : ORKStep} {steps : List ORKStep}
    (h : ∀ s ∈ steps, tvc.task.stepWithIdentifier s.identifier = some s ∧
      s.identifier ≠ reviewStep.identifier)
    (hend : stepsForReviewStep.collect tvc reviewStep rest = []) :
    stepsForReviewStep.collect tvc reviewStep (steps.map ORKStep.identifier ++ rest) = steps := by
  induction steps with
  | nil => exact hend
  | cons s steps ih =>
    obtain ⟨hfind, hne⟩ := h s (by simp)
    rw [List.map_cons, List.cons_append, stepsForReviewStep.collect, hfind]
    dsimp only
    rw [if_neg hne, ih fun s' hs' ↦ h s' (by simp [hs'])]

/-- The steps collected for the review are those before it, whether or not it
is already on the stack itself. -/
theorem stepsForReviewStep_identifiers {reviewStep : ORKStep}
    (hs : tvc.task.steps[r]? = some reviewStep)
    (hstack : tvc.managedStepIdentifiers = identifiers tvc.task r ++ rest)
    (hrest : ∀ identifier ∈ rest.head?, identifier = reviewStep.identifier) :
    tvc.stepsForReviewStep reviewStep = tvc.task.steps.take r := by
  have hend : stepsForReviewStep.collect tvc reviewStep rest = [] := by
    cases rest with
    | nil => rfl
    | cons identifier rest =>
      obtain rfl := hrest identifier rfl
      simp [stepsForReviewStep.collect, ORKOrderedTask.stepWithIdentifier_eq hs]
  rw [stepsForReviewStep, hstack, identifiers]
  refine collect_append (fun s hmem ↦ ?_) hend
  obtain ⟨q, hq, rfl⟩ := List.mem_take_iff_getElem.mp hmem
  have hq' : tvc.task.steps[q]? = some tvc.task.steps[q] := List.getElem?_eq_getElem _
  refine ⟨ORKOrderedTask.stepWithIdentifier_eq hq', fun he ↦ ?_⟩
  have := ORKOrderedTask.index_unique tvc.task hq' hs he
  omega

@[simp] theorem viewControllerForStep_task (tvc : ORKTaskViewController) (step : ORKStep) :
    (tvc.viewControllerForStep step).2.task = tvc.task := by
  unfold viewControllerForStep; split <;> simp

@[simp] theorem viewControllerForStep_stack (tvc : ORKTaskViewController) (step : ORKStep) :
    (tvc.viewControllerForStep step).2.managedStepIdentifiers = tvc.managedStepIdentifiers := by
  unfold viewControllerForStep; split <;> simp

@[simp] theorem viewControllerForStep_current (tvc : ORKTaskViewController) (step : ORKStep) :
    (tvc.viewControllerForStep step).2.currentStepViewController =
      tvc.currentStepViewController := by
  unfold viewControllerForStep; split <;> simp

@[simp] theorem viewControllerForStep_step (tvc : ORKTaskViewController) (step : ORKStep) :
    (tvc.viewControllerForStep step).1.step = step := by
  unfold viewControllerForStep; split <;> rfl

@[simp] theorem viewControllerForStep_parent (tvc : ORKTaskViewController) (step : ORKStep) :
    (tvc.viewControllerForStep step).1.parentReviewStep = none := by
  unfold viewControllerForStep; split <;> rfl

theorem viewControllerForStep_rows (rest : List String) (hs : tvc.task.steps[t]? = some s)
    (hstack : tvc.managedStepIdentifiers = identifiers tvc.task t ++ rest)
    (hrest : ∀ identifier ∈ rest.head?, identifier = s.identifier) :
    (tvc.viewControllerForStep s).1.rows = rowsBefore tvc.task t s := by
  unfold viewControllerForStep rowsBefore
  split
  · next hreview =>
    rw [if_pos hreview, ← stepsForReviewStep_identifiers hs hstack hrest]
    rfl
  · next hreview =>
    rw [if_neg hreview]
    rfl

@[simp] theorem showViewController_task (tvc : ORKTaskViewController) (vc : ORKStepViewController) :
    (tvc.showViewController vc).task = tvc.task := by simp [showViewController]

@[simp] theorem showViewController_current (tvc : ORKTaskViewController)
    (vc : ORKStepViewController) :
    (tvc.showViewController vc).currentStepViewController = some vc := by simp [showViewController]

theorem showViewController_stack (tvc : ORKTaskViewController) (vc : ORKStepViewController) :
    (tvc.showViewController vc).managedStepIdentifiers =
      if tvc.managedStepIdentifiers.getLast? = some vc.step.identifier then
        tvc.managedStepIdentifiers
      else tvc.managedStepIdentifiers ++ [vc.step.identifier] := by
  simp [showViewController]

@[simp] theorem removeLastIdentifier_task (tvc : ORKTaskViewController) :
    tvc.removeLastIdentifier.task = tvc.task := rfl

@[simp] theorem removeLastIdentifier_current (tvc : ORKTaskViewController) :
    tvc.removeLastIdentifier.currentStepViewController = tvc.currentStepViewController := rfl

@[simp] theorem removeLastIdentifier_stack (tvc : ORKTaskViewController) :
    tvc.removeLastIdentifier.managedStepIdentifiers = tvc.managedStepIdentifiers.dropLast := rfl

@[simp] theorem flipToPreviousPage_finished (tvc : ORKTaskViewController)
    (vc : ORKStepViewController) : (tvc.flipToPreviousPage vc).finished = tvc.finished := by
  unfold flipToPreviousPage
  cases vc.parentReviewStep with
  | some step => simp
  | none =>
    dsimp only
    split <;> simp

@[simp] theorem saveAnswer_finished (tvc : ORKTaskViewController) (vc : ORKStepViewController)
    (answer : Answer) : (tvc.saveAnswer vc answer).2.finished = tvc.finished := rfl

@[simp] theorem goBackward_finished (tvc : ORKTaskViewController) (vc : ORKStepViewController) :
    (tvc.goBackward vc).finished = tvc.finished := by
  unfold goBackward
  split_ifs <;> simp

@[simp] theorem willReviewStep_finished (tvc : ORKTaskViewController) (vc : ORKStepViewController)
    (row : ℕ) : (tvc.willReviewStep vc row).finished = tvc.finished := by
  unfold willReviewStep
  split <;> simp

/-- A page is shown over the stack of the pages before it, with or without
the page itself. -/
theorem onPage_show (hs : tvc.task.steps[t]? = some vc.step) (hparent : vc.parentReviewStep = none)
    (hrows : vc.rows = rowsBefore tvc.task t vc.step)
    (hstack : tvc.managedStepIdentifiers = identifiers tvc.task t ∨
      tvc.managedStepIdentifiers = identifiers tvc.task (t + 1)) :
    OnPage (tvc.showViewController vc) vc t where
  current := by simp
  step := by simpa using hs
  parent := hparent
  rows := by simpa using hrows
  stack := by
    rw [showViewController_stack, showViewController_task]
    rcases hstack with hstack | hstack
    · rw [hstack, if_neg (getLast?_identifiers_ne hs (Nat.le_refl t)), identifiers_succ hs]
    · rw [hstack, if_pos (getLast?_identifiers hs)]

namespace OnPage

theorem congr (h : OnPage tvc vc p) (htask : tvc'.task = tvc.task)
    (hstack : tvc'.managedStepIdentifiers = tvc.managedStepIdentifiers)
    (hcurrent : tvc'.currentStepViewController = some vc') (hstep : vc'.step = vc.step)
    (hparent : vc'.parentReviewStep = vc.parentReviewStep) (hrows : vc'.rows = vc.rows) :
    OnPage tvc' vc' p where
  current := hcurrent
  step := by rw [htask, hstep, h.step]
  parent := by rw [hparent, h.parent]
  rows := by rw [hrows, htask, hstep, h.rows]
  stack := by rw [hstack, htask, h.stack]

theorem setManagedResult (h : OnPage tvc vc p) (result : ORKStepResult) (key : String) :
    OnPage (tvc.setManagedResult result key) vc p :=
  h.congr rfl rfl h.current rfl rfl rfl

theorem updateCurrentResult (h : OnPage tvc vc p) : OnPage tvc.updateCurrentResult vc p :=
  h.congr (by simp) (by simp) (by simp [h.current]) rfl rfl rfl

theorem saveAnswer (h : OnPage tvc vc p) (answer : Answer) :
    OnPage (tvc.saveAnswer vc answer).2 (tvc.saveAnswer vc answer).1 p :=
  h.congr rfl rfl rfl rfl rfl rfl

theorem last (h : OnPage tvc vc p) :
    tvc.managedStepIdentifiers.getLast? = some vc.step.identifier := by
  rw [h.stack, getLast?_identifiers h.step]

theorem flipToNextPage_eq (h : OnPage tvc vc p) (hs : tvc.task.steps[p + 1]? = some s) :
    tvc.flipToNextPage vc =
      (tvc.updateCurrentResult.viewControllerForStep s).2.showViewController
        (tvc.updateCurrentResult.viewControllerForStep s).1 := by
  have hnext : tvc.task.stepAfterStep tvc.currentStep = some s := by
    simp [currentStep, h.current, ORKOrderedTask.stepAfterStep_eq h.step, hs]
  simp [ORKTaskViewController.flipToNextPage, h.parent, hnext,
    ORKStepViewController.isBeingReviewed]

theorem flipToNextPage (h : OnPage tvc vc p) (hs : tvc.task.steps[p + 1]? = some s) :
    ∃ vc', OnPage (tvc.flipToNextPage vc) vc' (p + 1) ∧
      (tvc.flipToNextPage vc).finished = tvc.finished := by
  have hu := h.updateCurrentResult
  have hs' : tvc.updateCurrentResult.task.steps[p + 1]? = some s := by simpa using hs
  have hrows := viewControllerForStep_rows [] hs'
    (by rw [hu.stack, List.append_nil]) (by simp)
  rw [h.flipToNextPage_eq hs]
  refine ⟨_, onPage_show ?_ ?_ ?_ ?_, by simp⟩
  · simpa using hs
  · simp
  · simpa using hrows
  · left
    simpa using h.stack

theorem flipToNextPage_last (h : OnPage tvc vc p) (hs : tvc.task.steps[p + 1]? = none) :
    tvc.flipToNextPage vc = tvc.updateCurrentResult.finishWithReason .completed := by
  have hnext : tvc.task.stepAfterStep tvc.currentStep = none := by
    simp [currentStep, h.current, ORKOrderedTask.stepAfterStep_eq h.step, hs]
  simp [ORKTaskViewController.flipToNextPage, h.parent, hnext]

theorem flipToPreviousPage_eq (h : OnPage tvc vc (p + 1)) (hs : tvc.task.steps[p]? = some s) :
    tvc.flipToPreviousPage vc =
      (tvc.updateCurrentResult.viewControllerForStep s).2.removeLastIdentifier.showViewController
        (tvc.updateCurrentResult.viewControllerForStep s).1 := by
  have hprevious : tvc.task.stepBeforeStep tvc.currentStep = some s := by
    simp [currentStep, h.current, ORKOrderedTask.stepBeforeStep_succ h.step, hs]
  simp [ORKTaskViewController.flipToPreviousPage, h.parent, hprevious]

theorem previous (h : OnPage tvc vc (p + 1)) : ∃ s, tvc.task.steps[p]? = some s := by
  have hlt : p + 1 < tvc.task.steps.length := (List.getElem?_eq_some_iff.mp h.step).1
  exact ⟨_, List.getElem?_eq_getElem (by omega)⟩

theorem flipToPreviousPage (h : OnPage tvc vc (p + 1)) :
    ∃ vc', OnPage (tvc.flipToPreviousPage vc) vc' p := by
  have hu := h.updateCurrentResult
  obtain ⟨s, hs⟩ := h.previous
  have hs' : tvc.updateCurrentResult.task.steps[p]? = some s := by simpa using hs
  have hrows := viewControllerForStep_rows [s.identifier, vc.step.identifier] hs'
    (by rw [hu.stack, identifiers_succ hu.step, identifiers_succ hs']; simp) (by simp)
  rw [h.flipToPreviousPage_eq hs]
  refine ⟨_, onPage_show ?_ ?_ ?_ ?_⟩
  · simpa using hs
  · simp
  · simpa using hrows
  · right
    simp [h.stack, dropLast_identifiers h.step]

theorem flipToPreviousPage_first (h : OnPage tvc vc 0) :
    tvc.flipToPreviousPage vc = tvc.updateCurrentResult := by
  have hprevious : tvc.task.stepBeforeStep tvc.currentStep = none := by
    simp [currentStep, h.current, ORKOrderedTask.stepBeforeStep_zero h.step]
  simp [ORKTaskViewController.flipToPreviousPage, h.parent, hprevious]

theorem mem_rows (h : OnPage tvc vc p) (hs : s ∈ vc.rows) : vc.step.stepClass = .reviewStep ∧
    (s.isQuestionStep || s.isInstructionStep) ∧ ∃ q < p, tvc.task.steps[q]? = some s := by
  rw [h.rows, rowsBefore] at hs
  split_ifs at hs with hreview
  · obtain ⟨htake, hclass⟩ := List.mem_filter.mp hs
    obtain ⟨q, hq, hqs⟩ := List.mem_take_iff_getElem.mp htake
    exact ⟨hreview, hclass, q, by omega, hqs ▸ List.getElem?_eq_getElem _⟩
  · cases hs

theorem willReviewStep_eq {row : ℕ} (hrow : vc.rows[row]? = some s) : tvc.willReviewStep vc row =
    (tvc.viewControllerForStep s).2.showViewController
      { (tvc.viewControllerForStep s).1 with parentReviewStep := some vc.step } := by
  simp [ORKTaskViewController.willReviewStep, hrow]

theorem willReviewStep (h : OnPage tvc vc p) {row : ℕ} (hrow : vc.rows[row]? = some s) :
    ∃ vc' q, OnRow (tvc.willReviewStep vc row) vc' q p := by
  obtain ⟨-, hclass, q, hq, hs⟩ := h.mem_rows (List.mem_of_getElem? hrow)
  have hnotReview : s.stepClass ≠ .reviewStep := by
    intro he
    simp [ORKStep.isQuestionStep, ORKStep.isInstructionStep, he] at hclass
  have hrows : (tvc.viewControllerForStep s).1.rows = [] := by
    unfold ORKTaskViewController.viewControllerForStep
    split
    · next he => exact absurd he hnotReview
    · rfl
  have hne : ¬ (identifiers tvc.task (p + 1)).getLast? = some s.identifier := by
    rw [getLast?_identifiers h.step, Option.some.injEq]
    intro he
    have := ORKOrderedTask.index_unique tvc.task h.step hs he
    omega
  have hreview : tvc.willReviewStep vc row = _ := willReviewStep_eq hrow
  have hr : OnRow (tvc.willReviewStep vc row)
      { (tvc.viewControllerForStep s).1 with parentReviewStep := some vc.step } q p :=
    { current := by simp [hreview]
      step := by simpa [hreview] using hs
      before := hq
      parent := ⟨vc.step, by simpa [hreview] using h.step, rfl⟩
      rows := hrows
      stack := by simp [hreview, showViewController_stack, h.stack, hne] }
  exact ⟨_, q, hr⟩

end OnPage

namespace OnRow

theorem congr (h : OnRow tvc vc p r) (htask : tvc'.task = tvc.task)
    (hstack : tvc'.managedStepIdentifiers = tvc.managedStepIdentifiers)
    (hcurrent : tvc'.currentStepViewController = some vc') (hstep : vc'.step = vc.step)
    (hparent : vc'.parentReviewStep = vc.parentReviewStep) (hrows : vc'.rows = vc.rows) :
    OnRow tvc' vc' p r where
  current := hcurrent
  step := by rw [htask, hstep, h.step]
  before := h.before
  parent := by rw [htask, hparent]; exact h.parent
  rows := by rw [hrows, h.rows]
  stack := by rw [hstack, htask, hstep, h.stack]

theorem setManagedResult (h : OnRow tvc vc p r) (result : ORKStepResult) (key : String) :
    OnRow (tvc.setManagedResult result key) vc p r :=
  h.congr rfl rfl h.current rfl rfl rfl

theorem saveAnswer (h : OnRow tvc vc p r) (answer : Answer) :
    OnRow (tvc.saveAnswer vc answer).2 (tvc.saveAnswer vc answer).1 p r :=
  h.congr rfl rfl rfl rfl rfl rfl

theorem last (h : OnRow tvc vc p r) :
    tvc.managedStepIdentifiers.getLast? = some vc.step.identifier := by
  rw [h.stack, List.getLast?_concat]

theorem isBeingReviewed (h : OnRow tvc vc p r) : vc.isBeingReviewed := by
  obtain ⟨_, -, hparent⟩ := h.parent
  simp [ORKStepViewController.isBeingReviewed, hparent]

theorem flipToPreviousPage_eq {reviewStep : ORKStep} (h : vc.parentReviewStep = some reviewStep) :
    tvc.flipToPreviousPage vc =
      (tvc.viewControllerForStep reviewStep).2.removeLastIdentifier.showViewController
        (tvc.viewControllerForStep reviewStep).1 := by
  simp [ORKTaskViewController.flipToPreviousPage, h]

theorem flipToPreviousPage (h : OnRow tvc vc p r) :
    ∃ vc', OnPage (tvc.flipToPreviousPage vc) vc' r := by
  obtain ⟨reviewStep, hs, hparent⟩ := h.parent
  have hrows := viewControllerForStep_rows [reviewStep.identifier, vc.step.identifier] hs
    (by rw [h.stack, identifiers_succ hs]; simp) (by simp)
  rw [flipToPreviousPage_eq hparent]
  refine ⟨_, onPage_show ?_ ?_ ?_ ?_⟩
  · simpa using hs
  · simp
  · simpa using hrows
  · right
    simp [h.stack]

end OnRow

/-- On a page or at a row, and completed on the last page only. -/
inductive Located (tvc : ORKTaskViewController) : Prop
  | page (vc : ORKStepViewController) (p : ℕ) (h : OnPage tvc vc p)
    (last : tvc.finished = some .completed → p + 1 = tvc.task.steps.length)
  | row (vc : ORKStepViewController) (p r : ℕ) (h : OnRow tvc vc p r)
    (last : tvc.finished ≠ some .completed)

namespace OnPage

theorem located (h : OnPage tvc vc p) (hopen : tvc.finished = none) : Located tvc :=
  .page vc p h fun hc ↦ absurd (hopen.symm.trans hc) (by simp)

theorem isBeingReviewed (h : OnPage tvc vc p) : vc.isBeingReviewed = false := by
  simp [ORKStepViewController.isBeingReviewed, h.parent]

theorem goForward_eq (h : OnPage tvc vc p) : tvc.goForward vc = if vc.shouldContinue then
    (tvc.setManagedResult vc.result vc.step.identifier).flipToNextPage vc else tvc := by
  simp [ORKTaskViewController.goForward, h.isBeingReviewed]

theorem goBackward_eq (h : OnPage tvc vc p) : tvc.goBackward vc =
    (tvc.setManagedResult vc.result vc.step.identifier).flipToPreviousPage vc := by
  simp [goBackward, h.isBeingReviewed]

theorem goForward (h : OnPage tvc vc p) (hopen : tvc.finished = none) :
    Located (tvc.goForward vc) := by
  have hset := h.setManagedResult vc.result vc.step.identifier
  rw [h.goForward_eq]
  split_ifs
  · cases hs : tvc.task.steps[p + 1]? with
    | some s =>
      obtain ⟨vc', hpage, hfinished⟩ := hset.flipToNextPage hs
      exact hpage.located (hfinished.trans hopen)
    | none =>
      rw [hset.flipToNextPage_last hs]
      have hu := hset.updateCurrentResult
      refine .page vc p (hu.congr rfl rfl hu.current rfl rfl rfl) fun _ ↦ ?_
      have hlt := (List.getElem?_eq_some_iff.mp h.step).1
      have hle := List.getElem?_eq_none_iff.mp hs
      simp only [finishWithReason, updateCurrentResult_task, setManagedResult_task]
      omega
  · exact h.located hopen

theorem handle (h : OnPage tvc vc p) (hopen : tvc.finished = none) (event : Event) :
    Located (tvc.handle event) := by
  have hsame := h.located hopen
  simp only [ORKTaskViewController.handle, hopen, h.current]
  cases event with
  | edit text =>
    dsimp only
    unfold ORKTaskViewController.edit
    split
    · split_ifs
      · exact (h.saveAnswer _).located hopen
      · exact hsame
    · exact hsame
  | next =>
    dsimp only
    split_ifs
    · exact h.goForward hopen
    · exact hsame
  | skip =>
    dsimp only
    split_ifs
    · exact (h.saveAnswer .null).goForward hopen
    · exact hsame
  | back =>
    have hset := h.setManagedResult vc.result vc.step.identifier
    dsimp only
    rw [h.goBackward_eq]
    cases p with
    | zero =>
      rw [hset.flipToPreviousPage_first]
      exact hset.updateCurrentResult.located (by simpa using hopen)
    | succ p =>
      obtain ⟨vc', hpage⟩ := hset.flipToPreviousPage
      exact hpage.located (by simpa using hopen)
  | selectRow row =>
    cases hrow : vc.rows[row]? with
    | none => simpa [ORKTaskViewController.willReviewStep, hrow] using hsame
    | some s =>
      obtain ⟨vc', q, hr⟩ := h.willReviewStep hrow
      exact .row vc' q p hr (by simp [hopen])
  | abandon reason =>
    dsimp only
    split_ifs with hr
    · exact hsame
    · refine .page vc p (h.congr rfl rfl h.current rfl rfl rfl) fun hc ↦ ?_
      exact absurd (Option.some.inj hc) hr

end OnPage

namespace OnRow

theorem located (h : OnRow tvc vc p r) (hopen : tvc.finished = none) : Located tvc :=
  .row vc p r h (by simp [hopen])

theorem leave (h : OnRow tvc vc p r) (hopen : tvc.finished = none) :
    Located ((tvc.setManagedResult vc.result vc.step.identifier).flipToPreviousPage vc) := by
  obtain ⟨vc', hpage⟩ := (h.setManagedResult _ _).flipToPreviousPage
  exact hpage.located (by simpa using hopen)

theorem goForward_eq (h : OnRow tvc vc p r) : tvc.goForward vc = if vc.shouldContinue then
    (tvc.setManagedResult vc.result vc.step.identifier).flipToPreviousPage vc else tvc := by
  simp [ORKTaskViewController.goForward, h.isBeingReviewed]

theorem goForward (h : OnRow tvc vc p r) (hopen : tvc.finished = none) :
    Located (tvc.goForward vc) := by
  rw [h.goForward_eq]
  split_ifs
  · exact h.leave hopen
  · exact h.located hopen

theorem goBackward (h : OnRow tvc vc p r) (hopen : tvc.finished = none) :
    Located (tvc.goBackward vc) := by
  unfold ORKTaskViewController.goBackward
  split_ifs
  · exact (h.saveAnswer _).leave hopen
  · exact h.leave hopen

theorem handle (h : OnRow tvc vc p r) (hopen : tvc.finished = none) (event : Event) :
    Located (tvc.handle event) := by
  have hsame := h.located hopen
  simp only [ORKTaskViewController.handle, hopen, h.current]
  cases event with
  | edit text =>
    dsimp only
    unfold ORKTaskViewController.edit
    split
    · split_ifs
      · exact (h.saveAnswer _).located hopen
      · exact hsame
    · exact hsame
  | next =>
    dsimp only
    split_ifs
    · exact h.goForward hopen
    · exact hsame
  | skip =>
    dsimp only
    split_ifs
    · exact (h.saveAnswer .null).goForward hopen
    · exact hsame
  | back => exact h.goBackward hopen
  | selectRow row => simpa [ORKTaskViewController.willReviewStep, h.rows] using hsame
  | abandon reason =>
    dsimp only
    split_ifs with hr
    · exact hsame
    · refine .row vc p r (h.congr rfl rfl h.current rfl rfl rfl) fun hc ↦ ?_
      exact absurd (Option.some.inj hc) hr

end OnRow

@[simp] theorem flipToNextPage_task (tvc : ORKTaskViewController) (vc : ORKStepViewController) :
    (tvc.flipToNextPage vc).task = tvc.task := by
  unfold flipToNextPage
  cases vc.parentReviewStep with
  | some step =>
    dsimp only
    split_ifs <;> simp
  | none =>
    dsimp only
    split
    · simp [finishWithReason]
    · split_ifs <;> simp

@[simp] theorem flipToPreviousPage_task (tvc : ORKTaskViewController) (vc : ORKStepViewController) :
    (tvc.flipToPreviousPage vc).task = tvc.task := by
  unfold flipToPreviousPage
  cases vc.parentReviewStep with
  | some step => simp
  | none =>
    dsimp only
    split <;> simp

@[simp] theorem saveAnswer_task (tvc : ORKTaskViewController) (vc : ORKStepViewController)
    (answer : Answer) : (tvc.saveAnswer vc answer).2.task = tvc.task := rfl

@[simp] theorem goForward_task (tvc : ORKTaskViewController) (vc : ORKStepViewController) :
    (tvc.goForward vc).task = tvc.task := by
  unfold goForward
  split_ifs <;> simp

theorem handle_task (tvc : ORKTaskViewController) (event : Event) :
    (tvc.handle event).task = tvc.task := by
  unfold handle
  split
  · cases event with
    | edit text =>
      dsimp only
      unfold edit
      split
      · split_ifs <;> simp
      · rfl
    | next => dsimp only; split_ifs <;> simp
    | skip => dsimp only [skip]; split_ifs <;> simp
    | back => dsimp only [goBackward]; split_ifs <;> simp
    | selectRow row =>
      dsimp only
      unfold willReviewStep
      split <;> simp
    | abandon reason => dsimp only; split_ifs <;> simp [finishWithReason]
  · rfl

theorem present_task (task : ORKOrderedTask) : (present task).task = task := by
  unfold present
  dsimp only
  split <;> simp

theorem run_task (task : ORKOrderedTask) (events : List Event) : (run task events).task = task :=
  Execution.invariant (I := fun tvc : ORKTaskViewController ↦ tvc.task = task)
    (fun _ event h ↦ (handle_task _ event).trans h)
    (present_task task) events

theorem handle_finished {reason : ORKTaskViewControllerFinishReason}
    (h : tvc.finished = some reason) (event : Event) : tvc.handle event = tvc := by
  simp [handle, h]

theorem Located.handle (h : Located tvc) (event : Event) : Located (tvc.handle event) := by
  cases hopen : tvc.finished with
  | some reason => rwa [handle_finished hopen]
  | none =>
    cases h with
    | page vc p h => exact h.handle hopen event
    | row vc p r h => exact h.handle hopen event

theorem present_onPage {task : ORKOrderedTask} (hs : task.steps[0]? = some s) :
    ∃ vc, OnPage (present task) vc 0 ∧ (present task).finished = none := by
  let tvc : ORKTaskViewController := { task := task }
  have hstep : tvc.task.steps[0]? = some s := hs
  have hpresent : present task =
      (tvc.viewControllerForStep s).2.showViewController (tvc.viewControllerForStep s).1 := by
    simp [present, tvc, ORKOrderedTask.stepAfterStep, hs]
  have hrows := viewControllerForStep_rows [] hstep rfl (by simp)
  rw [hpresent]
  refine ⟨_, onPage_show ?_ ?_ ?_ ?_, by simp [tvc]⟩
  · simpa using hs
  · simp
  · simpa using hrows
  · left
    simp [identifiers, tvc]

theorem located_run {task : ORKOrderedTask} (hne : task.steps ≠ []) (events : List Event) :
    Located (run task events) := by
  refine Execution.invariant (I := Located) (fun _ event h ↦ h.handle event) ?_ events
  obtain ⟨vc, h, hopen⟩ := present_onPage (List.getElem?_eq_getElem (List.length_pos_iff.mpr hne))
  exact h.located hopen

theorem run_nil {task : ORKOrderedTask} (h : task.steps = []) (events : List Event) :
    run task events = { task := task } := by
  have hpresent : present task = { task := task } := by
    simp [present, ORKOrderedTask.stepAfterStep, h]
  refine Execution.invariant (I := (· = ({ task := task } : ORKTaskViewController))) ?_ hpresent events
  rintro _ event rfl
  simp [handle]

def reviewedTask : ORKOrderedTask where
  identifier := "Rent"
  steps := [⟨.questionStep ⟨100, false⟩, "Rent?", none, none⟩, ⟨.reviewStep, "review", none, none⟩]
  unique := by decide

/-- The stack holds the steps up to the current one, or up to the review and
then the step opened from it; so the identifier that is removed on the way back
is always that of the current step. A task is completed on its last step only. -/
theorem stack_run (task : ORKOrderedTask) (events : List Event) {vc : ORKStepViewController}
    (h : (run task events).currentStepViewController = some vc) :
    (run task events).managedStepIdentifiers.getLast? = some vc.step.identifier ∧
    ∃ p, task.steps[p]? = some (vc.parentReviewStep.getD vc.step) ∧
      (run task events).managedStepIdentifiers =
        identifiers task (p + 1) ++ (if vc.isBeingReviewed then [vc.step.identifier] else []) ∧
      (vc.isBeingReviewed → ∃ q < p, task.steps[q]? = some vc.step) ∧
      ((run task events).finished = some .completed →
        ¬ vc.isBeingReviewed ∧ p + 1 = task.steps.length) := by
  have hne : task.steps ≠ [] := by
    intro hnil
    simp [run_nil hnil] at h
  have htask := run_task task events
  cases located_run hne events with
  | page vc' p hpage hlast =>
    obtain rfl := Option.some.inj (hpage.current.symm.trans h)
    have hstep := hpage.step
    have hstack := hpage.stack
    rw [htask] at hstep hstack hlast
    refine ⟨hpage.last, p, ?_, ?_, ?_, fun hc ↦ ⟨?_, hlast hc⟩⟩
    · rw [hpage.parent, Option.getD_none, hstep]
    · simp [hstack, hpage.isBeingReviewed]
    · simp [hpage.isBeingReviewed]
    · simp [hpage.isBeingReviewed]
  | row vc' q r hrow hlast =>
    obtain rfl := Option.some.inj (hrow.current.symm.trans h)
    obtain ⟨reviewStep, hreview, hparent⟩ := hrow.parent
    have hstep := hrow.step
    have hstack := hrow.stack
    rw [htask] at hstep hstack hreview
    refine ⟨hrow.last, r, ?_, ?_, fun _ ↦ ⟨q, hrow.before, hstep⟩, fun hc ↦ absurd hc hlast⟩
    · rw [hparent, Option.getD_some, hreview]
    · simp [hstack, hrow.isBeingReviewed]

theorem stack_run_opened : ∃ vc,
    (run reviewedTask [.skip, .selectRow 0]).currentStepViewController = some vc ∧
      (run reviewedTask [.skip, .selectRow 0]).managedStepIdentifiers.getLast? =
        some vc.step.identifier :=
  ⟨_, rfl, (stack_run reviewedTask [.skip, .selectRow 0] rfl).1⟩

theorem shouldContinue_of_isEmpty (h : vc.step.isQuestionStep → vc.answer.isEmpty) :
    vc.shouldContinue := by
  unfold ORKStepViewController.shouldContinue
  split
  · next hclass =>
    have he := h (ORKStep.isQuestionStep_iff.mpr ⟨_, hclass⟩)
    cases ha : vc.answer with
    | text s => simp [ha, Answer.isEmpty] at he
    | unset | null => simp [Answer.textAnswer, ORKTextAnswerFormat.isTextLengthValid, utf16Length]
  · rfl

theorem OnPage.advances (h : OnPage tvc vc p) (hopen : tvc.finished = none) :
    ∃ event, (tvc.handle event).finished = some .completed ∨
      ((tvc.handle event).finished = none ∧ ∃ vc', OnPage (tvc.handle event) vc' (p + 1)) := by
  -- a question is skipped, any other page continues
  obtain ⟨event, tvc', vc', hpage, hopen', hcontinue, hhandle⟩ : ∃ event tvc' vc',
      OnPage tvc' vc' p ∧ tvc'.finished = none ∧ vc'.shouldContinue ∧
        tvc.handle event = tvc'.goForward vc' := by
    by_cases hq : vc.step.isQuestionStep
    · refine ⟨.skip, _, _, h.saveAnswer .null, hopen, shouldContinue_of_isEmpty fun _ ↦ rfl, ?_⟩
      simp [ORKTaskViewController.handle, hopen, h.current, skip,
        ORKStepViewController.skipButtonEnabled, hq, h.isBeingReviewed]
    · refine ⟨.next, tvc, vc, h, hopen, shouldContinue_of_isEmpty fun hq' ↦ absurd hq' hq, ?_⟩
      simp [ORKTaskViewController.handle, hopen, h.current,
        ORKStepViewController.continueButtonEnabled, hq]
  have hset := hpage.setManagedResult vc'.result vc'.step.identifier
  refine ⟨event, ?_⟩
  rw [hhandle, hpage.goForward_eq, if_pos hcontinue]
  cases hs : tvc'.task.steps[p + 1]? with
  | none =>
    left
    rw [hset.flipToNextPage_last hs]
    rfl
  | some s =>
    obtain ⟨vc'', hnext, hfinished⟩ := hset.flipToNextPage hs
    exact .inr ⟨hfinished.trans hopen', vc'', hnext⟩

theorem OnRow.returns (h : OnRow tvc vc p r) (hopen : tvc.finished = none) :
    (tvc.handle .back).finished = none ∧ ∃ vc', OnPage (tvc.handle .back) vc' r := by
  simp only [ORKTaskViewController.handle, hopen, h.current, ORKTaskViewController.goBackward]
  split_ifs
  · exact ⟨by simpa using hopen,
      ((h.saveAnswer vc.originalAnswer).setManagedResult _ _).flipToPreviousPage⟩
  · exact ⟨by simpa using hopen, (h.setManagedResult _ _).flipToPreviousPage⟩

/-- Completion is at most so many events away. -/
def Remaining (task : ORKOrderedTask) (n : ℕ) (tvc : ORKTaskViewController) : Prop :=
  tvc.finished = some .completed ∨ tvc.finished = none ∧ tvc.task = task ∧
    ((∃ vc p, OnPage tvc vc p ∧ n + p = task.steps.length) ∨
      ∃ vc p r, OnRow tvc vc p r ∧ n + r = task.steps.length + 1)

theorem Remaining.descends {task : ORKOrderedTask} {n : ℕ} (h : Remaining task n tvc) :
    tvc.finished = some .completed ∨ ∃ event, ∃ m < n, Remaining task m (tvc.handle event) := by
  obtain hdone | ⟨hopen, rfl, hplace⟩ := h
  · exact .inl hdone
  right
  obtain ⟨vc, p, hpage, hn⟩ | ⟨vc, p, r, hrow, hn⟩ := hplace
  · have hlt := (List.getElem?_eq_some_iff.mp hpage.step).1
    obtain ⟨event, hdone | ⟨hopen', vc', hpage'⟩⟩ := hpage.advances hopen
    · exact ⟨event, 0, by omega, .inl hdone⟩
    · exact ⟨event, n - 1, by omega, .inr ⟨hopen', handle_task tvc event,
        .inl ⟨vc', p + 1, hpage', by omega⟩⟩⟩
  · obtain ⟨reviewStep, hs, -⟩ := hrow.parent
    have hlt := (List.getElem?_eq_some_iff.mp hs).1
    obtain ⟨hopen', vc', hpage'⟩ := hrow.returns hopen
    exact ⟨.back, n - 1, by omega, .inr ⟨hopen', handle_task tvc .back,
      .inl ⟨vc', r, hpage', by omega⟩⟩⟩

/-- Wherever the user has got to in a task that is still open, it can be
completed, with no more taps than it has steps. -/
theorem completion_reachable {task : ORKOrderedTask} (hne : task.steps ≠ []) {events : List Event}
    (hopen : (run task events).finished = none) :
    ∃ more, more.length ≤ task.steps.length ∧
      (run task (events ++ more)).finished = some .completed := by
  have hplace : ∃ n ≤ task.steps.length, Remaining task n (run task events) := by
    have htask := run_task task events
    cases located_run hne events with
    | page vc p hpage =>
      have hlt := (List.getElem?_eq_some_iff.mp hpage.step).1
      rw [htask] at hlt
      exact ⟨task.steps.length - p, by omega, .inr ⟨hopen, htask, .inl ⟨vc, p, hpage, by omega⟩⟩⟩
    | row vc p r hrow =>
      obtain ⟨reviewStep, hs, -⟩ := hrow.parent
      have hlt := (List.getElem?_eq_some_iff.mp hs).1
      have hbefore := hrow.before
      rw [htask] at hlt
      exact ⟨task.steps.length + 1 - r, by omega,
        .inr ⟨hopen, htask, .inr ⟨vc, p, r, hrow, by omega⟩⟩⟩
  obtain ⟨n, hn, hremaining⟩ := hplace
  obtain ⟨more, hlength, hdone⟩ := Execution.exists_run_of_rank (I := Remaining task)
    (fun _ _ h ↦ h.descends) hremaining
  refine ⟨more, by omega, ?_⟩
  rw [run, List.foldl_append]
  exact hdone

theorem completion_reachable_opened : ∃ more, more.length ≤ reviewedTask.steps.length ∧
    (run reviewedTask ([.skip, .selectRow 0] ++ more)).finished = some .completed :=
  completion_reachable (by decide) rfl

end Croesus.ResearchKit.ORKTaskViewController
