import Croesus.FirstViewController.Table

namespace Croesus.FirstViewController

open ResearchKit ORKTaskViewController

variable (surveyOne : List Questions)

def firstIdentifiers (m : ℕ) : List String :=
  ((surveySteps surveyOne).take m).map ORKStep.identifier

/-- The controller shows page `c`, with the identifiers of the open pages on
the stack and the results of the first `d` pages on file. -/
structure Shown (tvc : ORKTaskViewController) (stack : List String) (vc : ORKStepViewController)
    (c : ℕ) (answers paged : ℕ → Answer) (d : ℕ) : Prop where
  distinct : Distinct surveyOne
  steps : tvc.task.steps = surveySteps surveyOne
  stack : tvc.managedStepIdentifiers = stack
  current : tvc.currentStepViewController = some vc
  table : Table surveyOne tvc.managedResults answers paged d
  step : (surveySteps surveyOne)[c]? = some vc.step
  answer : vc.step.isQuestionStep → vc.answer = answers c
  rows : vc.rows = if c = surveyOne.length + 1 then (surveySteps surveyOne).take c else []

/-- The result of page `c` can be filed while the identifiers are on the stack
without disturbing the others. -/
def Refiles (stack : List String) (c : ℕ) (s : ORKStep) (answers paged : ℕ → Answer) : Prop :=
  Clear surveyOne c (managedIndex stack s.identifier) ∧
    (managedIndex stack s.identifier = c → paged c = answers c)

variable {surveyOne}

theorem firstIdentifiers_length (surveyOne : List Questions) {m : ℕ} (h : m ≤ surveyOne.length + 3) :
    (firstIdentifiers surveyOne m).length = m := by
  simp [firstIdentifiers, surveySteps_length, h]

theorem firstIdentifiers_succ {p : ℕ} {s : ORKStep} (hs : (surveySteps surveyOne)[p]? = some s) :
    firstIdentifiers surveyOne (p + 1) = firstIdentifiers surveyOne p ++ [s.identifier] := by
  simp [firstIdentifiers, List.take_add_one, hs]

theorem lt_of_step {p : ℕ} {s : ORKStep} (hs : (surveySteps surveyOne)[p]? = some s) :
    p < surveyOne.length + 3 := by
  rw [← surveySteps_length]
  exact (List.getElem?_eq_some_iff.mp hs).1

theorem step_exists (surveyOne : List Questions) {p : ℕ} (h : p < surveyOne.length + 3) :
    ∃ s, (surveySteps surveyOne)[p]? = some s := by
  rw [← surveySteps_length] at h
  exact ⟨_, List.getElem?_eq_getElem h⟩

theorem identifier_inj (hd : Distinct surveyOne) {p p' : ℕ} {s s' : ORKStep}
    (hs : (surveySteps surveyOne)[p]? = some s) (hs' : (surveySteps surveyOne)[p']? = some s')
    (h : s.identifier = s'.identifier) : p = p' :=
  (surveyTask surveyOne hd).index_unique hs hs' h

theorem pageResult_congr {s : ORKStep} {a b : Answer} (h : s.isQuestionStep → a = b) :
    pageResult s a = pageResult s b := by
  cases hq : s.isQuestionStep with
  | true => rw [h hq]
  | false => simp [pageResult, hq]

namespace Shown

variable {tvc : ORKTaskViewController} {stack : List String} {vc : ORKStepViewController}
  {c d t : ℕ} {answers paged : ℕ → Answer} {s : ORKStep}

theorem result_eq (h : Shown surveyOne tvc stack vc c answers paged d) :
    vc.result = pageResult vc.step (answers c) := pageResult_congr h.answer

theorem refile (h : Shown surveyOne tvc stack vc c answers paged d)
    (hclear : Clear surveyOne c (managedIndex stack vc.step.identifier)) :
    Shown surveyOne tvc.updateCurrentResult stack vc c answers
      (if managedIndex stack vc.step.identifier = c then Function.update paged c (answers c)
        else paged) d where
  distinct := h.distinct
  steps := by simpa using h.steps
  stack := by simpa using h.stack
  current := by simpa using h.current
  table := by
    rw [updateCurrentResult_eq h.current, setManagedResult_eq, h.stack, h.result_eq]
    have hf := h.table.file h.distinct h.step hclear (answers c)
    rwa [Function.update_eq_self] at hf
  step := h.step
  answer := h.answer
  rows := h.rows

theorem refile_last (h : Shown surveyOne tvc stack vc c answers paged d) :
    tvc.updateCurrentResult.managedResults
      (uniqueManagedKey vc.step.identifier (managedIndex stack vc.step.identifier)) =
      some (pageResult vc.step (answers c)) := by
  rw [updateCurrentResult_eq h.current, setManagedResult_eq, h.stack, h.result_eq]
  exact Function.update_self ..

theorem updateCurrentResult (h : Shown surveyOne tvc stack vc c answers paged d)
    (hr : Refiles surveyOne stack c vc.step answers paged) :
    Shown surveyOne tvc.updateCurrentResult stack vc c answers paged d := by
  have hf := h.refile hr.1
  have hpaged : (if managedIndex stack vc.step.identifier = c then
      Function.update paged c (answers c) else paged) = paged := by
    split_ifs with hk
    · rw [← hr.2 hk, Function.update_eq_self]
    · rfl
  rwa [hpaged] at hf

theorem setManagedResult (h : Shown surveyOne tvc stack vc c answers paged d)
    (hr : Refiles surveyOne stack c vc.step answers paged) :
    Shown surveyOne (tvc.setManagedResult vc.result vc.step.identifier) stack vc c answers paged d := by
  rw [← updateCurrentResult_eq h.current]
  exact h.updateCurrentResult hr

theorem file (h : Shown surveyOne tvc stack vc c answers paged d)
    (hs : (surveySteps surveyOne)[t]? = some s) (hlast : stack.getLast? ≠ some s.identifier)
    (hclear : Clear surveyOne t stack.length) {a : Answer}
    (ha : s.isQuestionStep → a = answers t) :
    Shown surveyOne (tvc.setManagedResult (pageResult s a) s.identifier) stack vc c answers
      (if stack.length = t then Function.update paged t (answers t) else paged) d where
  distinct := h.distinct
  steps := h.steps
  stack := h.stack
  current := h.current
  table := by
    rw [setManagedResult_eq, h.stack, managedIndex_other hlast, pageResult_congr ha]
    have hf := h.table.file h.distinct hs hclear (answers t)
    rwa [Function.update_eq_self] at hf
  step := h.step
  answer := h.answer
  rows := h.rows

theorem saveAnswer (h : Shown surveyOne tvc stack vc c answers paged d)
    (hclear : Clear surveyOne c (managedIndex stack vc.step.identifier)) (a : Answer) :
    Shown surveyOne (tvc.saveAnswer vc a).2 stack (tvc.saveAnswer vc a).1 c
      (Function.update answers c a)
      (if managedIndex stack vc.step.identifier = c then Function.update paged c a else paged) d where
  distinct := h.distinct
  steps := h.steps
  stack := h.stack
  current := rfl
  table := by
    have hf := h.table.file h.distinct h.step hclear a
    rw [← h.stack] at hf ⊢
    exact hf
  step := h.step
  answer := by simp [ORKTaskViewController.saveAnswer]
  rows := h.rows

theorem removeLastIdentifier (h : Shown surveyOne tvc stack vc c answers paged d) :
    Shown surveyOne tvc.removeLastIdentifier stack.dropLast vc c answers paged d :=
  { h with stack := by simp [ORKTaskViewController.removeLastIdentifier, h.stack] }

theorem shrink (h : Shown surveyOne tvc stack vc c answers paged (d + 1)) :
    Shown surveyOne tvc stack vc c answers paged d :=
  { h with table := h.table.shrink }

theorem collect_eq {rs : ORKStep} (steps : List ORKStep) (rest : List String)
    (h : ∀ s ∈ steps, tvc.task.stepWithIdentifier s.identifier = some s ∧
      s.identifier ≠ rs.identifier) :
    stepsForReviewStep.collect tvc rs (steps.map ORKStep.identifier ++ rest) =
      steps ++ stepsForReviewStep.collect tvc rs rest := by
  induction steps with
  | nil => rfl
  | cons s steps ih =>
    obtain ⟨hfind, hne⟩ := h s (by simp)
    simp only [List.map_cons, List.cons_append, stepsForReviewStep.collect, hfind, if_neg hne]
    rw [ih fun s' hs' ↦ h s' (by simp [hs'])]

theorem review_getElem? (surveyOne : List Questions) :
    (surveySteps surveyOne)[surveyOne.length + 1]? = some reviewStep := by
  simp [surveySteps]

/-- The steps collected for the review are those before it, whatever follows on the stack. -/
theorem stepsForReviewStep_eq (h : Shown surveyOne tvc stack vc c answers paged d)
    {rest : List String} (hstack : stack = firstIdentifiers surveyOne (surveyOne.length + 1) ++ rest)
    (hrest : rest = [] ∨ ∃ tail, rest = reviewStep.identifier :: tail) :
    tvc.stepsForReviewStep reviewStep = (surveySteps surveyOne).take (surveyOne.length + 1) := by
  have hfind {p : ℕ} {s : ORKStep} (hs : (surveySteps surveyOne)[p]? = some s) :
      tvc.task.stepWithIdentifier s.identifier = some s :=
    ORKOrderedTask.stepWithIdentifier_eq (p := p) (by rw [h.steps, hs])
  have hend : stepsForReviewStep.collect tvc reviewStep rest = [] := by
    rcases hrest with rfl | ⟨tail, rfl⟩
    · rfl
    · simp [stepsForReviewStep.collect, hfind (review_getElem? surveyOne)]
  rw [stepsForReviewStep, h.stack, hstack, firstIdentifiers, collect_eq _ _ ?_, hend,
    List.append_nil]
  intro s hs
  obtain ⟨p, hp, hps⟩ := List.mem_take_iff_getElem.mp hs
  have hs' : (surveySteps surveyOne)[p]? = some s := by
    rw [← hps]
    exact List.getElem?_eq_getElem _
  refine ⟨hfind hs', fun he ↦ ?_⟩
  have := identifier_inj h.distinct hs' (review_getElem? surveyOne) he
  omega

theorem rows_eq :
    ((surveySteps surveyOne).take (surveyOne.length + 1)).filter
      (fun s ↦ s.isQuestionStep || s.isInstructionStep) =
      (surveySteps surveyOne).take (surveyOne.length + 1) := by
  apply List.filter_eq_self.mpr
  intro s hs
  obtain ⟨p, hp, hps⟩ := List.mem_take_iff_getElem.mp hs
  have hs' : (surveySteps surveyOne)[p]? = some s := by
    rw [← hps]
    exact List.getElem?_eq_getElem _
  rcases surveySteps_cases hs' with ⟨-, rfl⟩ | ⟨q, -, -, -, rfl⟩ | ⟨rfl, -⟩ | ⟨rfl, -⟩
  · rfl
  · rfl
  · omega
  · omega

structure Fresh (surveyOne : List Questions) (vc : ORKStepViewController) (t : ℕ) (s : ORKStep)
    (answers : ℕ → Answer) : Prop where
  step : vc.step = s
  parent : vc.parentReviewStep = none
  answer : s.isQuestionStep → vc.answer = answers t
  original : s.isQuestionStep → vc.originalAnswer = answers t
  rows : vc.rows = if t = surveyOne.length + 1 then (surveySteps surveyOne).take t else []

theorem viewControllerForStep (h : Shown surveyOne tvc stack vc c answers paged d)
    (hr : Refiles surveyOne stack c vc.step answers paged)
    (hs : (surveySteps surveyOne)[t]? = some s) (hlast : stack.getLast? ≠ some s.identifier)
    (hclear : Clear surveyOne t stack.length)
    (hreview : t = surveyOne.length + 1 → ∃ rest,
      stack = firstIdentifiers surveyOne (surveyOne.length + 1) ++ rest ∧
        (rest = [] ∨ ∃ tail, rest = reviewStep.identifier :: tail)) :
    Fresh surveyOne (tvc.viewControllerForStep s).1 t s answers ∧
      Shown surveyOne (tvc.viewControllerForStep s).2 stack vc c answers
        (if stack.length = t then Function.update paged t (answers t) else paged) d := by
  by_cases ht : t = surveyOne.length + 1
  · obtain ⟨rest, hstack, hrest⟩ := hreview ht
    obtain rfl : s = reviewStep := by
      rw [ht, review_getElem? surveyOne] at hs
      exact (Option.some.inj hs).symm
    have hrows := h.stepsForReviewStep_eq hstack hrest
    have hq : ¬ reviewStep.isQuestionStep := by decide
    constructor
    · refine ⟨rfl, rfl, fun hq' ↦ absurd hq' hq, fun hq' ↦ absurd hq' hq, ?_⟩
      rw [if_pos ht, ht, ← rows_eq, ← hrows]
      rfl
    · exact (h.updateCurrentResult hr).file hs hlast hclear fun hq' ↦ absurd hq' hq
  · have hview : tvc.viewControllerForStep s =
        (.initWithStep s ((tvc.managedResults s.identifier).getD ⟨s.identifier, []⟩),
          tvc.setManagedResult (ORKStepViewController.initWithStep s
            ((tvc.managedResults s.identifier).getD ⟨s.identifier, []⟩)).result s.identifier) := by
      rcases surveySteps_cases hs with ⟨-, rfl⟩ | ⟨q, -, -, -, rfl⟩ | ⟨rfl, -⟩ | ⟨-, rfl⟩
      · rfl
      · rfl
      · exact absurd rfl ht
      · rfl
    have hrestore (hq : s.isQuestionStep) := h.table.plain t s hs hq
    have ha : s.isQuestionStep → (ORKStepViewController.initWithStep s
        ((tvc.managedResults s.identifier).getD ⟨s.identifier, []⟩)).answer = answers t := by
      intro hq
      simp [ORKStepViewController.initWithStep, hq, hrestore hq]
    rw [hview]
    constructor
    · refine ⟨rfl, rfl, ha, ha, ?_⟩
      rw [if_neg ht]
      rfl
    · exact h.file hs hlast hclear ha

theorem showViewController (h : Shown surveyOne tvc stack vc c answers paged d)
    (hr : Refiles surveyOne stack c vc.step answers paged)
    (vc' : ORKStepViewController) (stack' : List String)
    (hs : (surveySteps surveyOne)[t]? = some vc'.step)
    (ha : vc'.step.isQuestionStep → vc'.answer = answers t)
    (hrows : vc'.rows = if t = surveyOne.length + 1 then (surveySteps surveyOne).take t else [])
    (hstack : stack' = if stack.getLast? = some vc'.step.identifier then stack
      else stack ++ [vc'.step.identifier])
    (hclear : Clear surveyOne t (managedIndex stack' vc'.step.identifier)) :
    Shown surveyOne (tvc.showViewController vc') stack' vc' t answers
      (if managedIndex stack' vc'.step.identifier = t then Function.update paged t (answers t)
        else paged) d ∧
    (tvc.showViewController vc').managedResults
      (uniqueManagedKey vc'.step.identifier (managedIndex stack' vc'.step.identifier)) =
      some (pageResult vc'.step (answers t)) := by
  have hu := h.updateCurrentResult hr
  have hn : Shown surveyOne
      { tvc.updateCurrentResult with
        managedStepIdentifiers := stack'
        currentStepViewController := some vc' } stack' vc' t answers paged d :=
    { hu with
      stack := rfl, current := rfl, table := hu.table, step := hs, answer := ha, rows := hrows }
  have he : tvc.showViewController vc' = ORKTaskViewController.updateCurrentResult
      { tvc.updateCurrentResult with
        managedStepIdentifiers := stack'
        currentStepViewController := some vc' } := by
    simp only [ORKTaskViewController.showViewController, hu.stack, hstack]
  rw [he]
  exact ⟨hn.refile hclear, hn.refile_last⟩

end Shown

end Croesus.FirstViewController
