import Croesus.FirstViewController.Form
import Croesus.ResearchKit.ManagedResults

namespace Croesus.FirstViewController

open ResearchKit ORKTaskViewController Library

def pageResult (s : ORKStep) (a : Answer) : ORKStepResult where
  identifier := s.identifier
  results := if s.isQuestionStep then a.results s.identifier else []

variable {surveyOne : List Questions}

theorem isQuestion_iff {p : ℕ} {s : ORKStep} (h : (surveySteps surveyOne)[p]? = some s) :
    s.isQuestionStep ↔ Form.IsQuestion surveyOne.length p := by
  rcases surveySteps_cases h with ⟨rfl, rfl⟩ | ⟨q, h1, hn, -, rfl⟩ | ⟨rfl, rfl⟩ | ⟨rfl, rfl⟩ <;>
    simp [ORKStep.isQuestionStep, Form.IsQuestion, introStep, questionStep, reviewStep,
      summaryStep, *]

theorem identifier_cases {p : ℕ} {s : ORKStep} (h : (surveySteps surveyOne)[p]? = some s) :
    (∃ q ∈ surveyOne, s.identifier = q.Question) ∨
      s.isQuestionStep = false ∧ ':' ∉ s.identifier.toList := by
  rcases surveySteps_cases h with ⟨-, rfl⟩ | ⟨q, -, -, hq, rfl⟩ | ⟨-, rfl⟩ | ⟨-, rfl⟩
  · exact .inr (by decide)
  · exact .inl ⟨q, List.mem_of_getElem? hq, rfl⟩
  · exact .inr (by decide)
  · exact .inr (by decide)

theorem identifier_ne {p p' k : ℕ} {s s' : ORKStep} (hs : (surveySteps surveyOne)[p]? = some s)
    (hs' : (surveySteps surveyOne)[p']? = some s') (hclear : Clear surveyOne p' k) :
    s.identifier ≠ uniqueManagedKey s'.identifier k := by
  rcases identifier_cases hs with ⟨q, hq, he⟩ | ⟨-, hcolon⟩
  · rw [he]
    exact hclear s' hs' q hq
  · exact IndexedKey.ne_indexed hcolon _ _

/-- The table of results holds what the form says: under the identifiers the
answers last left, and under the unique keys of the first `d` pages what was
last on them. -/
structure Table (surveyOne : List Questions) (results : String → Option ORKStepResult)
    (answers paged : ℕ → Answer) (d : ℕ) : Prop where
  plain : ∀ p s, (surveySteps surveyOne)[p]? = some s → s.isQuestionStep →
    Answer.restore ((results s.identifier).getD ⟨s.identifier, []⟩).results = answers p
  pages : ∀ p s, p < d → (surveySteps surveyOne)[p]? = some s →
    results (uniqueManagedKey s.identifier p) = some (pageResult s (paged p))
  clear : ∀ p < d, Clear surveyOne p p

namespace Table

variable {results : String → Option ORKStepResult} {answers paged : ℕ → Answer} {d p k : ℕ}
  {s : ORKStep} {task : ORKOrderedTask}

theorem shrink (h : Table surveyOne results answers paged (d + 1)) :
    Table surveyOne results answers paged d where
  plain := h.plain
  pages p s hp hs := h.pages p s (by omega) hs
  clear p hp := h.clear p (by omega)

theorem extend (h : Table surveyOne results answers paged d) (hclear : Clear surveyOne d d)
    (hd : ∀ s, (surveySteps surveyOne)[d]? = some s →
      results (uniqueManagedKey s.identifier d) = some (pageResult s (paged d))) :
    Table surveyOne results answers paged (d + 1) where
  plain := h.plain
  pages p s hp hs := by
    rcases Nat.lt_succ_iff_lt_or_eq.mp hp with hlt | rfl
    · exact h.pages p s hlt hs
    · exact hd s hs
  clear p hp := by
    rcases Nat.lt_succ_iff_lt_or_eq.mp hp with hlt | rfl
    · exact h.clear p hlt
    · exact hclear

/-- Filing an answer of page `p` with the number `k` changes what is known of
page `p` only, and of its own entry only if the number is that of the page. -/
theorem file (h : Table surveyOne results answers paged d) (hd : Distinct surveyOne)
    (hs : (surveySteps surveyOne)[p]? = some s) (hclear : Clear surveyOne p k) (a : Answer) :
    Table surveyOne
      (Function.update (Function.update results s.identifier (some (pageResult s a)))
        (uniqueManagedKey s.identifier k) (some (pageResult s a)))
      (Function.update answers p a)
      (if k = p then Function.update paged p a else paged) d where
  plain p' s' hs' hq := by
    have hinj := (surveyTask surveyOne hd).index_unique hs' hs
    rw [Function.update_of_ne (identifier_ne hs' hs hclear)]
    by_cases hp : p' = p
    · subst hp
      obtain rfl : s' = s := Option.some.inj (hs'.symm.trans hs)
      simp [pageResult, hq, Answer.restore_results]
    · rw [Function.update_of_ne (mt hinj hp), Function.update_of_ne hp]
      exact h.plain p' s' hs' hq
  pages p' s' hp' hs' := by
    have hinj := (surveyTask surveyOne hd).index_unique hs' hs
    by_cases hkey : uniqueManagedKey s'.identifier p' = uniqueManagedKey s.identifier k
    · obtain ⟨hid, rfl⟩ := IndexedKey.indexed_inj.mp hkey
      obtain rfl := hinj hid
      obtain rfl : s' = s := Option.some.inj (hs'.symm.trans hs)
      simp
    · have hpaged : (if k = p then Function.update paged p a else paged) p' = paged p' := by
        split_ifs with hk
        · refine Function.update_of_ne ?_ _ _
          rintro rfl
          obtain rfl : s' = s := Option.some.inj (hs'.symm.trans hs)
          exact hkey (by rw [hk])
        · rfl
      rw [hpaged, Function.update_of_ne hkey,
        Function.update_of_ne (identifier_ne hs hs' (h.clear p' hp')).symm]
      exact h.pages p' s' hp' hs'
  clear := h.clear

end Table

end Croesus.FirstViewController
