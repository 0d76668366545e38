import Croesus.FirstViewController.SurveyTask
import Croesus.Library.Execution
import Croesus.ResearchKit.TaskViewController

namespace Croesus.FirstViewController

open ResearchKit ORKTaskViewController

/-- Where the user of a form is: on a page of it, or at a page opened from the
review, which remembers the answer it was opened with. -/
inductive Page
  | step (p : ℕ)
  | edit (p : ℕ) (original : Answer)
  deriving DecidableEq

/-- What filling in a form with one question to a page means to its user. Page
`0` is the introduction, the questions are on pages `1` to `n`, and the review
and the summary follow. `answers` is what the user last left, `paged` what was
last on a question's own page. -/
structure Form where
  page : Page := .step 0
  answers : ℕ → Answer := fun _ ↦ .unset
  paged : ℕ → Answer := fun _ ↦ .unset
  finished : Option ORKTaskViewControllerFinishReason := none

namespace Form

variable (n : ℕ) (form : Form)

def IsQuestion (p : ℕ) : Prop := 1 ≤ p ∧ p ≤ n

instance (p : ℕ) : Decidable (IsQuestion n p) := inferInstanceAs (Decidable (_ ∧ _))

def openPage (p : ℕ) : Form :=
  { form with page := .step p, paged := Function.update form.paged p (form.answers p) }

def openEdit (p : ℕ) : Form := { form with page := .edit p (form.answers p) }

def leave (p : ℕ) (a : Answer) : Form :=
  { form with
    answers := Function.update form.answers p a
    paged := Function.update form.paged p a }

def revise (p : ℕ) (a : Answer) : Form :=
  { form with answers := Function.update form.answers p a }

def accepts (p : ℕ) (text : String) : Bool :=
  nameAnswerFormat.shouldChangeCharacters ((form.answers p).textAnswer.getD "") text

def isValid (p : ℕ) : Bool :=
  nameAnswerFormat.isTextLengthValid ((form.answers p).textAnswer.getD "")

def forward (p : ℕ) : Form :=
  if p = n + 2 then { form with finished := some .completed } else form.openPage (p + 1)

def onStep (p : ℕ) : Event → Form
  | .edit text =>
    if IsQuestion n p ∧ form.accepts p text then form.leave p (.ofText text) else form
  | .next =>
    if IsQuestion n p ∧ ((form.answers p).isEmpty ∨ ¬ form.isValid p) then form
    else form.forward n p
  | .skip => if IsQuestion n p then (form.leave p .null).forward n p else form
  | .back => if p = 0 then form else form.openPage (p - 1)
  | .selectRow row => if p = n + 1 ∧ row ≤ n then form.openEdit row else form
  | .abandon reason => if reason = .completed then form else { form with finished := some reason }

/-- Saving and clearing keep the answer, going back restores the original. -/
def onEdit (p : ℕ) (original : Answer) : Event → Form
  | .edit text =>
    if IsQuestion n p ∧ form.accepts p text then form.revise p (.ofText text) else form
  | .next =>
    if IsQuestion n p ∧ ((form.answers p).isEmpty ∨ form.answers p = original ∨ ¬ form.isValid p)
    then form else form.openPage (n + 1)
  | .skip =>
    if IsQuestion n p ∧ original.isEmpty = false then (form.revise p .null).openPage (n + 1)
    else form
  | .back =>
    (if IsQuestion n p then form.revise p original else form).openPage (n + 1)
  | .selectRow _ => form
  | .abandon reason => if reason = .completed then form else { form with finished := some reason }

def handle (event : Event) : Form :=
  match form.finished, form.page with
  | some _, _ => form
  | none, .step p => form.onStep n p event
  | none, .edit p original => form.onEdit n p original event

def run (events : List Event) : Form := events.foldl (handle n) {}

def position : Page → ℕ
  | .step p | .edit p _ => p

def depth : Page → ℕ
  | .step p => p + 1
  | .edit _ _ => n + 3

def Answered : Prop := ∀ p, IsQuestion n p → (form.answers p).isEmpty = false

def UpToDate : Prop := ∀ p, IsQuestion n p → form.paged p = form.answers p

theorem isQuestion_iff_mem {p : ℕ} : IsQuestion n p ↔ p ∈ List.range' 1 n := by
  rw [IsQuestion, List.mem_range'_1]
  omega

instance (P : ℕ → Prop) [DecidablePred P] : Decidable (∀ p, IsQuestion n p → P p) :=
  decidable_of_iff (∀ p ∈ List.range' 1 n, P p) (by simp only [isQuestion_iff_mem])

instance : Decidable (form.Answered n) :=
  inferInstanceAs (Decidable (∀ p, IsQuestion n p → (form.answers p).isEmpty = false))

instance : Decidable (form.UpToDate n) :=
  inferInstanceAs (Decidable (∀ p, IsQuestion n p → form.paged p = form.answers p))

end Form

/-- The key is not the text of a question: what is filed under it when page `p`
is opened as the `k`-th of the open pages does not stand in for an answer. -/
def Clear (surveyOne : List Questions) (p k : ℕ) : Prop :=
  ∀ s ∈ (surveySteps surveyOne)[p]?, ∀ q ∈ surveyOne, q.Question ≠ uniqueManagedKey s.identifier k

instance (surveyOne : List Questions) (p k : ℕ) : Decidable (Clear surveyOne p k) :=
  inferInstanceAs (Decidable (∀ s ∈ (surveySteps surveyOne)[p]?, _))

def ClearStep (surveyOne : List Questions) (form : Form) (event : Event) : Prop :=
  let n := surveyOne.length
  (form.handle n event).page ≠ form.page →
    Clear surveyOne (Form.position (form.handle n event).page) (Form.depth n form.page)

instance (surveyOne : List Questions) (form : Form) (event : Event) :
    Decidable (ClearStep surveyOne form event) :=
  inferInstanceAs (Decidable (_ → _))

def ClearRun (surveyOne : List Questions) (events : List Event) : Prop :=
  Clear surveyOne 0 0 ∧
    Library.Execution.Along (Form.handle surveyOne.length) (ClearStep surveyOne) {} events

instance (surveyOne : List Questions) (events : List Event) :
    Decidable (ClearRun surveyOne events) :=
  inferInstanceAs (Decidable (_ ∧ _))

end Croesus.FirstViewController
