import Croesus.FirstViewController.Reported
import Croesus.Managers.Responses

namespace Croesus.FirstViewController

open Firestore FIRFirestoreService ResearchKit ORKTaskViewController Library

variable {surveyOne : List Questions} {userData : UserData} {db : Database}

/-- The responses as they are sent, with the identifiers that are made up for
their documents. -/
def storing (responses : List Survey) (autoIds : List String) : List AppCall :=
  (responses.zip autoIds).map fun x ↦ .addSurveyResponse x.1 x.2 .responses

/-- What the answers on the questions' pages are to arrive as. -/
def arriving (userData : UserData) (surveyOne : List Questions) (paged : ℕ → Answer) :
    List Survey :=
  (surveyOne.zipIdx 1).filterMap fun x ↦
    surveyResponse userData x.1.Question (paged x.2).textAnswer

theorem storing_responses (responses : List Survey) {autoIds : List String}
    (h : responses.length ≤ autoIds.length) :
    (storing responses autoIds).filterMap AppCall.response = responses := by
  have hresponse : (AppCall.response ∘ fun x : Survey × String ↦
      AppCall.addSurveyResponse x.1 x.2 .responses) = some ∘ Prod.fst := rfl
  rw [storing, List.filterMap_map, hresponse, List.filterMap_eq_map, List.map_fst_zip h]

/-- Identifiers that are not in use stay so until they are used themselves. -/
theorem storing_fresh (responses : List Survey) {autoIds : List String} (hids : autoIds.Nodup)
    (hfresh : ∀ id ∈ autoIds, db (.child .responses id) = none) :
    Execution.Along AppCall.perform AppCall.IsFresh db (storing responses autoIds) := by
  induction autoIds generalizing responses db with
  | nil =>
    rw [storing, List.zip_nil_right]
    trivial
  | cons id autoIds ih =>
    cases responses with
    | nil => trivial
    | cons s responses =>
      obtain ⟨hid, hids⟩ := List.nodup_cons.mp hids
      refine ⟨hfresh id (by simp), ih responses hids fun id' hid' ↦ ?_⟩
      have hne : DocumentKey.child .responses id' ≠ .child .responses id := by
        intro h
        obtain ⟨-, rfl⟩ := DocumentKey.child_inj.mp h
        exact hid hid'
      have hperform : AppCall.perform db (.addSurveyResponse s id .responses) =
          db.setData (.child .responses id) (surveyFields s) :=
        congrArg Prod.fst (addSurveyResponse_eq s id .responses db)
      rw [hperform, Database.setData, Function.update_of_ne hne]
      exact hfresh id' (by simp [hid'])

theorem sendTexts_responses (texts : List (String × Option String))
    (h : (sendTexts userData texts).trapped = false) :
    (sendTexts userData texts).calls = texts.filterMap fun x ↦ surveyResponse userData x.1 x.2 := by
  induction texts with
  | nil => rfl
  | cons x texts ih =>
    have hx := (sendTexts_trapped (x :: texts)).mp h x (by simp)
    obtain ⟨response, hr⟩ : ∃ response, surveyResponse userData x.1 x.2 = some response := by
      rw [← Option.isSome_iff_exists, surveyResponse_isSome]
      simpa using hx
    have ht : (sendTexts userData texts).trapped = false := by
      rw [sendTexts_trapped] at h ⊢
      exact fun y hy ↦ h y (by simp [hy])
    simp [sendText, sendAnswer, hr, Outcome.andThen, ih ht]

/-- With an answer on every page all that is to arrive is sent. -/
theorem calls_arriving {tvc : ORKTaskViewController} {vc : ORKStepViewController}
    {answers paged : ℕ → Answer}
    (h : OnStep surveyOne tvc vc (surveyOne.length + 2) answers paged) (hu : userData.isComplete)
    (hall : ∀ p, Form.IsQuestion surveyOne.length p → (paged p).isEmpty = false)
    (reason : ORKTaskViewControllerFinishReason) :
    (didFinishWith (some userData) tvc reason).calls = arriving userData surveyOne paged := by
  have hall' (x) (hx : x ∈ surveyOne.zipIdx 1) : (paged x.2).isEmpty = false :=
    hall x.2 (mem_zipIdx_question hx)
  have hentries := entries_eq (surveyOne.zipIdx 1) (fun x _ ↦ rfl) hall'
  rw [didFinishWith, completed_results h]
  dsimp only
  rw [sendSurveyData_eq, textResults_pages, hentries, sendTexts_responses, List.filterMap_map]
  · rfl
  · rw [sendTexts_trapped]
    intro y hy
    obtain ⟨x, hx, rfl⟩ := List.mem_map.mp hy
    obtain ⟨s, ha⟩ := Answer.isEmpty_eq_false.mp (hall' x hx)
    exact ⟨hu, by simp [ha, Answer.textAnswer]⟩

/-- Whoever reads the responses after a completed run, with an answer on every
question's page, finds those that were there and one for each question. -/
theorem answers_arrive {task : ORKOrderedTask} {events : List Event}
    (htask : setupSurveyScreen (some surveyOne) = .ok task) (hclear : ClearRun surveyOne events)
    (hu : userData.isComplete) (hdone : (run task events).finished = some .completed)
    (hall : ∀ p, Form.IsQuestion surveyOne.length p →
      ((Form.run surveyOne.length events).paged p).isEmpty = false)
    {before documents : List DocumentSnapshot} {surveys : List Survey} {autoIds : List String}
    (hbefore : before.Nodup) (hlisted : db.IsListed .responses before)
    (hread : readCallback Survey (some before) = .delivered surveys)
    (hids : autoIds.Nodup) (hlength : autoIds.length = surveyOne.length)
    (hfresh : ∀ id ∈ autoIds, db (.child .responses id) = none) (hdocuments : documents.Nodup)
    (hlisted' : Database.IsListed ((storing
      (didFinishWith (some userData) (run task events) .completed).calls autoIds).foldl
        AppCall.perform db) .responses documents) :
    ∃ read, readCallback Survey (some documents) = .delivered read ∧
      read.Perm (surveys ++
        arriving userData surveyOne (Form.run surveyOne.length events).paged) := by
  obtain ⟨vc, hs⟩ := completed_onStep htask hclear hdone
  have hcalls := calls_arriving hs hu hall .completed
  have hle : (arriving userData surveyOne (Form.run surveyOne.length events).paged).length ≤
      autoIds.length :=
    calc _ ≤ (surveyOne.zipIdx 1).length := List.length_filterMap_le _ _
      _ = autoIds.length := by rw [List.length_zipIdx, hlength]
  rw [hcalls] at hlisted'
  have hstored := (Responses.of_read hbefore hlisted hread).run (storing_fresh
    (arriving userData surveyOne (Form.run surveyOne.length events).paged) hids hfresh)
  obtain ⟨read, hdelivered, hperm⟩ := hstored.read hdocuments hlisted'
  rw [storing_responses _ hle] at hperm
  refine ⟨read, hdelivered, hperm.trans ?_⟩
  exact ((List.reverse_perm _).append_right surveys).trans List.perm_append_comm

def arrived (s : Survey) (id : String) : DocumentSnapshot := ⟨id, some (surveyFields s)⟩

theorem answers_arrive_revisited : ∃ read, readCallback Survey
    (some [arrived ⟨"B", "y", "Ann Lee", "ann@lee"⟩ "t", arrived ⟨"A", "z", "Ann Lee", "ann@lee"⟩ "s",
      arrived bensSurvey "r"]) = .delivered read ∧
      read.Perm ([bensSurvey] ++ arriving (.ofFields "Ann" "Lee" "ann@lee" "url")
        [⟨"A", "May"⟩, ⟨"B", "May"⟩] (Form.run 2 revisited).paged) := by
  have hbefore : bensResponse.IsListed .responses [arrived bensSurvey "r"] :=
    Database.IsListed.empty.setData rfl _
  have hcalls : (didFinishWith (some (.ofFields "Ann" "Lee" "ann@lee" "url"))
      (run (surveyTask [⟨"A", "May"⟩, ⟨"B", "May"⟩] (by decide)) revisited) .completed).calls =
        [⟨"A", "z", "Ann Lee", "ann@lee"⟩, ⟨"B", "y", "Ann Lee", "ann@lee"⟩] := by
    decide +kernel
  refine @answers_arrive _ _ bensResponse _ revisited (setupSurveyScreen_eq (by decide))
    (by decide +kernel) rfl (by decide +kernel) (by decide +kernel) [arrived bensSurvey "r"] _ _
    ["s", "t"] (List.nodup_singleton _) hbefore rfl (by decide) rfl (by decide) (by simp [arrived]) ?_
  rw [hcalls]
  exact (hbefore.setData rfl _).setData rfl _

end Croesus.FirstViewController
