import Croesus.FirstViewController.Screen
import Croesus.Firestore.Decoding

namespace Croesus.FirstViewController

open Firestore FIRFirestoreService ResearchKit Library

def question? (document : DocumentSnapshot) : Option Questions :=
  match document.fields with
  | none => none
  | some fields =>
    match fields.lookup "Question", fields.lookup "date" with
    | some (.string question), some (.string date) => some ⟨question, date⟩
    | _, _ => none

def wellFormed (snapshot : Option (List DocumentSnapshot)) : Option (List Questions) :=
  snapshot.bind fun documents ↦ documents.mapM question?

def snapshots (actions : List Action) : List (Option (List DocumentSnapshot)) :=
  actions.filterMap fun
    | .questions snapshot => some snapshot
    | _ => none

/-- The questions of the last snapshot all of whose documents are well formed. -/
def lastWellFormed (snapshots : List (Option (List DocumentSnapshot))) : Option (List Questions) :=
  (snapshots.filterMap wellFormed).getLast?

theorem question?_eq_some {document : DocumentSnapshot} {q : Questions} :
    question? document = some q ↔ ∃ fields, document.fields = some fields ∧
      fields.lookup "Question" = some (.string q.Question) ∧
      fields.lookup "date" = some (.string q.date) := by
  obtain ⟨question, date⟩ := q
  unfold question?
  split
  · simp_all
  · rename_i fields hfields
    split <;> simp_all

theorem decode_object_iff {documentID : String} {fields : List (String × FieldValue)}
    {members : List (String × Json)} (h : JSONSerialization.dataDictionary
      (FieldValue.convertedObject (DocumentSnapshot.withId documentID fields)) = .ok members)
    (q : Questions) : Codable.decode (.object members) = .ok q ↔
      question? ⟨documentID, some fields⟩ = some q := by
  have hlookup (key : String) (hkey : key ≠ "id") :
      (DocumentSnapshot.withId documentID fields).lookup key = fields.lookup key :=
    Dictionary.lookup_set_ne _ _ _ hkey
  rw [Questions.decode_iff, Firestore.decodeString_iff h, Firestore.decodeString_iff h,
    hlookup "Question" (by decide), hlookup "date" (by decide), question?_eq_some]
  simp

theorem question?_of_decode {document : DocumentSnapshot} {q : Questions}
    (h : document.decode Questions = .ok q) : question? document = some q := by
  obtain ⟨documentID, fields⟩ := document
  cases fields with
  | none => cases h
  | some fields =>
    obtain ⟨members, hdata, hdecode⟩ := DocumentSnapshot.dataDictionary_of_decode h
    exact (decode_object_iff hdata q).mp hdecode

theorem question?_of_thrown {document : DocumentSnapshot} {e : DecodingError}
    (h : document.decode Questions = .error (.thrown e)) : question? document = none := by
  obtain ⟨documentID, fields⟩ := document
  cases fields with
  | none => cases h
  | some fields =>
    cases hdata : JSONSerialization.dataDictionary
        (FieldValue.convertedObject (DocumentSnapshot.withId documentID fields)) with
    | error exception =>
      rw [DocumentSnapshot.decode_eq, FieldValue.convertedValue, JSONSerialization.data, hdata] at h
      cases h
    | ok members =>
      rw [DocumentSnapshot.decode_of_dataDictionary hdata] at h
      rw [Option.eq_none_iff_forall_ne_some]
      intro q hq
      rw [(decode_object_iff hdata q).mpr hq] at h
      cases h

/-- The loop over the documents, which the first one that throws ends. -/
theorem mapM_question {documents : List DocumentSnapshot} :
    (∀ questions, documents.mapM (·.decode Questions) = .ok questions →
      documents.mapM question? = some questions) ∧
    ∀ e, documents.mapM (·.decode Questions) = .error (.thrown e) →
      documents.mapM question? = none := by
  induction documents with
  | nil => exact ⟨fun questions h ↦ by rw [← Except.ok.inj h]; rfl, fun e h ↦ (by cases h)⟩
  | cons document documents ih =>
    simp only [List.mapM_cons]
    cases hd : document.decode Questions with
    | error failure =>
      refine ⟨fun questions h ↦ (by cases h), fun e h ↦ ?_⟩
      obtain rfl : failure = .thrown e := Except.error.inj h
      simp [question?_of_thrown hd]
    | ok q =>
      rw [question?_of_decode hd]
      cases hds : documents.mapM (·.decode Questions) with
      | error failure =>
        refine ⟨fun questions h ↦ (by cases h), fun e h ↦ ?_⟩
        obtain rfl : failure = .thrown e := Except.error.inj h
        simp [ih.2 e hds]
      | ok questions =>
        refine ⟨fun questions' h ↦ ?_, fun e h ↦ (by cases h)⟩
        obtain rfl : q :: questions = questions' := Except.ok.inj h
        simp [ih.1 questions hds]

theorem readCallback_cases (snapshot : Option (List DocumentSnapshot)) :
    (∃ survey, readCallback Questions snapshot = .delivered survey ∧
      wellFormed snapshot = some survey) ∨
    (readCallback Questions snapshot = .nothing ∧ wellFormed snapshot = none) ∨
      ∃ failure, readCallback Questions snapshot = .crashed failure := by
  cases snapshot with
  | none => exact .inr (.inl ⟨rfl, rfl⟩)
  | some documents =>
    simp only [readCallback, wellFormed, Option.bind_some]
    cases hm : documents.mapM (·.decode Questions) with
    | ok survey => exact .inl ⟨survey, rfl, mapM_question.1 survey hm⟩
    | error failure =>
      cases failure with
      | thrown e => exact .inr (.inl ⟨rfl, mapM_question.2 e hm⟩)
      | raised exception => exact .inr (.inr ⟨.raised exception, rfl⟩)
      | trapped => exact .inr (.inr ⟨.trapped, rfl⟩)

def IsJson (snapshot : Option (List DocumentSnapshot)) : Prop :=
  ∀ documents ∈ snapshot, ∀ document ∈ documents,
    ∃ fields ∈ document.fields, FieldValue.isJsonObject fields

theorem mapM_handled {documents : List DocumentSnapshot}
    (h : ∀ document ∈ documents, DocumentSnapshot.Handled (document.decode Questions)) :
    DocumentSnapshot.Handled (documents.mapM (·.decode Questions)) := by
  induction documents with
  | nil => exact .inl ⟨[], rfl⟩
  | cons document documents ih =>
    rw [List.mapM_cons]
    rcases h document (by simp) with ⟨q, hq⟩ | ⟨e, he⟩
    · rcases ih fun d hd ↦ h d (by simp [hd]) with ⟨qs, hqs⟩ | ⟨e, he⟩
      · exact .inl ⟨q :: qs, by rw [hq, hqs]; rfl⟩
      · exact .inr ⟨e, by rw [hq, he]; rfl⟩
    · exact .inr ⟨e, by rw [he]; rfl⟩

theorem readCallback_ne_crashed {snapshot : Option (List DocumentSnapshot)} (h : IsJson snapshot)
    (failure : Failure) : readCallback Questions snapshot ≠ .crashed failure := by
  cases snapshot with
  | none => simp [readCallback]
  | some documents =>
    have hall : DocumentSnapshot.Handled (documents.mapM (·.decode Questions)) := by
      apply mapM_handled
      intro document hd
      obtain ⟨fields, hfields, hjson⟩ := h documents rfl document hd
      obtain ⟨documentID, _⟩ := document
      obtain rfl : _ = some fields := hfields
      rw [DocumentSnapshot.handled_iff_isJson, DocumentSnapshot.isJson_documentJson]
      intro field hf _
      exact (FieldValue.isJsonObject_iff fields).mp hjson field hf
    rw [readCallback]
    rcases hall with ⟨qs, hqs⟩ | ⟨e, he⟩
    · simp [hqs, Delivery.ofDecoded]
    · simp [he, Delivery.ofDecoded]

namespace Screen

variable {s : Screen}

theorem getSurveyQuestions_eq {snapshot : Option (List DocumentSnapshot)}
    (h : (s.getSurveyQuestions snapshot).crash = none) :
    (s.getSurveyQuestions snapshot).surveyOne = (wellFormed snapshot).or s.surveyOne := by
  rcases readCallback_cases snapshot with ⟨survey, hr, hw⟩ | ⟨hr, hw⟩ | ⟨failure, hr⟩
  · simp [getSurveyQuestions, hr, hw]
  · simp [getSurveyQuestions, hr, hw]
  · simp [getSurveyQuestions, hr] at h

theorem step_surveyOne {action : Action} (hs : s.crash = none) (h : (s.step action).crash = none) :
    (s.step action).surveyOne = (lastWellFormed (snapshots [action])).or s.surveyOne := by
  have hgo : s.crash.isSome = false := by simp [hs]
  simp only [step, hgo, Bool.false_eq_true, if_false] at h ⊢
  cases action with
  | questions snapshot =>
    have hw : lastWellFormed (snapshots [.questions snapshot]) = wellFormed snapshot := by
      cases hw : wellFormed snapshot <;> simp [lastWellFormed, snapshots, hw]
    rw [hw]
    exact getSurveyQuestions_eq h
  | profile document => dsimp only; split_ifs <;> simp [lastWellFormed, snapshots]
  | selectRow => dsimp only; split_ifs <;> simp [lastWellFormed, snapshots]
  | task event => dsimp only; split <;> [skip; split] <;> simp [lastWellFormed, snapshots]
  | swipe => rfl

theorem run_surveyOne {actions : List Action} (h : (actions.foldl step s).crash = none) :
    (actions.foldl step s).surveyOne = (lastWellFormed (snapshots actions)).or s.surveyOne := by
  induction actions generalizing s with
  | nil => rfl
  | cons action actions ih =>
    have hstep : (s.step action).crash = none := by
      by_contra hc
      have hsome := Option.isSome_iff_ne_none.mpr hc
      rw [List.foldl_cons, run_crashed hsome] at h
      exact hc h
    have hs : s.crash = none := by
      by_contra hc
      rw [step_crashed (Option.isSome_iff_ne_none.mpr hc)] at hstep
      exact hc hstep
    have hsplit : lastWellFormed (snapshots (action :: actions)) =
        (lastWellFormed (snapshots actions)).or (lastWellFormed (snapshots [action])) := by
      rw [← List.singleton_append, snapshots, List.filterMap_append, lastWellFormed,
        List.filterMap_append, List.getLast?_append]
      rfl
    rw [List.foldl_cons, ih h, step_surveyOne hs hstep, hsplit, Option.or_assoc]

theorem questions_crash {received : List (Option (List DocumentSnapshot))}
    (h : ∀ snapshot ∈ received, IsJson snapshot) (hs : s.crash = none) :
    ((received.map Action.questions).foldl step s).crash = none := by
  induction received generalizing s with
  | nil => exact hs
  | cons snapshot received ih =>
    refine ih (fun snapshot' hm ↦ h snapshot' (by simp [hm])) ?_
    have hne := readCallback_ne_crashed (h snapshot (by simp))
    have hstep : s.step (.questions snapshot) = s.getSurveyQuestions snapshot := by
      simp [step, hs]
    rw [hstep, getSurveyQuestions]
    split
    · exact hs
    · exact hs
    · exact absurd (by assumption) (hne _)

/-- After every sequence of snapshots and errors the screen has the questions of
the last snapshot all of whose documents are well formed, and the task made
from them has a step for each, in order. -/
theorem surveyOne_follows (uid : Option String) (received : List (Option (List DocumentSnapshot)))
    (h : ∀ snapshot ∈ received, IsJson snapshot) :
    (run uid (received.map .questions)).surveyOne = lastWellFormed received ∧
      ∀ task, setupSurveyScreen (run uid (received.map .questions)).surveyOne = .ok task →
        task.steps = surveySteps ((lastWellFormed received).getD []) := by
  have hs : (run uid (received.map .questions)).surveyOne = lastWellFormed received := by
    have hreceived : snapshots (received.map .questions) = received := by
      simp [snapshots, List.filterMap_map]
    rw [run, run_surveyOne (questions_crash h rfl), hreceived]
    exact Option.or_none
  refine ⟨hs, fun task htask ↦ ?_⟩
  rw [hs] at htask
  exact setupSurveyScreen_steps htask

theorem surveyOne_follows_two :
    (run (some "u") [.questions (some [⟨"q", some [("Question", .string "A"),
      ("date", .string "May")]⟩]), .questions (some [⟨"q", some []⟩])]).surveyOne =
      lastWellFormed [some [⟨"q", some [("Question", .string "A"), ("date", .string "May")]⟩],
        some [⟨"q", some []⟩]] :=
  (surveyOne_follows (some "u") [some [⟨"q", some [("Question", .string "A"),
    ("date", .string "May")]⟩], some [⟨"q", some []⟩]]
    (by simp [IsJson, FieldValue.isJsonObject, FieldValue.isJson])).1

/-- One document without a date keeps the question next to it from being shown. -/
theorem surveyOne_hidden :
    ¬ ∀ (uid : Option String) (received : List (Option (List DocumentSnapshot)))
      (documents : List DocumentSnapshot),
      (∀ snapshot ∈ received, IsJson snapshot) → IsJson (some documents) →
      (run uid ((received ++ [some documents]).map .questions)).surveyOne =
        some (documents.filterMap question?) := by
  intro h
  have hq := h (some "u") [] [⟨"p", some [("Question", .string "A"), ("date", .string "May")]⟩,
    ⟨"q", some [("Question", .string "B")]⟩] (by simp)
    (by simp [IsJson, FieldValue.isJsonObject, FieldValue.isJson])
  exact absurd hq (by decide +kernel)

end Screen

end Croesus.FirstViewController
