import Croesus.Managers.Collections
import Croesus.Managers.Profile
import Mathlib.Data.List.Perm.Basic

namespace Croesus.FIRFirestoreService

open Firestore Library

/-- The writes with the models that the app has for them. -/
inductive AppCall
  | create (u : UserData) (uid : String) (collection : FIRCollectionReference)
  | update (u : UserData) (collection : FIRCollectionReference)
  | addSurveyResponse (s : Survey) (autoId : String) (collection : FIRCollectionReference)

namespace AppCall

def toCall : AppCall → Call
  | create u uid c => .create u uid c
  | update u c => .update u c
  | addSurveyResponse s autoId c => .addSurveyResponse s autoId c

def perform (db : Database) (call : AppCall) : Database := call.toCall.perform db

def response : AppCall → Option Survey
  | addSurveyResponse s _ _ => some s
  | _ => none

/-- The identifier that is made up for a response is not in use. -/
def IsFresh (db : Database) : AppCall → Prop
  | addSurveyResponse _ autoId _ => db (.child .responses autoId) = none
  | _ => True

/-- The document of the users that the call sets, if it does not raise. -/
def reference : AppCall → Option (DocumentKey × UserData)
  | create u uid _ => (DocumentKey.document .users uid).toOption.map (·, u)
  | update u _ => u.id.bind fun id ↦ (DocumentKey.document .users id).toOption.map (·, u)
  | addSurveyResponse _ _ _ => none

/-- The profile that the call stores for the user. -/
def profile (uid : String) (call : AppCall) : Option UserData :=
  call.reference.bind fun x ↦ if x.1 = .child .users uid then some x.2 else none

end AppCall

def surveyFields (s : Survey) : Fields :=
  [("question", .string s.question), ("answer", .string s.answer),
    ("fullNames", .string s.fullNames), ("email", .string s.email)]

/-- The collection of the responses holds the surveys, one in a document. -/
def Responses (db : Database) (surveys : List Survey) : Prop :=
  ∃ documents : List DocumentSnapshot, documents.Nodup ∧ db.IsListed .responses documents ∧
    List.Forall₂ (fun document s ↦ document.decode Survey = .ok s) documents surveys

variable {db : Database} {surveys : List Survey}

theorem addSurveyResponse_eq (s : Survey) (autoId : String) (c : FIRCollectionReference)
    (db : Database) : addSurveyResponse s autoId c db =
      (db.setData (.child .responses autoId) (surveyFields s), .issued) := rfl

theorem decode_survey (id : String) (s : Survey) :
    DocumentSnapshot.decode Survey ⟨id, some (surveyFields s)⟩ = .ok s := by
  have hparsed : UserDataConverter.parsedSetData [("question", .string s.question),
      ("answer", .string s.answer), ("fullNames", .string s.fullNames),
      ("email", .string s.email)] = .ok (surveyFields s) := rfl
  rw [UserDataConverter.decode_stored id hparsed]
  rfl

theorem document_head {uid : String} {key : DocumentKey}
    (h : DocumentKey.document .users uid = .ok key) : key.path.head? = some "users" := by
  rw [DocumentKey.document] at h
  cases hs : ResourcePath.fromString uid with
  | error e => simp [hs, bind, Except.bind] at h
  | ok path =>
    simp only [hs, bind, Except.bind] at h
    split_ifs at h
    rw [← Except.ok.inj h]
    rfl

theorem store_profile (u : UserData) (reference : Except NSException DocumentKey) (db : Database) :
    ∃ fields, UserDataConverter.parsedSetData (profileJson u) = .ok fields ∧
      (store u reference db).1 = match reference with
        | .ok key => db.setData key fields
        | .error _ => db := by
  obtain ⟨fields, hfields⟩ := parsedSetData_profile u
  refine ⟨fields, hfields, ?_⟩
  simp only [store, toJson_profile, hfields]
  cases reference <;> rfl

/-- A profile is stored in the document that its call refers to, and nothing else changes. -/
theorem perform_profile {call : AppCall} (hresponse : call.response = none) (db : Database) :
    (call.reference = none ∧ call.perform db = db) ∨
      ∃ key u fields, call.reference = some (key, u) ∧ key.path.head? = some "users" ∧
        UserDataConverter.parsedSetData (profileJson u) = .ok fields ∧
        call.perform db = db.setData key fields := by
  have hstore (u : UserData) (id : String) :
      ((DocumentKey.document .users id).toOption.map (·, u) = none ∧
        (store u (DocumentKey.document .users id) db).1 = db) ∨
      ∃ key u' fields, (DocumentKey.document .users id).toOption.map (·, u) = some (key, u') ∧
        key.path.head? = some "users" ∧
        UserDataConverter.parsedSetData (profileJson u') = .ok fields ∧
        (store u (DocumentKey.document .users id) db).1 = db.setData key fields := by
    obtain ⟨fields, hfields, heq⟩ := store_profile u (DocumentKey.document .users id) db
    cases hkey : DocumentKey.document .users id with
    | error e =>
      rw [hkey] at heq
      exact .inl ⟨rfl, heq⟩
    | ok key =>
      rw [hkey] at heq
      exact .inr ⟨key, u, fields, rfl, document_head hkey, hfields, heq⟩
  cases call with
  | create u uid c => exact hstore u uid
  | update u c =>
    cases hid : u.id with
    | none =>
      left
      simp [AppCall.reference, AppCall.perform, AppCall.toCall, Call.perform, update,
        toJson_profile, Identifiable.id, hid]
    | some id =>
      have hupdate : (AppCall.update u c).perform db =
          (store u (DocumentKey.document .users id) db).1 := by
        simp [AppCall.perform, AppCall.toCall, Call.perform, update, toJson_profile,
          Identifiable.id, hid]
      simp only [AppCall.reference, hid, Option.bind_some, hupdate]
      exact hstore u id
  | addSurveyResponse s autoId c => cases hresponse

namespace Responses

theorem add (h : Responses db surveys) (s : Survey) {autoId : String}
    (hfresh : db (.child .responses autoId) = none) :
    Responses (db.setData (.child .responses autoId) (surveyFields s)) (s :: surveys) := by
  obtain ⟨documents, hnodup, hlisted, hdecode⟩ := h
  refine ⟨⟨autoId, some (surveyFields s)⟩ :: documents, ?_, hlisted.setData hfresh _, ?_⟩
  · exact List.nodup_cons.mpr ⟨hlisted.notMem hfresh _, hnodup⟩
  · exact .cons (decode_survey autoId s) hdecode

theorem setData (h : Responses db surveys) {key : DocumentKey} (fields : Fields)
    (hkey : key.path.head? = some "users") : Responses (db.setData key fields) surveys := by
  obtain ⟨documents, hnodup, hlisted, hdecode⟩ := h
  refine ⟨documents, hnodup, hlisted.setData_of_ne (fun id ↦ ?_) fields, hdecode⟩
  rintro rfl
  have hhead : "responses" = "users" := Option.some.inj hkey
  exact absurd hhead (by decide)

theorem perform (h : Responses db surveys) {call : AppCall} (hfresh : call.IsFresh db) :
    Responses (call.perform db) (call.response.toList ++ surveys) := by
  cases hresponse : call.response with
  | some s =>
    cases call with
    | addSurveyResponse s' autoId c =>
      obtain rfl : s' = s := Option.some.inj hresponse
      exact h.add s' hfresh
    | create _ _ _ | update _ _ => cases hresponse
  | none =>
    obtain ⟨-, heq⟩ | ⟨key, u, fields, -, hhead, -, heq⟩ := perform_profile hresponse db
    · simpa [heq] using h
    · simpa [heq] using h.setData fields hhead

theorem run (h : Responses db surveys) {calls : List AppCall}
    (hfresh : Execution.Along AppCall.perform AppCall.IsFresh db calls) :
    Responses (calls.foldl AppCall.perform db)
      ((calls.filterMap AppCall.response).reverse ++ surveys) := by
  induction calls generalizing db surveys with
  | nil => exact h
  | cons call calls ih =>
    have hrest := ih (h.perform hfresh.1) hfresh.2
    cases hresponse : call.response with
    | none => simpa [hresponse, List.filterMap_cons] using hrest
    | some s => simpa [hresponse, List.filterMap_cons] using hrest

theorem of_read {documents : List DocumentSnapshot} (hnodup : documents.Nodup)
    (hlisted : db.IsListed .responses documents)
    (hread : readCallback Survey (some documents) = .delivered surveys) : Responses db surveys := by
  refine ⟨documents, hnodup, hlisted, ?_⟩
  exact Lists.forall₂_of_mapM_ok (Delivery.ofDecoded_delivered hread)

theorem read (h : Responses db surveys) {documents : List DocumentSnapshot}
    (hnodup : documents.Nodup) (hlisted : db.IsListed .responses documents) :
    ∃ read, readCallback Survey (some documents) = .delivered read ∧ read.Perm surveys := by
  obtain ⟨documents', hnodup', hlisted', hdecode⟩ := h
  have hperm : documents.Perm documents' :=
    (List.perm_ext_iff_of_nodup hnodup hnodup').mpr fun document ↦
      (hlisted document).trans (hlisted' document).symm
  obtain ⟨read, hread, hsurveys⟩ := List.perm_comp_forall₂ hperm hdecode
  refine ⟨read, ?_, hsurveys⟩
  rw [readCallback, Lists.mapM_ok_of_forall₂ hread]
  rfl

end Responses

/-- Whatever profiles are written in between, reading the responses delivers
those that were there and those that were added, each once. -/
theorem read_responses (db : Database) (calls : List AppCall)
    {before documents : List DocumentSnapshot} (hbefore : before.Nodup) (hlisted : db.IsListed .responses before)
    (hread : readCallback Survey (some before) = .delivered surveys)
    (hfresh : Execution.Along AppCall.perform AppCall.IsFresh db calls)
    (hnodup : documents.Nodup)
    (hlisted' : (calls.foldl AppCall.perform db).IsListed .responses documents) :
    ∃ read, readCallback Survey (some documents) = .delivered read ∧
      read.Perm (surveys ++ calls.filterMap AppCall.response) := by
  obtain ⟨read, hdelivered, hperm⟩ :=
    ((Responses.of_read hbefore hlisted hread).run hfresh).read hnodup hlisted'
  refine ⟨read, hdelivered, hperm.trans ?_⟩
  exact ((List.reverse_perm _).append_right surveys).trans List.perm_append_comm

def annsSurvey : Survey := ⟨"Rent?", "900", "Ann Lee", "ann@lee"⟩

def bensSurvey : Survey := ⟨"Rent?", "700", "Ben Ray", "ben@ray"⟩

def bensResponse : Database :=
  Database.setData (fun _ ↦ none) (.child .responses "r") (surveyFields bensSurvey)

def addingTwo : List AppCall :=
  [.addSurveyResponse annsSurvey "s" .responses,
    .create (UserData.ofFields "Ben" "Ray" "ben@ray" "url") "u" .questions,
    .addSurveyResponse bensSurvey "t" .responses]

theorem read_responses_two : ∃ read,
    readCallback Survey (some [⟨"t", some (surveyFields bensSurvey)⟩,
      ⟨"s", some (surveyFields annsSurvey)⟩, ⟨"r", some (surveyFields bensSurvey)⟩]) =
        .delivered read ∧
      read.Perm ([bensSurvey] ++ addingTwo.filterMap AppCall.response) := by
  have hbefore : bensResponse.IsListed .responses [⟨"r", some (surveyFields bensSurvey)⟩] :=
    Database.IsListed.empty.setData rfl _
  have husers (id : String) : DocumentKey.child .responses id ≠ .child .users "u" := by
    simp [DocumentKey.child_inj]
  have hafter : Database.IsListed (addingTwo.foldl AppCall.perform bensResponse) .responses
      [⟨"t", some (surveyFields bensSurvey)⟩, ⟨"s", some (surveyFields annsSurvey)⟩,
        ⟨"r", some (surveyFields bensSurvey)⟩] :=
    ((hbefore.setData rfl (surveyFields annsSurvey)).setData_of_ne husers _).setData rfl _
  exact read_responses bensResponse addingTwo (by simp) hbefore rfl
    ⟨rfl, trivial, rfl, trivial⟩ (by simp) hafter

theorem getUserProfile_perform {uid : String} (hs : IsSegment uid) (db : Database) (call : AppCall) :
    getUserProfile uid (call.perform db) = match call.profile uid with
      | some u => .delivered { u with id := some uid }
      | none => getUserProfile uid db := by
  have hother (key : DocumentKey) (fields : Fields) (hkey : key ≠ .child .users uid) :
      getUserProfile uid (db.setData key fields) = getUserProfile uid db := by
    rw [getUserProfile_eq hs, getUserProfile_eq hs, Database.setData,
      Function.update_of_ne (Ne.symm hkey)]
  cases hresponse : call.response with
  | some s =>
    cases call with
    | addSurveyResponse s' autoId c =>
      exact hother _ _ fun he ↦ by simp [DocumentKey.child_inj] at he
    | create _ _ _ | update _ _ => cases hresponse
  | none =>
    obtain ⟨hnone, heq⟩ | ⟨key, u, fields, hsome, -, hfields, heq⟩ := perform_profile hresponse db
    · simp [AppCall.profile, hnone, heq]
    · simp only [AppCall.profile, hsome, Option.bind_some, heq]
      split_ifs with hkey
      · rw [getUserProfile_eq hs, hkey, Database.setData, Function.update_self]
        exact profileCallback_stored uid hfields
      · exact hother key fields hkey

/-- Whatever else is written, a user's profile is the one that was written
last for a path of its document. -/
theorem getUserProfile_run {uid : String} (hs : IsSegment uid) (db : Database)
    (calls : List AppCall) :
    getUserProfile uid (calls.foldl AppCall.perform db) =
      match (calls.filterMap (AppCall.profile uid)).getLast? with
      | some u => .delivered { u with id := some uid }
      | none => getUserProfile uid db := by
  induction calls generalizing db with
  | nil => rfl
  | cons call calls ih =>
    rw [List.foldl_cons, ih, getUserProfile_perform hs, List.filterMap_cons]
    cases hlast : (calls.filterMap (AppCall.profile uid)).getLast? with
    | some u => cases call.profile uid <;> simp [List.getLast?_cons, hlast]
    | none => cases call.profile uid <;> simp [List.getLast?_cons, hlast]

theorem getUserProfile_run_slash :
    getUserProfile "u" ([.create (UserData.ofFields "Ann" "Lee" "ann@lee" "url") "u" .users,
      .addSurveyResponse annsSurvey "r" .responses,
      .create (UserData.ofFields "Bob" "Ray" "bob@ray" "url") "/u" .users].foldl
        AppCall.perform fun _ ↦ none) =
      .delivered (UserData.ofFields "Bob" "Ray" "bob@ray" "url" "u") :=
  (getUserProfile_run (by decide) _ _).trans rfl

end Croesus.FIRFirestoreService
