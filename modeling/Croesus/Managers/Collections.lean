import Croesus.Firestore.Decoding
import Croesus.Library.Execution
import Croesus.Library.Lists
import Croesus.Managers.FIRFirestoreService

namespace Croesus.FIRFirestoreService

open Firestore Library DocumentSnapshot

/-- A write as its caller means it. -/
inductive Call
  | create {α : Type} [Codable α] (x : α) (uid : String) (collection : FIRCollectionReference)
  | update {α : Type} [Codable α] [Identifiable α] (x : α) (collection : FIRCollectionReference)
  | addSurveyResponse {α : Type} [Codable α] (x : α) (autoId : String)
      (collection : FIRCollectionReference)

namespace Call

def collection : Call → FIRCollectionReference
  | create _ _ c | update _ c | addSurveyResponse _ _ c => c

def id : Call → Option String
  | create _ uid _ => some uid
  | update x _ => Identifiable.id x
  | addSurveyResponse _ autoId _ => some autoId

def json : Call → Except EncodingError (List (String × Json))
  | create x _ _ | update x _ | addSurveyResponse x _ _ => toJson x ["id"]

def perform (db : Database) : Call → Database
  | create x uid c => (FIRFirestoreService.create x uid c db).1
  | update x c => (FIRFirestoreService.update x c db).1
  | addSurveyResponse x autoId c => (FIRFirestoreService.addSurveyResponse x autoId c db).1

/-- The collection that the service writes to, whichever was given. -/
def target : Call → FIRCollectionReference
  | create _ _ _ | update _ _ => .users
  | addSurveyResponse _ _ _ => .responses

/-- Identifiers that come from outside are taken for paths. -/
def IsDirect : Call → Prop
  | create _ uid _ => IsSegment uid
  | update x _ => ∀ id ∈ Identifiable.id x, IsSegment id
  | addSurveyResponse _ _ _ => True

/-- The call has a document to write, encodes to data that Firestore takes, and
names the collection that the service has in mind. -/
def Faithful (call : Call) : Prop :=
  call.collection = call.target ∧ call.IsDirect ∧ call.id.isSome ∧
    ∃ json fields, call.json = .ok json ∧ UserDataConverter.parsedSetData json = .ok fields

/-- The one document that changes is the one that the caller means, with the
value as its content, and reading the collection delivers the value: what its
JSON object with the document's identifier decodes to. -/
def Stores (db : Database) (call : Call) (db' : Database) : Prop :=
  ∃ id json fields, call.id = some id ∧ call.json = .ok json ∧
    UserDataConverter.parsedSetData json = .ok fields ∧
    db' = db.setData (.child call.collection id) fields ∧
    ∀ (α : Type) [Codable α] (documents : List DocumentSnapshot) (objects : List α),
      db'.IsListed call.collection documents →
      readCallback α (some documents) = .delivered objects →
      ∃ x ∈ objects, Codable.decode (.object (Dictionary.set json "id" (.string id))) = .ok x

def reference : Call → Except NSException DocumentKey
  | create _ uid _ => DocumentKey.document .users uid
  | update x _ => DocumentKey.document .users ((Identifiable.id x).getD "")
  | addSurveyResponse _ autoId _ => .ok (.child .responses autoId)

theorem perform_eq (db : Database) (call : Call) {json : List (String × Json)} {fields : Fields}
    (hid : call.id.isSome) (hjson : call.json = .ok json)
    (hfields : UserDataConverter.parsedSetData json = .ok fields) :
    perform db call =
      match call.reference with | .ok key => db.setData key fields | .error _ => db := by
  cases call with
  | create x uid c =>
    have hj : toJson x ["id"] = .ok json := hjson
    simp only [perform, FIRFirestoreService.create, store, hj, hfields, reference]
    cases DocumentKey.document .users uid <;> rfl
  | update x c =>
    have hj : toJson x ["id"] = .ok json := hjson
    obtain ⟨id, hx⟩ := Option.isSome_iff_exists.mp hid
    have hx' : Identifiable.id x = some id := hx
    simp only [perform, FIRFirestoreService.update, store, hj, hfields, reference, hx',
      Option.getD_some]
    cases DocumentKey.document .users id <;> rfl
  | addSurveyResponse x autoId c =>
    have hj : toJson x ["id"] = .ok json := hjson
    simp only [perform, FIRFirestoreService.addSurveyResponse, store, hj, hfields, reference]

theorem reference_iff {call : Call} {id : String} (hid : call.id = some id) :
    call.reference = .ok (.child call.collection id) ↔
      call.collection = call.target ∧ call.IsDirect := by
  cases call with
  | create x uid c =>
    obtain rfl : uid = id := Option.some.inj hid
    simp only [reference, collection, target, IsDirect, DocumentKey.document_eq_child_iff]
    exact and_congr_left' eq_comm
  | update x c =>
    have hx : Identifiable.id x = some id := hid
    simp only [reference, collection, target, IsDirect, hx, Option.getD_some, Option.mem_def,
      DocumentKey.document_eq_child_iff, Option.some.injEq, forall_eq']
    exact and_congr_left' eq_comm
  | addSurveyResponse x autoId c =>
    obtain rfl : autoId = id := Option.some.inj hid
    simp [reference, collection, target, IsDirect, DocumentKey.child_inj, eq_comm]

/-- One call does what its caller means, whatever the database, exactly if it is faithful. -/
theorem stores_iff (call : Call) :
    (∀ db, call.Stores db (perform db call)) ↔ call.Faithful := by
  constructor
  · intro h
    obtain ⟨id, json, fields, hid, hjson, hfields, hdb, -⟩ := h fun _ ↦ none
    have hsome : call.id.isSome := by simp [hid]
    rw [perform_eq _ call hsome hjson hfields] at hdb
    have hr : call.reference = .ok (.child call.collection id) := by
      cases hr : call.reference with
      | error e =>
        rw [hr] at hdb
        have hk := congrFun hdb (.child call.collection id)
        simp [Database.setData] at hk
      | ok key =>
        rw [hr] at hdb
        rw [Database.setData_empty_inj hdb]
    obtain ⟨hc, hdirect⟩ := (reference_iff hid).mp hr
    exact ⟨hc, hdirect, hsome, json, fields, hjson, hfields⟩
  · rintro ⟨hc, hdirect, hsome, json, fields, hjson, hfields⟩ db
    obtain ⟨id, hid⟩ := Option.isSome_iff_exists.mp hsome
    have hdb : perform db call = db.setData (.child call.collection id) fields := by
      rw [perform_eq db call hsome hjson hfields, (reference_iff hid).mpr ⟨hc, hdirect⟩]
    refine ⟨id, json, fields, hid, hjson, hfields, hdb, fun α _ documents objects hlist hread ↦ ?_⟩
    have hmem : (⟨id, some fields⟩ : DocumentSnapshot) ∈ documents := by
      rw [hlist, hdb]
      simp [Database.setData]
    have hok : documents.mapM (·.decode α) = .ok objects := Delivery.ofDecoded_delivered hread
    obtain ⟨x, hx, hdecode⟩ := Lists.exists_of_mapM_ok hok hmem
    refine ⟨x, hx, ?_⟩
    rw [UserDataConverter.decode_stored id hfields] at hdecode
    cases hd : (Codable.decode (.object (Dictionary.set json "id" (.string id))) :
      Except DecodingError α) with
    | error e => simp [hd, Except.mapError] at hdecode
    | ok y => simpa [hd, Except.mapError] using hdecode

end Call

/-- The service is a store of typed collections for the calls of a kind, over
every sequence of them and from every database, exactly if each of them is
faithful. -/
theorem service_stores_iff (S : Call → Prop) :
    (∀ calls : List Call, (∀ call ∈ calls, S call) → ∀ db, Execution.Along Call.perform
      (fun db call ↦ call.Stores db (Call.perform db call)) db calls) ↔
      ∀ call, S call → call.Faithful := by
  constructor
  · intro h call hcall
    apply call.stores_iff.mp
    intro db
    exact (h [call] (by simpa using hcall) db).1
  · intro h calls hcalls db
    exact Execution.along_of_forall (fun call hc ↦ call.stores_iff.mpr (h call (hcalls call hc))) db

/-- The profile that the registration creates is not in the collection given. -/
theorem create_in_questions :
    ¬ ∀ calls : List Call, (∀ call ∈ calls, ∃ id ∈ call.id, id ≠ "") → ∀ db, Execution.Along
      Call.perform (fun db call ↦ call.Stores db (Call.perform db call)) db calls := by
  intro h
  have hstores := (Call.create (UserData.ofFields "Ann" "Lee" "ann@lee" "url") "u"
    .questions).stores_iff.mp fun db ↦ (h [_] (by simp [Call.id]) db).1
  exact absurd hstores.1 (by decide)

end Croesus.FIRFirestoreService
