import Croesus.Firestore.Database
import Croesus.Firestore.UserDataConverter
import Croesus.Models

namespace Croesus.FIRFirestoreService

open Firestore

class Identifiable (α : Type) where
  id : α → Option String

instance : Identifiable UserData := ⟨UserData.id⟩

/-- How a write ends: it is issued, and the completion of `create` and of
`addSurveyResponse` is called with `true` at once; or an error is caught and
printed, or an exception raised. -/
inductive Written
  | issued
  | caught (error : EncodingError)
  | raised (exception : NSException)
  deriving DecidableEq

/-- The body that the three writes share, for the document that each refers to. -/
def store {α : Type} [Codable α] (x : α) (reference : Except NSException DocumentKey)
    (db : Database) : Database × Written :=
  match toJson x ["id"] with
  | .error e => (db, .caught e)
  | .ok json =>
    -- these are no Swift errors, so the catch block does not see them
    match reference, UserDataConverter.parsedSetData json with
    | .error e, _ | _, .error e => (db, .raised e)
    | .ok key, .ok fields => (db.setData key fields, .issued)

/-- Nothing is written unless a write is issued. -/
theorem store_refused {α : Type} [Codable α] {x : α} {reference : Except NSException DocumentKey}
    {db : Database} (h : (store x reference db).2 ≠ .issued) : (store x reference db).1 = db := by
  unfold store at h ⊢
  cases hjson : toJson x ["id"] with
  | error e => rfl
  | ok json =>
    cases reference with
    | error e => rfl
    | ok key =>
      dsimp only
      cases hfields : UserDataConverter.parsedSetData json with
      | error e => rfl
      | ok fields => simp [hjson, hfields] at h

/-- The collection given is not looked at. -/
def create {α : Type} [Codable α] (x : α) (uid : String)
    (_collectionReference : FIRCollectionReference) (db : Database) : Database × Written :=
  store x (DocumentKey.document .users uid) db

/-- `document()` makes up the identifier, which is a single segment. -/
def addSurveyResponse {α : Type} [Codable α] (x : α) (autoId : String)
    (_collectionReference : FIRCollectionReference) (db : Database) : Database × Written :=
  store x (.ok (.child .responses autoId)) db

def update {α : Type} [Codable α] [Identifiable α] (x : α)
    (_collectionReference : FIRCollectionReference) (db : Database) : Database × Written :=
  match toJson x ["id"], Identifiable.id x with
  | .error e, _ => (db, .caught e)
  -- `MyError.encodingError`, thrown after the JSON was made
  | .ok _, none => (db, .caught .encodingError)
  | .ok _, some id => store x (DocumentKey.document .users id) db

/-- What a read comes to: its completion is called with a value, nothing
happens but a line in the log, or the app ends. -/
inductive Delivery (α : Type)
  | delivered (x : α)
  | nothing
  | crashed (failure : Failure)

def Delivery.ofDecoded {α : Type} : Except Failure α → Delivery α
  | .ok x => .delivered x
  | .error (.thrown _) => .nothing
  | .error failure => .crashed failure

theorem Delivery.ofDecoded_delivered {α : Type} {decoded : Except Failure α} {x : α}
    (h : Delivery.ofDecoded decoded = .delivered x) : decoded = .ok x := by
  rcases decoded with (_ | _ | _) | y
  · cases h
  · cases h
  · cases h
  · rw [Delivery.delivered.inj h]

/-- The callback of `getUserProfile`; there is no document if there is an error. -/
def profileCallback : Option DocumentSnapshot → Delivery UserData
  | none => .nothing
  | some document =>
    if document.fields.isSome then .ofDecoded (document.decode UserData) else .nothing

def getUserProfile (uid : String) (db : Database) : Delivery UserData :=
  match DocumentKey.document .users uid with
  | .error e => .crashed (.raised e)
  | .ok key => profileCallback (some (db.getDocument key))

/-- The snapshot listener of `read`; there is no snapshot if there is an error. -/
def readCallback (α : Type) [Codable α] : Option (List DocumentSnapshot) → Delivery (List α)
  | none => .nothing
  | some documents => .ofDecoded (documents.mapM (·.decode α))

end Croesus.FIRFirestoreService
