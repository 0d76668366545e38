import Croesus.Foundation

namespace Croesus.Firestore

open Library

/-- An assertion of Firestore fails in Foundation's handler, which puts the
function and the line in the log only. The message is handed over as a C string,
which ends with the first null. -/
def assertionFailure (message : String) : NSException :=
  ⟨"NSInternalInconsistencyException", "FIRESTORE INTERNAL ASSERTION FAILED: " ++
    String.ofList (message.toList.takeWhile (· ≠ '\x00'))⟩

def hardAssert (message condition : String) : NSException :=
  assertionFailure (message ++ " (expected " ++ condition ++ ")")

def invalidArgument (reason : String) : NSException := ⟨"FIRInvalidArgumentException", reason⟩

/-- The values that fields can have. A server timestamp is one whose write has
not been acknowledged yet. -/
inductive FieldValue
  | null
  | boolean (b : Bool)
  | integer (n : {n : ℤ // -2 ^ 63 ≤ n ∧ n < 2 ^ 63})
  | double (bits : BitVec 64)
  | timestamp (seconds : ℤ) (nanoseconds : ℕ)
  | serverTimestamp
  | string (s : String)
  | blob (bytes : List UInt8)
  | reference (path : List String)
  | geoPoint (latitude longitude : BitVec 64)
  | array (values : List FieldValue)
  | object (fields : List (String × FieldValue))

namespace FieldValue

mutual

/-- `convertedValue:options:` with the options of `data()`. -/
def convertedValue : FieldValue → Object
  | .null => .null
  | .boolean b => .bool b
  | .integer n => .integer ⟨n.1, n.2.1, by omega⟩
  | .double bits => .double bits
  | .timestamp seconds nanoseconds => .timestamp seconds nanoseconds
  | .serverTimestamp => .null
  | .string s => .string s
  | .blob bytes => .data bytes
  | .reference path => .documentReference path
  | .geoPoint latitude longitude => .geoPoint latitude longitude
  | .array values => .array (convertedArray values)
  | .object fields => .dictionary (convertedObject fields)

def convertedArray : List FieldValue → List Object
  | [] => []
  | value :: values => convertedValue value :: convertedArray values

def convertedObject : List (String × FieldValue) → List (String × Object)
  | [] => []
  | (key, value) :: fields => (key, convertedValue value) :: convertedObject fields

end

mutual

def isJson : FieldValue → Bool
  | .null | .boolean _ | .integer _ | .serverTimestamp | .string _ => true
  | .double bits => isFinite bits
  | .timestamp _ _ | .blob _ | .reference _ | .geoPoint _ _ => false
  | .array values => isJsonArray values
  | .object fields => isJsonObject fields

def isJsonArray : List FieldValue → Bool
  | [] => true
  | value :: values => isJson value && isJsonArray values

def isJsonObject : List (String × FieldValue) → Bool
  | [] => true
  | (_, value) :: fields => isJson value && isJsonObject fields

end

theorem convertedObject_eq (fields : List (String × FieldValue)) :
    convertedObject fields = Dictionary.mapValues convertedValue fields := by
  induction fields with
  | nil => rfl
  | cons field fields ih => rw [convertedObject, ih]; rfl

theorem isJsonObject_iff (fields : List (String × FieldValue)) :
    isJsonObject fields ↔ ∀ field ∈ fields, field.2.isJson := by
  induction fields with
  | nil => simp [isJsonObject]
  | cons field fields ih => simp [isJsonObject, ih]

end FieldValue

/-- A document as it is delivered; it has no data if it does not exist. -/
structure DocumentSnapshot where
  documentID : String
  fields : Option (List (String × FieldValue))

/-- How decoding can fail: with a Swift error, with an exception that Swift
cannot catch, or by unwrapping nil. -/
inductive Failure
  | thrown (error : DecodingError)
  | raised (exception : NSException)
  | trapped
  deriving DecidableEq

namespace DocumentSnapshot

def data (document : DocumentSnapshot) : Option (List (String × Object)) :=
  document.fields.map FieldValue.convertedObject

def decode (α : Type) [Codable α] (document : DocumentSnapshot) (includingId : Bool := true) :
    Except Failure α := do
  let documentJson := document.data
  let documentJson := if includingId then
      documentJson.map (Dictionary.set · "id" (.string document.documentID))
    else documentJson
  match documentJson with
  -- `documentJson!`
  | none => throw .trapped
  | some documentJson =>
    let documentData ← (JSONSerialization.data (.dictionary documentJson)).mapError .raised
    (Codable.decode documentData).mapError .thrown

end DocumentSnapshot

end Croesus.Firestore
