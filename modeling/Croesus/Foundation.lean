import Croesus.Library.Dictionary
import Mathlib.Algebra.Ring.Int.Defs

namespace Croesus

structure NSException where
  name : String
  reason : String
  deriving DecidableEq

/-- Neither NaN nor an infinity: the exponent of the binary number is not all ones. -/
def isFinite (bits : BitVec 64) : Bool := bits.extractLsb' 52 11 ≠ BitVec.allOnes 11

/-- An integer as an `NSNumber` holds it, of a signed type or of an unsigned one. -/
abbrev NSNumberInteger := {n : ℤ // -2 ^ 63 ≤ n ∧ n < 2 ^ 64}

/-- A JSON value, whose numbers are finite. An integer that no `NSNumber` holds
is not read as one. -/
inductive Json
  | null
  | bool (b : Bool)
  | integer (n : NSNumberInteger)
  | double (d : {bits : BitVec 64 // isFinite bits})
  | string (s : String)
  | array (values : List Json)
  | object (members : List (String × Json))

/-- The objects in the data of a document, of Foundation's classes or Firestore's own. -/
inductive Object
  | null
  | bool (b : Bool)
  | integer (n : NSNumberInteger)
  | double (bits : BitVec 64)
  | string (s : String)
  | data (bytes : List UInt8)
  | timestamp (seconds : ℤ) (nanoseconds : ℕ)
  | documentReference (path : List String)
  | geoPoint (latitude longitude : BitVec 64)
  | array (values : List Object)
  | dictionary (entries : List (String × Object))

namespace JSONSerialization

def invalidType (className : String) : NSException :=
  ⟨"NSInvalidArgumentException", "Invalid type in JSON write (" ++ className ++ ")"⟩

def invalidNumber : NSException :=
  ⟨"NSInvalidArgumentException", "Invalid number value (NaN or infinity) in JSON write"⟩

mutual

/-- What `JSONSerialization.data(withJSONObject:)` writes. An object of another
class, or a number that is not finite, makes it raise. -/
def data : Object → Except NSException Json
  | .null => .ok .null
  | .bool b => .ok (.bool b)
  | .integer n => .ok (.integer n)
  | .double bits => if h : isFinite bits then .ok (.double ⟨bits, h⟩) else .error invalidNumber
  | .string s => .ok (.string s)
  | .data _ => .error (invalidType "NSData")
  | .timestamp _ _ => .error (invalidType "FIRTimestamp")
  | .documentReference _ => .error (invalidType "FIRDocumentReference")
  | .geoPoint _ _ => .error (invalidType "FIRGeoPoint")
  | .array values => (dataArray values).map .array
  | .dictionary entries => (dataDictionary entries).map .object

def dataArray : List Object → Except NSException (List Json)
  | [] => .ok []
  | value :: values => do return (← data value) :: (← dataArray values)

def dataDictionary : List (String × Object) → Except NSException (List (String × Json))
  | [] => .ok []
  | (key, value) :: entries => do return (key, ← data value) :: (← dataDictionary entries)

end

theorem dataDictionary_cons {key : String} {value : Object} {json : Json}
    {entries : List (String × Object)} {members : List (String × Json)}
    (h : data value = .ok json) (hs : dataDictionary entries = .ok members) :
    dataDictionary ((key, value) :: entries) = .ok ((key, json) :: members) := by
  simp only [dataDictionary, h, hs]
  rfl

theorem dataDictionary_erase {entries : List (String × Object)} {members : List (String × Json)}
    (h : dataDictionary entries = .ok members) (key : String) :
    dataDictionary (Library.Dictionary.erase entries key) =
      .ok (Library.Dictionary.erase members key) := by
  induction entries generalizing members with
  | nil =>
    obtain rfl := Except.ok.inj h
    rfl
  | cons entry entries ih =>
    obtain ⟨key', value⟩ := entry
    cases hv : data value with
    | error e => simp [dataDictionary, hv, bind, Except.bind] at h
    | ok json =>
      cases hs : dataDictionary entries with
      | error e => simp [dataDictionary, hv, hs, bind, Except.bind] at h
      | ok rest =>
        obtain rfl := Except.ok.inj ((dataDictionary_cons hv hs).symm.trans h)
        rw [Library.Dictionary.erase_cons, Library.Dictionary.erase_cons]
        split_ifs
        · exact ih hs
        · exact dataDictionary_cons hv (ih hs)

theorem dataDictionary_set {entries : List (String × Object)} {members : List (String × Json)}
    (h : dataDictionary entries = .ok members) (key s : String) :
    dataDictionary (Library.Dictionary.set entries key (.string s)) =
      .ok (Library.Dictionary.set members key (.string s)) :=
  dataDictionary_cons rfl (dataDictionary_erase h key)

theorem lookup_dataDictionary {entries : List (String × Object)} {members : List (String × Json)}
    (h : dataDictionary entries = .ok members) (key : String) :
    (members.lookup key).map Except.ok = (entries.lookup key).map data := by
  induction entries generalizing members with
  | nil =>
    obtain rfl := Except.ok.inj h
    rfl
  | cons entry entries ih =>
    obtain ⟨key', value⟩ := entry
    cases hv : data value with
    | error e => simp [dataDictionary, hv, bind, Except.bind] at h
    | ok json =>
      cases hs : dataDictionary entries with
      | error e => simp [dataDictionary, hv, hs, bind, Except.bind] at h
      | ok rest =>
        obtain rfl := Except.ok.inj ((dataDictionary_cons hv hs).symm.trans h)
        rw [Library.Dictionary.lookup_cons, Library.Dictionary.lookup_cons]
        split_ifs
        · rw [Option.map_some, Option.map_some, hv]
        · exact ih hs

end JSONSerialization

inductive DecodingError
  | keyNotFound (key : String)
  | valueNotFound (key : String)
  | typeMismatch (key : String)
  deriving DecidableEq

inductive EncodingError
  | invalidValue
  /-- `MyError.encodingError` -/
  | encodingError
  deriving DecidableEq

class Codable (α : Type) where
  encode : α → Except EncodingError Json
  decode : Json → Except DecodingError α

namespace Codable

/-- `decode(String.self, forKey:)`, as synthesised for a property of type `String`. -/
def decodeString (members : List (String × Json)) (key : String) : Except DecodingError String :=
  match members.lookup key with
  | none => .error (.keyNotFound key)
  | some .null => .error (.valueNotFound key)
  | some (.string s) => .ok s
  | some _ => .error (.typeMismatch key)

/-- `decodeIfPresent(String.self, forKey:)`, as synthesised for a property of type `String?`. -/
def decodeStringIfPresent (members : List (String × Json)) (key : String) :
    Except DecodingError (Option String) :=
  match members.lookup key with
  | none | some .null => .ok none
  | some (.string s) => .ok (some s)
  | some _ => .error (.typeMismatch key)

def encodeStringIfPresent (key : String) (value : Option String) : List (String × Json) :=
  match value with
  | none => []
  | some s => [(key, .string s)]

theorem lookup_encodeStringIfPresent (key key' : String) (value : Option String) :
    (encodeStringIfPresent key value).lookup key' =
      if key' = key then value.map Json.string else none := by
  cases value with
  | none => simp [encodeStringIfPresent]
  | some s => simp [encodeStringIfPresent, Library.Dictionary.lookup_cons]

theorem erase_encodeStringIfPresent (key key' : String) (value : Option String) :
    Library.Dictionary.erase (encodeStringIfPresent key value) key' =
      if key = key' then [] else encodeStringIfPresent key value := by
  cases value with
  | none => simp [encodeStringIfPresent, Library.Dictionary.erase]
  | some s =>
    rw [encodeStringIfPresent, Library.Dictionary.erase_cons]
    rfl

theorem decodeString_iff {members : List (String × Json)} {key s : String} :
    decodeString members key = .ok s ↔ members.lookup key = some (.string s) := by
  rw [decodeString]
  generalize members.lookup key = member
  rcases member with _ | (_ | _ | _ | _ | _ | _ | _) <;> simp

theorem decodeStringIfPresent_iff {members : List (String × Json)} {key : String}
    {value : Option String} :
    decodeStringIfPresent members key = .ok value ↔
      (members.lookup key = none ∨ members.lookup key = some .null) ∧ value = none ∨
        ∃ s, members.lookup key = some (.string s) ∧ value = some s := by
  rw [decodeStringIfPresent]
  generalize members.lookup key = member
  rcases member with _ | (_ | _ | _ | _ | _ | _ | _) <;> simp [eq_comm]

theorem decodeStringIfPresent_eq {members : List (String × Json)} {key : String}
    {value : Option String} (h : members.lookup key = value.map Json.string) :
    decodeStringIfPresent members key = .ok value := by
  rw [decodeStringIfPresent, h]
  cases value <;> rfl

end Codable

def toJson {α : Type} [Codable α] (x : α) (keys : List String) :
    Except EncodingError (List (String × Json)) := do
  match ← Codable.encode x with
  | .object json => return keys.foldl Library.Dictionary.erase json
  | _ => throw .encodingError

end Croesus
