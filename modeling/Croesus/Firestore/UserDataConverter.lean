import Croesus.Firestore.FieldPath
import Mathlib.Algebra.Ring.Int.Defs

namespace Croesus.Firestore

/-- Where in the data the parser is; there is no path inside an array. -/
structure ParseContext where
  path : Option (List String)
  arrayElement : Bool

namespace ParseContext

variable (context : ParseContext)

def rootContext : ParseContext := ⟨some [], false⟩

def fieldDescription : Option (List String) → String
  | none | some [] => ""
  | some path => " (found in field " ++ FieldPath.canonicalString path ++ ")"

def invalidArgument (reason : String) : NSException :=
  Firestore.invalidArgument (reason ++ fieldDescription context.path)

def validatePathSegment (segment : String) : Except NSException Unit :=
  if segment = "" then
    .error (context.invalidArgument "Invalid data. Document fields must not be empty")
  else if ['_', '_'].isPrefixOf segment.toList && ['_', '_'].isSuffixOf segment.toList then
    .error (context.invalidArgument "Invalid data. Document fields cannot begin and end with \"__\"")
  else .ok ()

/-- The context of a field is made before the field's name is looked at. -/
def childContext (fieldName : String) : Except NSException ParseContext := do
  let child : ParseContext := ⟨context.path.map (· ++ [fieldName]), false⟩
  child.validatePathSegment fieldName
  return child

def elementContext : ParseContext := ⟨none, true⟩

end ParseContext

namespace UserDataConverter

open FieldValue ParseContext

def nestedArrays : NSException := invalidArgument "Nested arrays are not supported"

mutual

/-- `parseData:context:`, for objects that come from JSON. -/
def parseData (context : ParseContext) : Json → Except NSException FieldValue
  | .null => .ok .null
  | .bool b => .ok (.boolean b)
  | .integer n =>
    if h : n.1 ≤ 2 ^ 63 - 1 then .ok (.integer ⟨n.1, n.2.1, by omega⟩)
    else .error (context.invalidArgument ("NSNumber (" ++ toString n.1 ++ ") is too large"))
  | .double d => .ok (.double d.1)
  | .string s => .ok (.string s)
  | .array values =>
    if context.arrayElement then .error nestedArrays else (parseArray values).map .array
  | .object members => (parseDictionary context members).map .object

def parseArray : List Json → Except NSException (List FieldValue)
  | [] => .ok []
  | value :: values => do return (← parseData elementContext value) :: (← parseArray values)

def parseDictionary (context : ParseContext) :
    List (String × Json) → Except NSException (List (String × FieldValue))
  | [] => .ok []
  | (key, value) :: members => do
    let child ← context.childContext key
    return (key, ← parseData child value) :: (← parseDictionary context members)

end

def parsedSetData (json : List (String × Json)) : Except NSException (List (String × FieldValue)) :=
  parseDictionary rootContext json

variable {α β : Type}

theorem bind_eq_ok {x : Except NSException α} {f : α → Except NSException β} {b : β} :
    (x >>= f) = .ok b ↔ ∃ a, x = .ok a ∧ f a = .ok b := by
  cases x <;> simp [bind, Except.bind]

theorem map_eq_ok {x : Except NSException α} {f : α → β} {b : β} :
    x.map f = .ok b ↔ ∃ a, x = .ok a ∧ f a = b := by
  cases x <;> simp [Except.map]

mutual

/-- What was written is read back as the JSON it was made from. -/
theorem data_of_parseData {context : ParseContext} : ∀ (json : Json) {value : FieldValue},
    parseData context json = .ok value →
      JSONSerialization.data value.convertedValue = .ok json
  | .null, _, h | .bool _, _, h | .string _, _, h => by
    obtain rfl := Except.ok.inj h
    rfl
  | .integer n, _, h => by
    rw [parseData] at h
    split_ifs at h
    obtain rfl := Except.ok.inj h
    rfl
  | .double d, _, h => by
    obtain rfl := Except.ok.inj h
    exact dif_pos d.2
  | .array values, _, h => by
    rw [parseData] at h
    split_ifs at h
    obtain ⟨fieldValues, hvs, rfl⟩ := map_eq_ok.mp h
    simp only [convertedValue, JSONSerialization.data, data_of_parseArray values hvs]
    rfl
  | .object members, _, h => by
    rw [parseData] at h
    obtain ⟨fields, hfs, rfl⟩ := map_eq_ok.mp h
    simp only [convertedValue, JSONSerialization.data, data_of_parseDictionary members hfs]
    rfl

theorem data_of_parseArray : ∀ (values : List Json) {fieldValues : List FieldValue},
    parseArray values = .ok fieldValues →
      JSONSerialization.dataArray (convertedArray fieldValues) = .ok values
  | [], _, h => by
    obtain rfl := Except.ok.inj h
    rfl
  | json :: values, _, h => by
    rw [parseArray] at h
    obtain ⟨value, hv, h⟩ := bind_eq_ok.mp h
    obtain ⟨fieldValues, hvs, h⟩ := bind_eq_ok.mp h
    obtain rfl := Except.ok.inj h
    simp only [convertedArray, JSONSerialization.dataArray, data_of_parseData json hv,
      data_of_parseArray values hvs]
    rfl

theorem data_of_parseDictionary {context : ParseContext} : ∀ (members : List (String × Json))
    {fields : List (String × FieldValue)}, parseDictionary context members = .ok fields →
      JSONSerialization.dataDictionary (convertedObject fields) = .ok members
  | [], _, h => by
    obtain rfl := Except.ok.inj h
    rfl
  | (key, json) :: members, _, h => by
    rw [parseDictionary] at h
    obtain ⟨_, -, h⟩ := bind_eq_ok.mp h
    obtain ⟨value, hv, h⟩ := bind_eq_ok.mp h
    obtain ⟨fields, hfs, h⟩ := bind_eq_ok.mp h
    obtain rfl := Except.ok.inj h
    simp only [convertedObject, JSONSerialization.dataDictionary, data_of_parseData json hv,
      data_of_parseDictionary members hfs]
    rfl

end

theorem decode_stored {α : Type} [Codable α] (id : String) {json : List (String × Json)}
    {fields : List (String × FieldValue)} (h : parsedSetData json = .ok fields) :
    DocumentSnapshot.decode α ⟨id, some fields⟩ =
      (Codable.decode (.object (Library.Dictionary.set json "id" (.string id)))).mapError .thrown := by
  have hdata := JSONSerialization.dataDictionary_set (data_of_parseDictionary json h) "id" id
  have hset : DocumentSnapshot.decode α ⟨id, some fields⟩ = (do
      let documentData ← (JSONSerialization.data (.dictionary
        (Library.Dictionary.set (convertedObject fields) "id" (.string id)))).mapError .raised
      (Codable.decode documentData).mapError .thrown) := rfl
  rw [hset, JSONSerialization.data, hdata]
  rfl

end UserDataConverter

end Croesus.Firestore
