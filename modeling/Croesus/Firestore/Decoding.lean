import Croesus.Firestore.Value
import Croesus.Models

namespace Croesus.Firestore

open Library FieldValue

mutual

theorem isOk_data : ∀ value : FieldValue,
    (JSONSerialization.data value.convertedValue).isOk = value.isJson
  | .null | .boolean _ | .integer _ | .serverTimestamp | .string _ => rfl
  | .timestamp _ _ | .blob _ | .reference _ | .geoPoint _ _ => rfl
  | .double bits => by
    simp only [convertedValue, JSONSerialization.data, isJson]
    split_ifs with h
    · exact h.symm
    · exact (Bool.eq_false_iff.mpr h).symm
  | .array values => by
    have h := isOk_dataArray values
    simp only [convertedValue, JSONSerialization.data, isJson, ← h]
    cases JSONSerialization.dataArray (convertedArray values) <;> rfl
  | .object fields => by
    have h := isOk_dataDictionary fields
    simp only [convertedValue, JSONSerialization.data, isJson, ← h]
    cases JSONSerialization.dataDictionary (convertedObject fields) <;> rfl

theorem isOk_dataArray : ∀ values : List FieldValue,
    (JSONSerialization.dataArray (convertedArray values)).isOk = isJsonArray values
  | [] => rfl
  | value :: values => by
    have hv := isOk_data value
    have hvs := isOk_dataArray values
    simp only [convertedArray, JSONSerialization.dataArray, isJsonArray, ← hv, ← hvs]
    cases JSONSerialization.data value.convertedValue with
    | error e => rfl
    | ok j => cases JSONSerialization.dataArray (convertedArray values) <;> rfl

theorem isOk_dataDictionary : ∀ fields : List (String × FieldValue),
    (JSONSerialization.dataDictionary (convertedObject fields)).isOk = isJsonObject fields
  | [] => rfl
  | (key, value) :: fields => by
    have hv := isOk_data value
    have hfs := isOk_dataDictionary fields
    simp only [convertedObject, JSONSerialization.dataDictionary, isJsonObject, ← hv, ← hfs]
    cases JSONSerialization.data value.convertedValue with
    | error e => rfl
    | ok j => cases JSONSerialization.dataDictionary (convertedObject fields) <;> rfl

end

theorem data_eq_ok {value : FieldValue} {json : Json}
    (h : JSONSerialization.data value.convertedValue = .ok json) :
    (∀ s, json = .string s → value = .string s) ∧
      (json = .null → value = .null ∨ value = .serverTimestamp) := by
  cases value with
  | double bits =>
    simp only [convertedValue, JSONSerialization.data] at h
    split_ifs at h
    obtain rfl := Except.ok.inj h
    simp
  | array values =>
    simp only [convertedValue, JSONSerialization.data] at h
    cases hvs : JSONSerialization.dataArray (convertedArray values) with
    | error e => simp [hvs, Except.map] at h
    | ok jsons =>
      rw [hvs] at h
      obtain rfl := Except.ok.inj h
      simp
  | object fields =>
    simp only [convertedValue, JSONSerialization.data] at h
    cases hfs : JSONSerialization.dataDictionary (convertedObject fields) with
    | error e => simp [hfs, Except.map] at h
    | ok members =>
      rw [hfs] at h
      obtain rfl := Except.ok.inj h
      simp
  | timestamp _ _ | blob _ | reference _ | geoPoint _ _ => cases h
  | null | boolean _ | integer _ | serverTimestamp | string _ =>
    obtain rfl := Except.ok.inj h
    simp

theorem data_eq_string {value : FieldValue} {s : String} :
    JSONSerialization.data value.convertedValue = .ok (.string s) ↔ value = .string s := by
  constructor
  · intro h
    exact (data_eq_ok h).1 s rfl
  · rintro rfl
    rfl

theorem data_eq_null {value : FieldValue} :
    JSONSerialization.data value.convertedValue = .ok .null ↔
      value = .null ∨ value = .serverTimestamp := by
  constructor
  · intro h
    exact (data_eq_ok h).2 rfl
  · rintro (rfl | rfl) <;> rfl

/-- What a field, or its absence, says about an optional string property. -/
def StoredString (field : Option FieldValue) : Option String → Prop
  | none => field = none ∨ field = some .null ∨ field = some .serverTimestamp
  | some s => field = some (.string s)

section

variable {fields : List (String × FieldValue)} {members : List (String × Json)}

theorem lookup_members
    (h : JSONSerialization.dataDictionary (convertedObject fields) = .ok members) (key : String) :
    (members.lookup key).map Except.ok =
      (fields.lookup key).map (JSONSerialization.data ∘ convertedValue) := by
  rw [JSONSerialization.lookup_dataDictionary h, convertedObject_eq, Dictionary.lookup_mapValues,
    Option.map_map]

theorem lookup_eq_some_iff
    (h : JSONSerialization.dataDictionary (convertedObject fields) = .ok members) (key : String)
    (json : Json) : members.lookup key = some json ↔
      ∃ value, fields.lookup key = some value ∧
        JSONSerialization.data value.convertedValue = .ok json := by
  have hl := lookup_members h key
  generalize members.lookup key = member at hl ⊢
  generalize fields.lookup key = field at hl ⊢
  cases member with
  | none => cases field <;> simp_all
  | some json' =>
    cases field with
    | none => simp at hl
    | some value =>
      have hv : Except.ok json' = JSONSerialization.data value.convertedValue := by simpa using hl
      simp [← hv]

theorem lookup_eq_none_iff
    (h : JSONSerialization.dataDictionary (convertedObject fields) = .ok members) (key : String) :
    members.lookup key = none ↔ fields.lookup key = none := by
  rw [← Option.map_eq_none_iff (f := (Except.ok : Json → Except NSException Json)),
    lookup_members h, Option.map_eq_none_iff]

theorem decodeString_iff
    (h : JSONSerialization.dataDictionary (convertedObject fields) = .ok members)
    (key s : String) :
    Codable.decodeString members key = .ok s ↔ fields.lookup key = some (.string s) := by
  rw [Codable.decodeString_iff, lookup_eq_some_iff h]
  simp [data_eq_string]

theorem decodeStringIfPresent_iff
    (h : JSONSerialization.dataDictionary (convertedObject fields) = .ok members)
    (key : String) (value : Option String) :
    Codable.decodeStringIfPresent members key = .ok value ↔
      StoredString (fields.lookup key) value := by
  rw [Codable.decodeStringIfPresent_iff, lookup_eq_none_iff h]
  simp only [lookup_eq_some_iff h, data_eq_string, data_eq_null]
  cases value with
  | none => simp [StoredString, and_or_left, exists_or]
  | some s => simp [StoredString]

end

namespace DocumentSnapshot

/-- What is decoded: the fields with the document's identifier put in under "id". -/
def withId (documentID : String) (fields : List (String × FieldValue)) :
    List (String × FieldValue) :=
  Dictionary.set fields "id" (.string documentID)

def documentJson (includingId : Bool) (documentID : String) (fields : List (String × FieldValue)) :
    List (String × FieldValue) :=
  if includingId then withId documentID fields else fields

theorem isJson_documentJson (includingId : Bool) (documentID : String)
    (fields : List (String × FieldValue)) :
    (FieldValue.object (documentJson includingId documentID fields)).isJson ↔
      ∀ field ∈ fields, (includingId → field.1 ≠ "id") → field.2.isJson := by
  rw [isJson, isJsonObject_iff]
  cases includingId with
  | false => simp [documentJson]
  | true =>
    rw [documentJson, if_pos rfl, withId]
    constructor
    · intro h field hf hid
      exact h field ((Dictionary.mem_set _ _ _ _).mpr (.inr ⟨hf, hid rfl⟩))
    · intro h field hf
      rcases (Dictionary.mem_set _ _ _ _).mp hf with rfl | ⟨hf, hid⟩
      · rfl
      · exact h field hf fun _ ↦ hid

variable {α : Type} [Codable α]

theorem decode_documentJson (includingId : Bool) (documentID : String)
    (fields : List (String × FieldValue)) :
    decode α ⟨documentID, some fields⟩ includingId = (do
      let documentData ← (JSONSerialization.data
        (FieldValue.object (documentJson includingId documentID fields)).convertedValue).mapError
          .raised
      (Codable.decode documentData).mapError .thrown) := by
  cases includingId with
  | false => rfl
  | true =>
    have hset : Dictionary.set (convertedObject fields) "id" (.string documentID) =
        convertedObject (withId documentID fields) := by
      rw [convertedObject_eq, convertedObject_eq, withId, ← Dictionary.set_mapValues]
      rfl
    simp only [decode, data, Option.map_some, if_true, hset]
    rfl

theorem decode_eq (documentID : String) (fields : List (String × FieldValue)) :
    decode α ⟨documentID, some fields⟩ = (do
      let documentData ← (JSONSerialization.data
        (FieldValue.object (withId documentID fields)).convertedValue).mapError .raised
      (Codable.decode documentData).mapError .thrown) :=
  decode_documentJson true documentID fields

theorem decode_of_dataDictionary {documentID : String} {fields : List (String × FieldValue)}
    {members : List (String × Json)} (h : JSONSerialization.dataDictionary
      (convertedObject (withId documentID fields)) = .ok members) :
    decode α ⟨documentID, some fields⟩ =
      (Codable.decode (.object members)).mapError .thrown := by
  rw [decode_eq, convertedValue, JSONSerialization.data, h]
  rfl

theorem dataDictionary_of_decode {documentID : String} {fields : List (String × FieldValue)} {x : α}
    (h : decode α ⟨documentID, some fields⟩ = .ok x) :
    ∃ members, JSONSerialization.dataDictionary
      (convertedObject (withId documentID fields)) = .ok members ∧
        Codable.decode (.object members) = .ok x := by
  cases hd : JSONSerialization.dataDictionary (convertedObject (withId documentID fields)) with
  | error e =>
    rw [decode_eq, convertedValue, JSONSerialization.data, hd] at h
    cases h
  | ok members =>
    rw [decode_of_dataDictionary hd] at h
    cases hx : (Codable.decode (.object members) : Except DecodingError α) with
    | error e =>
      rw [hx] at h
      cases h
    | ok y =>
      rw [hx] at h
      exact ⟨members, rfl, by rw [← Except.ok.inj h, hx]⟩

/-- Decoding has ended with a value or with an error that the callers handle. -/
def Handled {α : Type} (decoded : Except Failure α) : Prop :=
  (∃ x, decoded = .ok x) ∨ ∃ e, decoded = .error (.thrown e)

theorem handled_iff_isJson (includingId : Bool) (documentID : String)
    (fields : List (String × FieldValue)) :
    Handled (decode α ⟨documentID, some fields⟩ includingId) ↔
      (FieldValue.object (documentJson includingId documentID fields)).isJson := by
  rw [decode_documentJson, ← isOk_data]
  cases JSONSerialization.data
      (FieldValue.object (documentJson includingId documentID fields)).convertedValue with
  | error e =>
    -- an exception of `JSONSerialization` is not a Swift error
    refine iff_of_false ?_ Bool.false_ne_true
    rintro (⟨x, hx⟩ | ⟨e', he⟩)
    · cases hx
    · cases he
  | ok documentData =>
    refine iff_of_true ?_ rfl
    have hdecode : ((Except.ok documentData : Except NSException Json).mapError Failure.raised >>=
        fun documentData ↦ (Codable.decode documentData : Except DecodingError α).mapError .thrown) =
        (Codable.decode documentData).mapError .thrown := rfl
    rw [hdecode]
    cases (Codable.decode documentData : Except DecodingError α) with
    | error e => exact .inr ⟨e, rfl⟩
    | ok x => exact .inl ⟨x, rfl⟩

/-- Decoding an existing document, as any model, ends with a value or with an
error that the callers handle exactly if every field holds a JSON value; the
value of "id" is replaced before anything looks at it, if the identifier is
included. -/
theorem decode_handled_iff (includingId : Bool) (documentID : String)
    (fields : List (String × FieldValue)) :
    Handled (decode α ⟨documentID, some fields⟩ includingId) ↔
      ∀ field ∈ fields, (includingId → field.1 ≠ "id") → field.2.isJson := by
  rw [handled_iff_isJson, isJson_documentJson]

/-- A timestamp in a field that the model does not have makes decoding raise. -/
theorem decode_timestamp :
    ¬ ∀ (includingId : Bool) (documentID : String) (fields : List (String × FieldValue)),
      Handled (decode UserData ⟨documentID, some fields⟩ includingId) := by
  intro h
  have hraised : decode UserData ⟨"u", some [("joined", .timestamp 1585000000 0)]⟩ =
      .error (.raised (JSONSerialization.invalidType "FIRTimestamp")) := rfl
  rcases h true "u" [("joined", .timestamp 1585000000 0)] with ⟨user, hok⟩ | ⟨e, he⟩
  · cases hraised.symm.trans hok
  · cases hraised.symm.trans he

end DocumentSnapshot

end Croesus.Firestore
