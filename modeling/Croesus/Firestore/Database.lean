import Croesus.Firestore.Value
import Croesus.Library.Lists
import Mathlib.Logic.Function.Basic

namespace Croesus.Firestore

open Library

/-- The collections of the app, with their names as raw values. -/
inductive FIRCollectionReference
  | users | questions | responses
  deriving DecidableEq

def FIRCollectionReference.rawValue : FIRCollectionReference → String
  | .users => "users"
  | .questions => "questions"
  | .responses => "responses"

namespace ResourcePath

def doubleSlash : List Char → Bool
  | '/' :: '/' :: _ => true
  | _ :: cs => doubleSlash cs
  | [] => false

def invalidPath (path : String) : NSException :=
  hardAssert ("Invalid path (" ++ path ++ "). Paths must not contain // in them.")
    "path.find(\"//\") == std::string::npos"

def canonicalString (path : List String) : String := "/".intercalate path

/-- The segments between slashes, the empty ones left out. -/
def fromString (path : String) : Except NSException (List String) :=
  if doubleSlash path.toList then .error (invalidPath path)
  else .ok ((path.toList.splitOn '/').filter (· ≠ []) |>.map String.ofList)

end ResourcePath

/-- The path of a document, with collections and documents alternating. -/
structure DocumentKey where
  path : List String
  even : path.length % 2 = 0
  deriving DecidableEq

namespace DocumentKey

def invalidReference (path : List String) : NSException :=
  assertionFailure ("Invalid document reference. Document references must have an even number " ++
    "of segments, but " ++ ResourcePath.canonicalString path ++ " has " ++ toString path.length)

def child (collection : FIRCollectionReference) (segment : String) : DocumentKey :=
  ⟨[collection.rawValue, segment], by simp⟩

/-- `reference(to:).document(_:)` -/
def document (collection : FIRCollectionReference) (documentPath : String) :
    Except NSException DocumentKey := do
  let subPath ← ResourcePath.fromString documentPath
  let path := collection.rawValue :: subPath
  if h : path.length % 2 = 0 then return ⟨path, h⟩ else throw (invalidReference path)

def documentID (key : DocumentKey) : String := key.path.getLast?.getD ""

end DocumentKey

abbrev Fields := List (String × FieldValue)

abbrev Database := DocumentKey → Option Fields

namespace Database

def setData (db : Database) (key : DocumentKey) (fields : Fields) : Database :=
  Function.update db key (some fields)

def getDocument (db : Database) (key : DocumentKey) : DocumentSnapshot :=
  ⟨key.documentID, db key⟩

def IsListed (db : Database) (collection : FIRCollectionReference)
    (documents : List DocumentSnapshot) : Prop :=
  ∀ document : DocumentSnapshot, document ∈ documents ↔
    document.fields.isSome ∧ db (.child collection document.documentID) = document.fields

end Database

def IsSegment (s : String) : Prop := s ≠ "" ∧ '/' ∉ s.toList

instance (s : String) : Decidable (IsSegment s) := inferInstanceAs (Decidable (_ ∧ _))

namespace DocumentKey

theorem rawValue_inj {c c' : FIRCollectionReference} : c.rawValue = c'.rawValue ↔ c = c' := by
  cases c <;> cases c' <;> decide

theorem child_inj {c c' : FIRCollectionReference} {s s' : String} :
    child c s = child c' s' ↔ c = c' ∧ s = s' := by
  simp [child, rawValue_inj]

theorem doubleSlash_eq_false {cs : List Char} (h : '/' ∉ cs) :
    ResourcePath.doubleSlash cs = false := by
  induction cs with
  | nil => rfl
  | cons c cs ih =>
    obtain ⟨hc, hcs⟩ := not_or.mp (mt List.mem_cons.mpr h)
    unfold ResourcePath.doubleSlash
    split
    · simp_all
    · simp_all
    · rfl

theorem fromString_segment {s : String} (h : IsSegment s) :
    ResourcePath.fromString s = .ok [s] := by
  have hne : s.toList ≠ [] := fun he ↦ h.1 (String.toList_inj.mp he)
  rw [ResourcePath.fromString, doubleSlash_eq_false h.2, List.splitOn_eq_singleton h.2]
  simp [hne]

theorem isSegment_of_fromString {s t : String} {path : List String}
    (h : ResourcePath.fromString s = .ok path) (ht : t ∈ path) : IsSegment t := by
  unfold ResourcePath.fromString at h
  split_ifs at h
  obtain rfl := Except.ok.inj h
  obtain ⟨cs, hcs, rfl⟩ := List.mem_map.mp ht
  obtain ⟨hmem, hne⟩ := List.mem_filter.mp hcs
  constructor
  · simpa using hne
  · simpa using Lists.notMem_of_mem_splitOn hmem

theorem document_eq_child_iff (collection collection' : FIRCollectionReference) (s : String) :
    document collection s = .ok (child collection' s) ↔ collection = collection' ∧ IsSegment s := by
  constructor
  · intro h
    rw [document] at h
    cases hs : ResourcePath.fromString s with
    | error e => simp [hs, bind, Except.bind] at h
    | ok path =>
      simp only [hs, bind, Except.bind] at h
      split_ifs at h with heven
      have hp := congrArg DocumentKey.path (Except.ok.inj h)
      obtain ⟨hc, rfl⟩ : collection.rawValue = collection'.rawValue ∧ path = [s] := by
        simpa [child] using hp
      exact ⟨rawValue_inj.mp hc, isSegment_of_fromString hs (by simp)⟩
  · rintro ⟨rfl, hs⟩
    simp [document, fromString_segment hs, child, bind, Except.bind, pure, Except.pure]

theorem document_segment (collection : FIRCollectionReference) {s : String} (h : IsSegment s) :
    document collection s = .ok (child collection s) :=
  (document_eq_child_iff collection collection s).mpr ⟨rfl, h⟩

end DocumentKey

theorem Database.setData_empty_inj {key key' : DocumentKey} {fields fields' : Fields}
    (h : Database.setData (fun _ ↦ none) key fields = Database.setData (fun _ ↦ none) key' fields') :
    key = key' := by
  by_contra hne
  have hk := congrFun h key
  simp [setData, Function.update_of_ne hne] at hk

namespace Database.IsListed

variable {collection : FIRCollectionReference} {id : String}

theorem empty : IsListed (fun _ ↦ none) collection [] := by
  rintro ⟨id, _ | fields⟩ <;> simp

theorem notMem {db : Database} {documents : List DocumentSnapshot}
    (h : db.IsListed collection documents) (hnew : db (.child collection id) = none)
    (fields : Option Fields) : ⟨id, fields⟩ ∉ documents := by
  intro hmem
  obtain ⟨hsome, heq⟩ := (h _).mp hmem
  rw [← heq, hnew] at hsome
  cases hsome

theorem setData {db : Database} {documents : List DocumentSnapshot}
    (h : db.IsListed collection documents) (hnew : db (.child collection id) = none)
    (fields : Fields) : IsListed (db.setData (.child collection id) fields) collection
      (⟨id, some fields⟩ :: documents) := by
  rintro ⟨id', fields'⟩
  by_cases hid : id' = id
  · subst hid
    rw [List.mem_cons, DocumentSnapshot.mk.injEq, Database.setData, Function.update_self]
    simp only [true_and, h.notMem hnew fields', or_false]
    constructor
    · rintro rfl
      exact ⟨rfl, rfl⟩
    · rintro ⟨-, hfields⟩
      exact hfields.symm
  · have hkey : DocumentKey.child collection id' ≠ .child collection id := by
      simpa [DocumentKey.child_inj] using hid
    rw [List.mem_cons, h, Database.setData, Function.update_of_ne hkey]
    simp [hid]

theorem setData_of_ne {db : Database} {documents : List DocumentSnapshot} {key : DocumentKey}
    (h : db.IsListed collection documents) (hkey : ∀ id, .child collection id ≠ key)
    (fields : Fields) : IsListed (db.setData key fields) collection documents := by
  intro document
  rw [h, Database.setData, Function.update_of_ne (hkey document.documentID)]

end Database.IsListed

end Croesus.Firestore
