import Croesus.Firestore.Decoding
import Croesus.Managers.FIRFirestoreService

namespace Croesus.FIRFirestoreService

open Firestore Library Codable

def profileJson (u : UserData) : List (String × Json) :=
  encodeStringIfPresent "firstName" u.firstName ++ encodeStringIfPresent "lastName" u.lastName ++
    encodeStringIfPresent "userEmail" u.userEmail ++ encodeStringIfPresent "photoUrl" u.photoUrl

theorem toJson_profile (u : UserData) : toJson u ["id"] = .ok (profileJson u) := by
  have herase : toJson u ["id"] = .ok (Dictionary.erase
      (encodeStringIfPresent "id" u.id ++ encodeStringIfPresent "firstName" u.firstName ++
        encodeStringIfPresent "lastName" u.lastName ++
        encodeStringIfPresent "userEmail" u.userEmail ++
        encodeStringIfPresent "photoUrl" u.photoUrl) "id") := rfl
  rw [herase]
  simp [Dictionary.erase_append, erase_encodeStringIfPresent, profileJson]

def IsFieldName (key : String) : Prop := ∃ child, ParseContext.rootContext.childContext key = .ok child

theorem parsedSetData_strings {json : List (String × Json)}
    (h : ∀ member ∈ json, IsFieldName member.1 ∧ ∃ s, member.2 = .string s) :
    ∃ fields, UserDataConverter.parsedSetData json = .ok fields := by
  induction json with
  | nil => exact ⟨[], rfl⟩
  | cons member json ih =>
    obtain ⟨key, value⟩ := member
    obtain ⟨⟨child, hkey⟩, s, rfl⟩ := h (key, value) (by simp)
    obtain ⟨fields, hfields⟩ := ih fun m hm ↦ h m (by simp [hm])
    refine ⟨(key, .string s) :: fields, ?_⟩
    rw [UserDataConverter.parsedSetData] at hfields ⊢
    simp only [UserDataConverter.parseDictionary, hkey, hfields]
    rfl

theorem parsedSetData_profile (u : UserData) :
    ∃ fields, UserDataConverter.parsedSetData (profileJson u) = .ok fields := by
  have hmem (key : String) (value : Option String) (hkey : IsFieldName key) :
      ∀ member ∈ encodeStringIfPresent key value,
        IsFieldName member.1 ∧ ∃ s, member.2 = .string s := by
    cases value with
    | none => simp [encodeStringIfPresent]
    | some s => simp [encodeStringIfPresent, hkey]
  apply parsedSetData_strings
  intro member hm
  simp only [profileJson, List.mem_append] at hm
  rcases hm with ((hm | hm) | hm) | hm
  · exact hmem "firstName" _ ⟨_, rfl⟩ member hm
  · exact hmem "lastName" _ ⟨_, rfl⟩ member hm
  · exact hmem "userEmail" _ ⟨_, rfl⟩ member hm
  · exact hmem "photoUrl" _ ⟨_, rfl⟩ member hm

theorem lookup_profileJson (u : UserData) (id key : String) (hkey : key ≠ "id") :
    (Dictionary.set (profileJson u) "id" (.string id)).lookup key =
      ((((if key = "firstName" then u.firstName.map Json.string else none).or
        (if key = "lastName" then u.lastName.map Json.string else none)).or
        (if key = "userEmail" then u.userEmail.map Json.string else none)).or
        (if key = "photoUrl" then u.photoUrl.map Json.string else none)) := by
  rw [Dictionary.lookup_set_ne _ _ _ hkey, profileJson]
  simp only [List.lookup_append, lookup_encodeStringIfPresent]

theorem decode_profileJson (u : UserData) (id : String) :
    Codable.decode (.object (Dictionary.set (profileJson u) "id" (.string id))) =
      .ok { u with id := some id } := by
  refine UserData.decode_iff.mpr ⟨decodeStringIfPresent_eq (Dictionary.lookup_set_self _ _ _),
    decodeStringIfPresent_eq ?_, decodeStringIfPresent_eq ?_, decodeStringIfPresent_eq ?_,
    decodeStringIfPresent_eq ?_⟩
  · simp [lookup_profileJson]
  · simp [lookup_profileJson]
  · simp [lookup_profileJson]
  · simp [lookup_profileJson]

theorem getUserProfile_eq {uid : String} (h : IsSegment uid) (db : Database) :
    getUserProfile uid db = profileCallback (some ⟨uid, db (.child .users uid)⟩) := by
  rw [getUserProfile, DocumentKey.document_segment .users h]
  rfl

theorem create_profile {uid : String} (h : IsSegment uid) (u : UserData)
    (c : FIRCollectionReference) (db : Database) {fields : Fields}
    (hfields : UserDataConverter.parsedSetData (profileJson u) = .ok fields) :
    create u uid c db = (db.setData (.child .users uid) fields, .issued) := by
  simp only [create, store, toJson_profile, DocumentKey.document_segment .users h, hfields]

/-- What a user's document looks like once it decodes. -/
structure StoredProfile (documentID : String) (fields : Fields) (u : UserData) : Prop where
  id : u.id = some documentID
  firstName : StoredString (fields.lookup "firstName") u.firstName
  lastName : StoredString (fields.lookup "lastName") u.lastName
  userEmail : StoredString (fields.lookup "userEmail") u.userEmail
  photoUrl : StoredString (fields.lookup "photoUrl") u.photoUrl

theorem storedProfile_of_decode {documentID : String} {fields : Fields} {u : UserData}
    (h : DocumentSnapshot.decode UserData ⟨documentID, some fields⟩ = .ok u) :
    StoredProfile documentID fields u := by
  obtain ⟨members, hdata, hdecode⟩ := DocumentSnapshot.dataDictionary_of_decode h
  obtain ⟨hid, hfirst, hlast, hemail, hphoto⟩ := UserData.decode_iff.mp hdecode
  have hfield (key : String) (hkey : key ≠ "id") (value : Option String)
      (hv : decodeStringIfPresent members key = .ok value) :
      StoredString (fields.lookup key) value := by
    rw [Firestore.decodeStringIfPresent_iff hdata, DocumentSnapshot.withId,
      Dictionary.lookup_set_ne _ _ _ hkey] at hv
    exact hv
  constructor
  · rw [Firestore.decodeStringIfPresent_iff hdata, DocumentSnapshot.withId,
      Dictionary.lookup_set_self] at hid
    cases hu : u.id with
    | none => simp [StoredString, hu] at hid
    | some s =>
      rw [hu] at hid
      simpa [StoredString, eq_comm] using hid
  · exact hfield "firstName" (by decide) _ hfirst
  · exact hfield "lastName" (by decide) _ hlast
  · exact hfield "userEmail" (by decide) _ hemail
  · exact hfield "photoUrl" (by decide) _ hphoto

theorem id_of_profileCallback {document : DocumentSnapshot} {user : UserData}
    (h : profileCallback (some document) = .delivered user) :
    user.id = some document.documentID := by
  obtain ⟨documentID, fields⟩ := document
  cases fields with
  | none => simp [profileCallback] at h
  | some fields =>
    have hd : Delivery.ofDecoded (DocumentSnapshot.decode UserData ⟨documentID, some fields⟩) =
        .delivered user := by simpa [profileCallback] using h
    exact (storedProfile_of_decode (Delivery.ofDecoded_delivered hd)).id

theorem decode_profile (id : String) {u : UserData} {fields : Fields}
    (hfields : UserDataConverter.parsedSetData (profileJson u) = .ok fields) :
    DocumentSnapshot.decode UserData ⟨id, some fields⟩ = .ok { u with id := some id } := by
  rw [UserDataConverter.decode_stored id hfields, decode_profileJson]
  rfl

theorem profileCallback_stored (id : String) {u : UserData} {fields : Fields}
    (hfields : UserDataConverter.parsedSetData (profileJson u) = .ok fields) :
    profileCallback (some ⟨id, some fields⟩) = .delivered { u with id := some id } := by
  simp [profileCallback, decode_profile id hfields, Delivery.ofDecoded]

/-- A profile that was created under an identifier without slashes is fetched
again, with that identifier; storing it again changes nothing; and whatever
decodes has the document's identifier and the fields that are stored. -/
theorem profile_roundtrip (uid : String) (h : IsSegment uid) (u : UserData)
    (c c' : FIRCollectionReference) (db db' : Database)
    (hsame : db' (.child .users uid) = (create u uid c db).1 (.child .users uid)) :
    getUserProfile uid db' = .delivered { u with id := some uid } ∧
      (update { u with id := some uid } c' db').1 = db' ∧
      ∀ (documentID : String) (fields : Fields) (x : UserData),
        DocumentSnapshot.decode UserData ⟨documentID, some fields⟩ = .ok x →
          StoredProfile documentID fields x := by
  obtain ⟨fields, hfields⟩ := parsedSetData_profile u
  have hstored : db' (.child .users uid) = some fields := by
    rw [hsame, create_profile h u c db hfields]
    simp [Database.setData]
  refine ⟨?_, ?_, fun documentID fields x hx ↦ storedProfile_of_decode hx⟩
  · rw [getUserProfile_eq h, hstored]
    exact profileCallback_stored uid hfields
  · have hjson : toJson { u with id := some uid } ["id"] = .ok (profileJson u) := toJson_profile _
    have hupdate : (update { u with id := some uid } c' db').1 =
        db'.setData (.child .users uid) fields := by
      simp only [update, Identifiable.id, store, hjson, DocumentKey.document_segment .users h,
        hfields]
    rw [hupdate, Database.setData, ← hstored, Function.update_eq_self]

theorem profile_roundtrip_created :
    getUserProfile "u" (create (UserData.ofFields "Ann" "Lee" "ann@lee" "url") "u" .questions
        fun _ ↦ none).1 = .delivered (UserData.ofFields "Ann" "Lee" "ann@lee" "url" "u") :=
  (profile_roundtrip "u" (by decide) (UserData.ofFields "Ann" "Lee" "ann@lee" "url")
    .questions .users (fun _ ↦ none) _ rfl).1

/-- A slash in front of an identifier gets lost. -/
theorem profile_slash :
    ¬ ∀ (uid : String) (u : UserData) (c : FIRCollectionReference) (db : Database), uid ≠ "" →
      getUserProfile uid (create u uid c db).1 = .delivered { u with id := some uid } := by
  intro h
  let u := UserData.ofFields "Ann" "Lee" "ann@lee" "url"
  obtain ⟨fields, hfields⟩ := parsedSetData_profile u
  have hkey : DocumentKey.document .users "/a" = .ok (.child .users "a") := by decide +kernel
  have hcreate : (create u "/a" .users fun _ ↦ none).1 =
      Database.setData (fun _ ↦ none) (.child .users "a") fields := by
    simp only [create, store, toJson_profile, hkey, hfields]
  have hread : getUserProfile "/a" (create u "/a" .users fun _ ↦ none).1 =
      profileCallback (some ⟨"a", some fields⟩) := by
    have hget : Database.getDocument (Database.setData (fun _ ↦ none) (.child .users "a") fields)
        (.child .users "a") = ⟨"a", some fields⟩ := by
      rw [Database.getDocument, Database.setData, Function.update_self]
      rfl
    rw [getUserProfile, hkey, hcreate, ← hget]
  have hu := h "/a" u .users (fun _ ↦ none) (by decide)
  rw [hread, profileCallback_stored "a" hfields] at hu
  have hid := congrArg UserData.id (Delivery.delivered.inj hu)
  exact absurd hid (by decide)

end Croesus.FIRFirestoreService
