import Croesus.Foundation

namespace Croesus

/-- A user's profile. The identifier is not part of the stored document. -/
structure UserData where
  id : Option String := none
  firstName : Option String
  lastName : Option String
  userEmail : Option String
  photoUrl : Option String
  deriving DecidableEq

structure Questions where
  Question : String
  date : String
  deriving DecidableEq

structure Survey where
  question : String
  answer : String
  fullNames : String
  email : String
  deriving DecidableEq

namespace UserData

/-- The memberwise initialiser of the source: every field is given. -/
def ofFields (firstName lastName userEmail photoUrl : String) (id : String := "") : UserData :=
  ⟨some id, some firstName, some lastName, some userEmail, some photoUrl⟩

def isComplete (u : UserData) : Bool :=
  u.firstName.isSome && u.lastName.isSome && u.userEmail.isSome

/-- The synthesised conformance: absent optionals are left out, and an absent
or null member is read as nil. -/
instance : Codable UserData where
  encode u := .ok <| .object <|
    Codable.encodeStringIfPresent "id" u.id ++
    Codable.encodeStringIfPresent "firstName" u.firstName ++
    Codable.encodeStringIfPresent "lastName" u.lastName ++
    Codable.encodeStringIfPresent "userEmail" u.userEmail ++
    Codable.encodeStringIfPresent "photoUrl" u.photoUrl
  decode
    | .object members => do
      return {
        id := ← Codable.decodeStringIfPresent members "id"
        firstName := ← Codable.decodeStringIfPresent members "firstName"
        lastName := ← Codable.decodeStringIfPresent members "lastName"
        userEmail := ← Codable.decodeStringIfPresent members "userEmail"
        photoUrl := ← Codable.decodeStringIfPresent members "photoUrl" }
    | _ => .error (.typeMismatch "")

theorem decode_iff {members : List (String × Json)} {u : UserData} :
    Codable.decode (.object members) = .ok u ↔
      Codable.decodeStringIfPresent members "id" = .ok u.id ∧
      Codable.decodeStringIfPresent members "firstName" = .ok u.firstName ∧
      Codable.decodeStringIfPresent members "lastName" = .ok u.lastName ∧
      Codable.decodeStringIfPresent members "userEmail" = .ok u.userEmail ∧
      Codable.decodeStringIfPresent members "photoUrl" = .ok u.photoUrl := by
  obtain ⟨id, firstName, lastName, userEmail, photoUrl⟩ := u
  simp only [Codable.decode]
  cases Codable.decodeStringIfPresent members "id" <;>
    cases Codable.decodeStringIfPresent members "firstName" <;>
    cases Codable.decodeStringIfPresent members "lastName" <;>
    cases Codable.decodeStringIfPresent members "userEmail" <;>
    cases Codable.decodeStringIfPresent members "photoUrl" <;>
    simp [bind, Except.bind, pure, Except.pure]

end UserData

instance : Codable Questions where
  encode q := .ok (.object [("Question", .string q.Question), ("date", .string q.date)])
  decode
    | .object members => do
      return ⟨← Codable.decodeString members "Question", ← Codable.decodeString members "date"⟩
    | _ => .error (.typeMismatch "")

theorem Questions.decode_iff {members : List (String × Json)} {q : Questions} :
    Codable.decode (.object members) = .ok q ↔
      Codable.decodeString members "Question" = .ok q.Question ∧
      Codable.decodeString members "date" = .ok q.date := by
  obtain ⟨question, date⟩ := q
  simp only [Codable.decode]
  cases Codable.decodeString members "Question" <;> cases Codable.decodeString members "date" <;>
    simp [bind, Except.bind, pure, Except.pure]

instance : Codable Survey where
  encode s := .ok (.object [("question", .string s.question), ("answer", .string s.answer),
    ("fullNames", .string s.fullNames), ("email", .string s.email)])
  decode
    | .object members => do
      return ⟨← Codable.decodeString members "question", ← Codable.decodeString members "answer",
        ← Codable.decodeString members "fullNames", ← Codable.decodeString members "email"⟩
    | _ => .error (.typeMismatch "")

end Croesus
