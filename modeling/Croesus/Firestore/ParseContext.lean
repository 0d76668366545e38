import Croesus.Firestore.UserDataConverter

namespace Croesus.Firestore.ParseContext

open UserDataConverter

/-- What Firestore does not take. -/
inductive Fault
  | emptyField
  | reservedField
  | tooLarge (n : NSNumberInteger)
  | nestedArrays

/-- The exception for a fault at a place, which is not given for nested arrays. -/
def Fault.exception (place : Option (List String)) : Fault → NSException
  | .emptyField => Firestore.invalidArgument
      ("Invalid data. Document fields must not be empty" ++ fieldDescription place)
  | .reservedField => Firestore.invalidArgument
      ("Invalid data. Document fields cannot begin and end with \"__\"" ++ fieldDescription place)
  | .tooLarge n => Firestore.invalidArgument
      ("NSNumber (" ++ toString n.1 ++ ") is too large" ++ fieldDescription place)
  | .nestedArrays => Firestore.invalidArgument "Nested arrays are not supported"

def Reserved (segment : String) : Prop :=
  ['_', '_'] <+: segment.toList ∧ ['_', '_'] <:+ segment.toList

/-- The data, an element of an array or not, has a fault at a place. -/
inductive Faulty : Bool → Json → Option (List String) → Fault → Prop
  | tooLarge {b n} (h : 2 ^ 63 - 1 < n.1) : Faulty b (.integer n) (some []) (.tooLarge n)
  | nestedArrays {values} : Faulty true (.array values) none .nestedArrays
  | emptyField {b members value} (h : ("", value) ∈ members) :
    Faulty b (.object members) (some [""]) .emptyField
  | reservedField {b members key value} (h : (key, value) ∈ members) (hkey : Reserved key) :
    Faulty b (.object members) (some [key]) .reservedField
  | field {b members key value place fault} (h : (key, value) ∈ members)
    (hvalue : Faulty false value place fault) :
    Faulty b (.object members) (place.map (key :: ·)) fault
  | element {b values value place fault} (h : value ∈ values)
    (hvalue : Faulty true value place fault) : Faulty b (.array values) none fault

variable (context : ParseContext)

/-- The place within the whole data of a place below the context. -/
def below (place : Option (List String)) : Option (List String) :=
  context.path.bind fun path ↦ place.map (path ++ ·)

variable {context}

@[simp] theorem below_none : context.below none = none := by
  cases hpath : context.path <;> simp [below, hpath]

theorem below_nil : context.below (some []) = context.path := by
  cases hpath : context.path <;> simp [below, hpath]

theorem below_singleton (key : String) :
    context.below (some [key]) = context.path.map (· ++ [key]) := by
  cases hpath : context.path <;> simp [below, hpath]

theorem below_map {child : ParseContext} {key : String}
    (h : child.path = context.path.map (· ++ [key])) (place : Option (List String)) :
    child.below place = context.below (place.map (key :: ·)) := by
  cases hpath : context.path <;> cases place <;> simp [below, h, hpath]

theorem below_root (place : Option (List String)) : rootContext.below place = place := by
  cases place <;> simp [below, rootContext]

/-- What becomes of a field's name. -/
theorem childContext_cases (context : ParseContext) (key : String) :
    (context.childContext key = .ok ⟨context.path.map (· ++ [key]), false⟩ ∧ key ≠ "" ∧
      ¬ Reserved key) ∨
    (context.childContext key = .error (Fault.emptyField.exception (context.below (some [key]))) ∧
      key = "") ∨
    (context.childContext key = .error (Fault.reservedField.exception (context.below (some [key]))) ∧
      Reserved key) := by
  rw [below_singleton, childContext, validatePathSegment]
  split_ifs with hempty hreserved
  · exact .inr (.inl ⟨rfl, hempty⟩)
  · exact .inr (.inr ⟨rfl, by simpa [Reserved] using hreserved⟩)
  · exact .inl ⟨rfl, hempty, by simpa [Reserved] using hreserved⟩

theorem childContext_eq_ok {key : String} {child : ParseContext} :
    context.childContext key = .ok child ↔
      key ≠ "" ∧ ¬ Reserved key ∧ ⟨context.path.map (· ++ [key]), false⟩ = child := by
  obtain ⟨hcase, hempty, hreserved⟩ | ⟨hcase, rfl⟩ | ⟨hcase, hreserved⟩ :=
    childContext_cases context key
  · simp [hcase, hempty, hreserved]
  · simp [hcase]
  · simp [hcase, hreserved]

theorem Faulty.cons {b : Bool} {members : List (String × Json)} {place : Option (List String)}
    {fault : Fault} (h : Faulty b (.object members) place fault) (member : String × Json) :
    Faulty b (.object (member :: members)) place fault := by
  cases h with
  | emptyField h => exact .emptyField (List.mem_cons_of_mem _ h)
  | reservedField h hkey => exact .reservedField (List.mem_cons_of_mem _ h) hkey
  | field h hvalue => exact .field (List.mem_cons_of_mem _ h) hvalue

theorem bind_eq_error {α β : Type} {x : Except NSException α} {f : α → Except NSException β}
    {e : NSException} (h : (x >>= f) = .error e) :
    x = .error e ∨ ∃ a, x = .ok a ∧ f a = .error e := by
  cases x with
  | error e' =>
    obtain rfl : e' = e := Except.error.inj h
    exact .inl rfl
  | ok a => exact .inr ⟨a, rfl, h⟩

theorem map_eq_error {α β : Type} {x : Except NSException α} {f : α → β} {e : NSException}
    (h : x.map f = .error e) : x = .error e := by
  cases x with
  | error e' =>
    obtain rfl : e' = e := Except.error.inj h
    rfl
  | ok a => cases h

mutual

/-- What is raised is raised for a fault and names its place. -/
theorem parseData_error (context : ParseContext) : ∀ (json : Json) {e : NSException},
    parseData context json = .error e → ∃ place fault,
      Faulty context.arrayElement json place fault ∧ e = fault.exception (context.below place)
  | .null, _, h | .bool _, _, h | .double _, _, h | .string _, _, h => by cases h
  | .integer n, _, h => by
    rw [parseData] at h
    split_ifs at h with hn
    obtain rfl := Except.error.inj h
    refine ⟨some [], .tooLarge n, .tooLarge (Int.not_le.mp hn), ?_⟩
    rw [below_nil]
    rfl
  | .array values, _, h => by
    rw [parseData] at h
    split_ifs at h with helement
    · obtain rfl := Except.error.inj h
      rw [helement]
      exact ⟨none, .nestedArrays, .nestedArrays, rfl⟩
    · obtain ⟨value, hvalue, place, fault, hfault, rfl⟩ := parseArray_error values (map_eq_error h)
      exact ⟨none, fault, .element hvalue hfault, by rw [below_none]⟩
  | .object members, _, h => by
    rw [parseData] at h
    exact parseDictionary_error context members (map_eq_error h)

theorem parseArray_error : ∀ (values : List Json) {e : NSException},
    parseArray values = .error e → ∃ value ∈ values, ∃ place fault,
      Faulty true value place fault ∧ e = fault.exception none
  | [], _, h => by cases h
  | value :: values, _, h => by
    rw [parseArray] at h
    obtain hvalue | ⟨_, -, h⟩ := bind_eq_error h
    · obtain ⟨place, fault, hfault, rfl⟩ := parseData_error elementContext value hvalue
      exact ⟨value, by simp, place, fault, hfault, rfl⟩
    · obtain hvalues | ⟨_, -, h⟩ := bind_eq_error h
      · obtain ⟨value', hmem, hfault⟩ := parseArray_error values hvalues
        exact ⟨value', by simp [hmem], hfault⟩
      · cases h

theorem parseDictionary_error (context : ParseContext) :
    ∀ (members : List (String × Json)) {e : NSException},
    parseDictionary context members = .error e → ∃ place fault,
      Faulty context.arrayElement (.object members) place fault ∧
        e = fault.exception (context.below place)
  | [], _, h => by cases h
  | (key, value) :: members, e, h => by
    have hmem : (key, value) ∈ (key, value) :: members := by simp
    rw [parseDictionary] at h
    obtain hchild | ⟨child, hchild, h⟩ := bind_eq_error h
    · obtain ⟨hcase, -⟩ | ⟨hcase, rfl⟩ | ⟨hcase, hreserved⟩ := childContext_cases context key
      · cases hcase.symm.trans hchild
      · exact ⟨_, .emptyField, .emptyField hmem, Except.error.inj (hchild.symm.trans hcase)⟩
      · exact ⟨_, .reservedField, .reservedField hmem hreserved,
          Except.error.inj (hchild.symm.trans hcase)⟩
    · obtain rfl := (childContext_eq_ok.mp hchild).2.2
      obtain hvalue | ⟨_, -, h⟩ := bind_eq_error h
      · obtain ⟨place, fault, hfault, rfl⟩ := parseData_error _ value hvalue
        exact ⟨place.map (key :: ·), fault, .field hmem hfault, by rw [below_map rfl]⟩
      · obtain hmembers | ⟨_, -, h⟩ := bind_eq_error h
        · obtain ⟨place, fault, hfault, rfl⟩ := parseDictionary_error context members hmembers
          exact ⟨place, fault, hfault.cons _, rfl⟩
        · cases h

end

theorem parseArray_mem {values : List Json} {fieldValues : List FieldValue}
    (h : parseArray values = .ok fieldValues) {value : Json} (hmem : value ∈ values) :
    ∃ fieldValue, parseData elementContext value = .ok fieldValue := by
  induction values generalizing fieldValues with
  | nil => cases hmem
  | cons value' values ih =>
    rw [parseArray] at h
    obtain ⟨fieldValue, hvalue, h⟩ := bind_eq_ok.mp h
    obtain ⟨_, hvalues, -⟩ := bind_eq_ok.mp h
    rcases List.mem_cons.mp hmem with rfl | hmem
    · exact ⟨fieldValue, hvalue⟩
    · exact ih hvalues hmem

theorem parseDictionary_mem {members : List (String × Json)} {fields : List (String × FieldValue)}
    (h : parseDictionary context members = .ok fields) {key : String} {value : Json}
    (hmem : (key, value) ∈ members) : key ≠ "" ∧ ¬ Reserved key ∧ ∃ fieldValue,
      parseData ⟨context.path.map (· ++ [key]), false⟩ value = .ok fieldValue := by
  induction members generalizing fields with
  | nil => cases hmem
  | cons member members ih =>
    obtain ⟨key', value'⟩ := member
    rw [parseDictionary] at h
    obtain ⟨child, hchild, h⟩ := bind_eq_ok.mp h
    obtain ⟨fieldValue, hvalue, h⟩ := bind_eq_ok.mp h
    obtain ⟨_, hmembers, -⟩ := bind_eq_ok.mp h
    rcases List.mem_cons.mp hmem with he | hmem
    · obtain ⟨rfl, rfl⟩ := Prod.mk.inj he
      obtain ⟨hempty, hreserved, rfl⟩ := childContext_eq_ok.mp hchild
      exact ⟨hempty, hreserved, fieldValue, hvalue⟩
    · exact ih hmembers hmem

theorem Faulty.refused {b : Bool} {json : Json} {place : Option (List String)} {fault : Fault}
    (h : Faulty b json place fault) {context : ParseContext} (hb : context.arrayElement = b)
    (value : FieldValue) : parseData context json ≠ .ok value := by
  intro hok
  induction h generalizing context value with
  | tooLarge h =>
    rw [parseData, dif_neg (Int.not_le.mpr h)] at hok
    cases hok
  | nestedArrays =>
    rw [parseData, if_pos hb] at hok
    cases hok
  | emptyField h =>
    rw [parseData] at hok
    obtain ⟨fields, hfields, -⟩ := map_eq_ok.mp hok
    exact (parseDictionary_mem hfields h).1 rfl
  | reservedField h hkey =>
    rw [parseData] at hok
    obtain ⟨fields, hfields, -⟩ := map_eq_ok.mp hok
    exact (parseDictionary_mem hfields h).2.1 hkey
  | field h hvalue ih =>
    rw [parseData] at hok
    obtain ⟨fields, hfields, -⟩ := map_eq_ok.mp hok
    obtain ⟨-, -, fieldValue, hparsed⟩ := parseDictionary_mem hfields h
    exact ih rfl fieldValue hparsed
  | element h hvalue ih =>
    rw [parseData] at hok
    split_ifs at hok
    obtain ⟨fieldValues, hvalues, -⟩ := map_eq_ok.mp hok
    obtain ⟨fieldValue, hparsed⟩ := parseArray_mem hvalues h
    exact ih rfl fieldValue hparsed

theorem parsedSetData_raised {json : List (String × Json)} {e : NSException}
    (h : parsedSetData json = .error e) :
    ∃ place fault, Faulty false (.object json) place fault ∧ e = fault.exception place := by
  obtain ⟨place, fault, hfault, rfl⟩ := parseDictionary_error rootContext json h
  exact ⟨place, fault, hfault, by rw [below_root]⟩

theorem parsedSetData_taken (json : List (String × Json)) :
    (∃ fields, parsedSetData json = .ok fields) ↔
      ∀ place fault, ¬ Faulty false (.object json) place fault := by
  constructor
  · rintro ⟨fields, hfields⟩ place fault hfault
    have hok : parseData rootContext (.object json) = .ok (.object fields) := by
      rw [parseData]
      exact map_eq_ok.mpr ⟨fields, hfields, rfl⟩
    exact hfault.refused rfl _ hok
  · intro hnone
    cases hparsed : parsedSetData json with
    | error e =>
      obtain ⟨place, fault, hfault, -⟩ := parsedSetData_raised hparsed
      exact absurd hfault (hnone place fault)
    | ok fields => exact ⟨fields, rfl⟩

/-- Data is taken exactly if it has no fault, and what is raised otherwise is
raised for one of its faults and names the place where it is. -/
theorem parsedSetData_error (json : List (String × Json)) :
    (∀ e, parsedSetData json = .error e → ∃ place fault,
      Faulty false (.object json) place fault ∧ e = fault.exception place) ∧
    ((∃ fields, parsedSetData json = .ok fields) ↔
      ∀ place fault, ¬ Faulty false (.object json) place fault) :=
  ⟨fun _ h ↦ parsedSetData_raised h, parsedSetData_taken json⟩

example : (match parsedSetData [("a.b", .object [("__c__", .null)])] with
    | .ok _ => ""
    | .error e => e.reason) = "Invalid data. Document fields cannot begin and end with \"__\" " ++
      "(found in field \x60a.b\x60.__c__)" := by
  decide +kernel

end Croesus.Firestore.ParseContext
