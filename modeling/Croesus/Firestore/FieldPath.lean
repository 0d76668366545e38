import Croesus.Firestore.Value
import Mathlib.Data.List.Basic
import Mathlib.Tactic.SplitIfs

namespace Croesus.Firestore.FieldPath

/-- Identifiers begin with an underscore or an ASCII letter. -/
def isFirst (c : Char) : Bool := c = '_' || ('a' ≤ c && c ≤ 'z') || ('A' ≤ c && c ≤ 'Z')

def isNext (c : Char) : Bool := isFirst c || ('0' ≤ c && c ≤ '9')

def isValidIdentifier : List Char → Bool
  | [] => false
  | first :: segment => isFirst first && segment.all isNext

abbrev backtick : Char := '\x60'

abbrev backslash : Char := '\x5c'

/-- The two replacements of `JoinEscaped`, made in one pass. -/
def escaped (segment : List Char) : List Char :=
  segment.flatMap fun c ↦ if c = backslash ∨ c = backtick then [backslash, c] else [c]

def escapedSegment (segment : List Char) : List Char :=
  if isValidIdentifier (escaped segment) then escaped segment
  else backtick :: escaped segment ++ [backtick]

def canonicalString (path : List String) : String :=
  String.ofList (['.'].intercalate (path.map fun segment ↦ escapedSegment segment.toList))

def emptySegment (path : String) : NSException :=
  hardAssert ("Invalid field path (" ++ path ++ "). Paths must not be empty, begin with " ++
    "'.', end with '.', or contain '..'") "!segment.empty()"

def trailingEscape (path : String) : NSException :=
  hardAssert ("Trailing escape characters not allowed in " ++ path) "i + 1 != path.size()"

def unterminated (path : String) : NSException :=
  hardAssert ("Unterminated \x60 in path " ++ path) "!inside_backticks"

def finishSegment (path : String) (segments : List String) (segment : List Char) :
    Except NSException (List String) :=
  if segment = [] then .error (emptySegment path)
  else .ok (segments ++ [String.ofList segment])

def finish (path : String) (segments : List String) (segment : List Char)
    (insideBackticks : Bool) : Except NSException (List String) := do
  let segments ← finishSegment path segments segment
  if insideBackticks then throw (unterminated path) else return segments

/-- The loop of `FromServerFormatView`, with what is left of the path. -/
def scan (path : String) (segments : List String) (segment : List Char) (insideBackticks : Bool) :
    List Char → Except NSException (List String)
  | [] => finish path segments segment insideBackticks
  | c :: rest =>
    if c = '\x00' then finish path segments segment insideBackticks
    else if c = '.' then
      if insideBackticks then scan path segments (segment ++ [c]) insideBackticks rest
      else do
        let segments ← finishSegment path segments segment
        scan path segments [] insideBackticks rest
    else if c = backtick then scan path segments segment (!insideBackticks) rest
    else if c = backslash then
      match rest with
      | [] => .error (trailingEscape path)
      | c :: rest => scan path segments (segment ++ [c]) insideBackticks rest
    else scan path segments (segment ++ [c]) insideBackticks rest

def fromServerFormat (path : String) : Except NSException (List String) :=
  scan path [] [] false path.toList

theorem isNext_of_isFirst {c : Char} (h : isFirst c) : isNext c := by simp [isNext, h]

theorem escaped_cons (c : Char) (segment : List Char) : escaped (c :: segment) =
    (if c = backslash ∨ c = backtick then [backslash, c] else [c]) ++ escaped segment := rfl

theorem escaped_append (l l' : List Char) : escaped (l ++ l') = escaped l ++ escaped l' :=
  List.flatMap_append

theorem isNext_of_isValidIdentifier {l : List Char} (h : isValidIdentifier l) :
    l ≠ [] ∧ ∀ c ∈ l, isNext c := by
  cases l with
  | nil => cases h
  | cons first l =>
    obtain ⟨hfirst, hl⟩ := Bool.and_eq_true_iff.mp h
    refine ⟨List.cons_ne_nil _ _, fun c hc ↦ ?_⟩
    rcases List.mem_cons.mp hc with rfl | hc
    · exact isNext_of_isFirst hfirst
    · exact List.all_eq_true.mp hl c hc

/-- What needs no backticks needs no escapes either. -/
theorem escaped_eq_self {l : List Char} (h : ∀ c ∈ escaped l, isNext c) : escaped l = l := by
  induction l with
  | nil => rfl
  | cons c l ih =>
    rw [escaped_cons] at h ⊢
    split_ifs at h ⊢ with hc
    · have hb := h backslash (by simp)
      exact absurd hb (by decide)
    · rw [ih fun d hd ↦ h d (by simp [hd])]
      rfl

theorem escapedSegment_cases (segment : List Char) :
    (escapedSegment segment = segment ∧ segment ≠ [] ∧ ∀ c ∈ segment, isNext c) ∨
      escapedSegment segment = backtick :: escaped segment ++ [backtick] := by
  rw [escapedSegment]
  split_ifs with h
  · obtain ⟨hne, hnext⟩ := isNext_of_isValidIdentifier h
    have hself := escaped_eq_self hnext
    rw [hself] at hne hnext
    exact .inl ⟨hself, hne, hnext⟩
  · exact .inr rfl

section Scan

variable {path : String} {segments : List String} {segment rest : List Char}
  {insideBackticks : Bool}

theorem scan_literal {c : Char} (hnull : c ≠ '\x00') (hdot : c ≠ '.' ∨ insideBackticks)
    (htick : c ≠ backtick) (hslash : c ≠ backslash) :
    scan path segments segment insideBackticks (c :: rest) =
      scan path segments (segment ++ [c]) insideBackticks rest := by
  rw [scan.eq_def]
  dsimp only
  rw [if_neg hnull]
  split_ifs with h
  · rfl
  · simp_all
  · rfl

theorem scan_backtick : scan path segments segment insideBackticks (backtick :: rest) =
    scan path segments segment (!insideBackticks) rest := by
  rw [scan.eq_def]
  rfl

theorem scan_escape {c : Char} :
    scan path segments segment insideBackticks (backslash :: c :: rest) =
      scan path segments (segment ++ [c]) insideBackticks rest := rfl

theorem scan_identifier {l : List Char} (h : ∀ c ∈ l, isNext c) :
    scan path segments segment insideBackticks (l ++ rest) =
      scan path segments (segment ++ l) insideBackticks rest := by
  induction l generalizing segment with
  | nil => simp
  | cons c l ih =>
    have hc : isNext c := h c (by simp)
    have hne (d : Char) (hd : isNext d = false) : c ≠ d := by
      rintro rfl
      rw [hd] at hc
      cases hc
    rw [List.cons_append, scan_literal (hne _ rfl) (.inl (hne _ rfl)) (hne _ rfl) (hne _ rfl),
      ih fun d hd ↦ h d (by simp [hd])]
    simp

theorem scan_escaped {l : List Char} (h : '\x00' ∉ l) :
    scan path segments segment true (escaped l ++ rest) =
      scan path segments (segment ++ l) true rest := by
  induction l generalizing segment with
  | nil => simp [escaped]
  | cons c l ih =>
    obtain ⟨hc, hl⟩ := not_or.mp (List.mem_cons.not.mp h)
    rw [escaped_cons]
    split_ifs with hspecial
    · have hsplit : [backslash, c] ++ escaped l ++ rest = backslash :: c :: (escaped l ++ rest) := rfl
      rw [hsplit, scan_escape, ih hl]
      simp
    · obtain ⟨hslash, htick⟩ := not_or.mp hspecial
      rw [List.cons_append, List.cons_append,
        scan_literal (Ne.symm hc) (.inr rfl) htick hslash, List.nil_append, ih hl]
      simp

theorem scan_escapedSegment {l : List Char} (h : '\x00' ∉ l) :
    scan path segments [] false (escapedSegment l ++ rest) = scan path segments l false rest := by
  obtain ⟨he, -, hnext⟩ | he := escapedSegment_cases l
  · rw [he, scan_identifier hnext, List.nil_append]
  · rw [he, List.append_assoc, List.cons_append, scan_backtick, Bool.not_false, scan_escaped h,
      List.nil_append, List.singleton_append, scan_backtick, Bool.not_true]

theorem finish_inside : ∃ e, finish path segments segment true = .error e := by
  rw [finish, finishSegment]
  by_cases h : segment = []
  · rw [if_pos h]
    exact ⟨_, rfl⟩
  · rw [if_neg h]
    exact ⟨_, rfl⟩

variable (path segments rest) in
/-- The scan ends at a null, and the backticks around it are never closed. -/
theorem scan_null {l : List Char} (h : '\x00' ∈ l) :
    ∃ e, scan path segments [] false (escapedSegment l ++ rest) = .error e := by
  obtain ⟨he, -, hnext⟩ | he := escapedSegment_cases l
  · exact absurd (hnext _ h) (by decide)
  · obtain ⟨l₁, l₂, rfl, hl⟩ := List.eq_append_cons_of_mem h
    have hstop (rest : List Char) : scan path segments l₁ true ('\x00' :: rest) =
        finish path segments l₁ true := by
      rw [scan.eq_def]
      rfl
    have hnull : escaped ('\x00' :: l₂) = '\x00' :: escaped l₂ := rfl
    rw [he, List.append_assoc, List.cons_append, scan_backtick, Bool.not_false, escaped_append,
      List.append_assoc, scan_escaped hl, List.nil_append, hnull, List.cons_append, hstop]
    exact finish_inside

end Scan

/-- The names that a server format can carry. -/
def IsName (segment : String) : Prop := segment ≠ "" ∧ '\x00' ∉ segment.toList

instance (segment : String) : Decidable (IsName segment) := inferInstanceAs (Decidable (_ ∧ _))

def chars (path : List String) : List Char :=
  ['.'].intercalate (path.map fun segment ↦ escapedSegment segment.toList)

theorem canonicalString_toList (path : List String) : (canonicalString path).toList = chars path := by
  rw [canonicalString, String.toList_ofList, chars]

theorem chars_cons_cons (p q : String) (path : List String) :
    chars (p :: q :: path) = escapedSegment p.toList ++ '.' :: chars (q :: path) := by
  simp [chars]

theorem finishSegment_name (text : String) (segments : List String) {p : String} (h : p ≠ "") :
    finishSegment text segments p.toList = .ok (segments ++ [p]) := by
  have hne : p.toList ≠ [] := fun he ↦ h (String.toList_eq_nil_iff.mp he)
  rw [finishSegment, if_neg hne, String.ofList_toList]

theorem finishSegment_empty (text : String) (segments : List String) :
    finishSegment text segments "".toList = .error (emptySegment text) := rfl

/-- The segments are read one by one, up to the first that is no name. -/
theorem scan_chars {text : String} {segments path' : List String} (p : String) (path : List String) :
    scan text segments [] false (chars (p :: path)) = .ok path' ↔
      (∀ segment ∈ p :: path, IsName segment) ∧ segments ++ p :: path = path' := by
  induction path generalizing p segments with
  | nil =>
    have hchars : chars [p] = escapedSegment p.toList ++ [] := by simp [chars]
    rw [hchars, List.forall_mem_singleton]
    by_cases hnull : '\x00' ∈ p.toList
    · obtain ⟨e, he⟩ := scan_null text segments [] hnull
      have hno : ¬ IsName p := fun h ↦ h.2 hnull
      rw [he]
      simp [hno]
    · have hfinish : scan text segments p.toList false [] = finishSegment text segments p.toList := by
        rw [scan, finish]
        cases finishSegment text segments p.toList <;> rfl
      rw [scan_escapedSegment hnull, hfinish]
      by_cases hp : p = ""
      · subst hp
        rw [finishSegment_empty]
        simp [IsName]
      · have hname : IsName p := ⟨hp, hnull⟩
        simp [finishSegment_name text segments hp, hname]
  | cons q path ih =>
    rw [chars_cons_cons, List.forall_mem_cons]
    by_cases hnull : '\x00' ∈ p.toList
    · obtain ⟨e, he⟩ := scan_null text segments ('.' :: chars (q :: path)) hnull
      have hno : ¬ IsName p := fun h ↦ h.2 hnull
      rw [he]
      simp [hno]
    · have hdot (rest : List Char) : scan text segments p.toList false ('.' :: rest) =
          (finishSegment text segments p.toList >>= fun segments ↦ scan text segments [] false rest) := by
        rw [scan.eq_def]
        rfl
      rw [scan_escapedSegment hnull, hdot]
      by_cases hp : p = ""
      · subst hp
        rw [finishSegment_empty]
        simp [bind, Except.bind, IsName]
      · have hname : IsName p := ⟨hp, hnull⟩
        have hnext : (finishSegment text segments p.toList >>= fun segments ↦
            scan text segments [] false (chars (q :: path))) =
            scan text (segments ++ [p]) [] false (chars (q :: path)) := by
          rw [finishSegment_name text segments hp]
          rfl
        rw [hnext, ih q, List.append_assoc, List.singleton_append]
        simp only [hname, true_and]

/-- What is read from a canonical string is the path that it is made of, and it
can be read exactly if there is a path and its segments are names. -/
theorem fromServerFormat_canonicalString {path path' : List String} :
    fromServerFormat (canonicalString path) = .ok path' ↔
      path ≠ [] ∧ (∀ segment ∈ path, IsName segment) ∧ path = path' := by
  rw [fromServerFormat, canonicalString_toList]
  cases path with
  | nil =>
    have hempty : scan (canonicalString []) [] [] false (chars []) =
        .error (emptySegment (canonicalString [])) := rfl
    simp [hempty]
  | cons p path =>
    rw [scan_chars p path]
    simp

example : fromServerFormat "a.\x60b.c\x60.d\\.e" = .ok ["a", "b.c", "d.e"] := by decide +kernel

theorem escaped_inj {l l' rest rest' : List Char}
    (h : escaped l ++ backtick :: rest = escaped l' ++ backtick :: rest') : l = l' ∧ rest = rest' := by
  induction l generalizing l' with
  | nil =>
    cases l' with
    | nil => exact ⟨rfl, (List.cons.inj h).2⟩
    | cons c' l' =>
      rw [escaped_cons] at h
      split_ifs at h with hc'
      · exact absurd (List.cons.inj h).1 (by decide)
      · exact absurd (.inr (List.cons.inj h).1.symm) hc'
  | cons c l ih =>
    cases l' with
    | nil =>
      rw [escaped_cons] at h
      split_ifs at h with hc
      · exact absurd (List.cons.inj h).1 (by decide)
      · exact absurd (.inr (List.cons.inj h).1) hc
    | cons c' l' =>
      rw [escaped_cons, escaped_cons] at h
      split_ifs at h with hc hc' hc'
      · obtain ⟨rfl, htail⟩ := List.cons.inj (List.cons.inj h).2
        obtain ⟨rfl, hrest⟩ := ih htail
        exact ⟨rfl, hrest⟩
      · exact absurd (.inl (List.cons.inj h).1.symm) hc'
      · exact absurd (.inl (List.cons.inj h).1) hc
      · obtain ⟨rfl, htail⟩ := List.cons.inj h
        obtain ⟨rfl, hrest⟩ := ih htail
        exact ⟨rfl, hrest⟩

theorem takeWhile_identifier {l rest : List Char} (h : ∀ c ∈ l, isNext c)
    (hrest : rest.takeWhile isNext = []) : (l ++ rest).takeWhile isNext = l := by
  rw [List.takeWhile_append_of_pos h, hrest, List.append_nil]

theorem escapedSegment_inj {l l' rest rest' : List Char} (hrest : rest.takeWhile isNext = [])
    (hrest' : rest'.takeWhile isNext = [])
    (h : escapedSegment l ++ rest = escapedSegment l' ++ rest') : l = l' ∧ rest = rest' := by
  have hmixed {l l' : List Char} (hne : l ≠ []) (hnext : ∀ c ∈ l, isNext c) (rest : List Char) :
      l ++ rest ≠ backtick :: l' := by
    intro h
    cases l with
    | nil => exact hne rfl
    | cons c l =>
      obtain ⟨rfl, -⟩ := List.cons.inj h
      exact absurd (hnext backtick (by simp)) (by decide)
  obtain ⟨he, hne, hnext⟩ | he := escapedSegment_cases l <;>
    obtain ⟨he', hne', hnext'⟩ | he' := escapedSegment_cases l' <;> rw [he, he'] at h
  · have hl : l = l' := by
      rw [← takeWhile_identifier hnext hrest, h, takeWhile_identifier hnext' hrest']
    subst hl
    exact ⟨rfl, List.append_cancel_left h⟩
  · exact absurd h (hmixed hne hnext rest)
  · exact absurd h.symm (hmixed hne' hnext' rest')
  · rw [List.append_assoc, List.append_assoc] at h
    exact escaped_inj (List.cons.inj h).2

theorem chars_cons (p : String) (path : List String) :
    ∃ rest, chars (p :: path) = escapedSegment p.toList ++ rest ∧
      (path = [] ∧ rest = [] ∨ path ≠ [] ∧ rest = '.' :: chars path) := by
  cases path with
  | nil => exact ⟨[], by simp [chars], .inl ⟨rfl, rfl⟩⟩
  | cons q path => exact ⟨_, chars_cons_cons p q path, .inr ⟨by simp, rfl⟩⟩

theorem escapedSegment_ne_nil (l : List Char) : escapedSegment l ≠ [] := by
  obtain ⟨he, hne, -⟩ | he := escapedSegment_cases l
  · rwa [he]
  · simp [he]

theorem chars_injective {path path' : List String} (h : chars path = chars path') : path = path' := by
  have hne (p : String) (path : List String) : chars (p :: path) ≠ [] := by
    obtain ⟨rest, hchars, -⟩ := chars_cons p path
    simp [hchars, escapedSegment_ne_nil]
  have htake {path : List String} {rest : List Char}
      (h : path = [] ∧ rest = [] ∨ path ≠ [] ∧ rest = '.' :: chars path) :
      rest.takeWhile isNext = [] := by
    rcases h with ⟨-, rfl⟩ | ⟨-, rfl⟩
    · rfl
    · exact List.takeWhile_cons_of_neg (by decide)
  induction path generalizing path' with
  | nil =>
    cases path' with
    | nil => rfl
    | cons q path' => exact absurd h.symm (hne q path')
  | cons p path ih =>
    cases path' with
    | nil => exact absurd h (hne p path)
    | cons q path' =>
      obtain ⟨rest, hchars, hrest⟩ := chars_cons p path
      obtain ⟨rest', hchars', hrest'⟩ := chars_cons q path'
      rw [hchars, hchars'] at h
      obtain ⟨hp, rfl⟩ := escapedSegment_inj (htake hrest) (htake hrest') h
      obtain rfl := String.toList_inj.mp hp
      rcases hrest with ⟨rfl, rfl⟩ | ⟨hpath, rfl⟩
      · rcases hrest' with ⟨rfl, -⟩ | ⟨-, hrest'⟩
        · rfl
        · cases hrest'
      · rcases hrest' with ⟨-, hrest'⟩ | ⟨hpath', hrest'⟩
        · cases hrest'
        · rw [ih (List.cons.inj hrest').2]

/-- No two paths are written alike. -/
theorem canonicalString_inj {path path' : List String} :
    canonicalString path = canonicalString path' ↔ path = path' := by
  refine ⟨fun h ↦ chars_injective ?_, fun h ↦ by rw [h]⟩
  rw [← canonicalString_toList, h, canonicalString_toList]

end Croesus.Firestore.FieldPath
