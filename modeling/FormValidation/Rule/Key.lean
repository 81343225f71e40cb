/-!
# Group keys

Rules come in groups, and the key of a group tells what its rules validate: the form as a whole
under `clean`, or a field under `clean_` and the name of the field. Any other key is kept as it is.
`GroupKey.parse` reads a key and `GroupKey.text` writes it back (`GroupKey.text_parse`). Every field
with a name has one key (`GroupKey.parse_eq_field_iff`).
-/

namespace FormValidation

/-- What follows `stem` in a text that begins with it. -/
def afterStem? : (stem cs : List Char) → Option (List Char)
  | [], cs => some cs
  | _ :: _, [] => none
  | s :: stem, c :: cs => if s = c then afterStem? stem cs else none

theorem eq_append_of_afterStem? {stem cs rest : List Char} (h : afterStem? stem cs = some rest) :
    cs = stem ++ rest := by
  fun_induction afterStem? stem cs with
  | case1 => simpa using h
  | case2 => cases h
  | case3 c stem cs ih => rw [ih h]; rfl
  | case4 => cases h

theorem afterStem?_append (stem rest : List Char) : afterStem? stem (stem ++ rest) = some rest := by
  induction stem with
  | nil => rfl
  | cons c stem ih => simpa [afterStem?] using ih

/-- What the rules of a group validate. -/
inductive GroupKey where
  /-- The form as a whole. -/
  | form
  | field (name : String)
  /-- A key that names neither. -/
  | other (raw : String)
  deriving DecidableEq

namespace GroupKey

/-- The key of the group for the whole form. -/
def formText : String := "clean"

/-- What the keys of groups for fields begin with. -/
def fieldStem : String := "clean_"

/-- The meaning of a key; the name of a field is not empty. -/
def parse (raw : String) : GroupKey :=
  if raw = formText then .form
  else match afterStem? fieldStem.toList raw.toList with
    | some (c :: name) => .field (String.ofList (c :: name))
    | _ => .other raw

/-- The text of a key. -/
def text : GroupKey → String
  | .form => formText
  | .field name => fieldStem ++ name
  | .other raw => raw

/-- The field that a group is for. -/
def field? : GroupKey → Option String
  | .field name => some name
  | _ => none

/-- A key that has been read is written as it was. -/
theorem text_parse (raw : String) : (parse raw).text = raw := by
  rw [parse]
  split
  next h => exact h.symm
  next =>
    split
    next c name heq =>
      have happ := eq_append_of_afterStem? heq
      apply String.ext
      simp [text, String.toList_append, happ]
    next => rfl

/-! ## The keys of fields -/

@[simp] theorem field?_eq_some_iff {key : GroupKey} {name : String} :
    key.field? = some name ↔ key = .field name := by
  cases key <;> simp [field?]

/-- The key of a field is read as the field, if it has a name. -/
theorem parse_fieldStem {name : String} (h : name ≠ "") :
    parse (fieldStem ++ name) = .field name := by
  have hform : fieldStem ++ name ≠ formText := by
    intro heq
    have hlength := congrArg (fun s => s.toList.length) heq
    simp [fieldStem, formText, String.toList_append] at hlength
  have hrest : afterStem? fieldStem.toList (fieldStem ++ name).toList = some name.toList := by
    rw [String.toList_append]
    exact afterStem?_append _ _
  rw [parse, if_neg hform, hrest]
  cases hname : name.toList with
  | nil =>
    refine absurd (String.ext ?_) h
    rw [hname]
    rfl
  | cons c rest =>
    show GroupKey.field (String.ofList (c :: rest)) = .field name
    rw [← hname, String.ofList_toList]

/-- No key is read as that of a field without a name. -/
theorem ne_empty_of_parse {raw name : String} (h : parse raw = .field name) : name ≠ "" := by
  rw [parse] at h
  split at h
  · cases h
  · split at h <;> cases h
    intro hempty
    have hchars := congrArg String.toList hempty
    rw [String.toList_ofList] at hchars
    cases hchars

/-- **A field has one key.** -/
theorem parse_eq_field_iff {raw name : String} :
    parse raw = .field name ↔ name ≠ "" ∧ raw = fieldStem ++ name := by
  constructor
  · intro h
    refine ⟨ne_empty_of_parse h, ?_⟩
    rw [← text_parse raw, h, text]
  · rintro ⟨hname, rfl⟩
    exact parse_fieldStem hname

end GroupKey

end FormValidation
