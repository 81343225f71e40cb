import FormValidation.Condition.Fault

/-!
# Parts of values

Subscripts and attributes. Lists and texts are indexed by item and by character, from the end if
the index is negative; maps are read by key, also in the notation of attributes; dates and moments
have the fields of the calendar.
-/

namespace FormValidation.Value

/-- The place that an index names in a sequence of so many items: a negative one counts from the
end. -/
def placeOf (index count : Int64) : Int64 := if index < 0 then count + index else index

/-- The place that an index names, if the sequence has it. -/
def resolveIndex (index : Int64) (length : Nat) : Except Fault Nat :=
  match int64? length with
  | none => .error .overflow
  | some count =>
    let place := placeOf index count
    if 0 ≤ place ∧ place < count then .ok place.toInt.toNat else .error (.indexOutOfRange index)

/-- The item of a list at an index. -/
def item (index : Int64) {α : Type} (items : List α) : Except Fault α :=
  match resolveIndex index items.length with
  | .error fault => .error fault
  | .ok place =>
    match items[place]? with
    | some a => .ok a
    | none => .error (.indexOutOfRange index)

/-- The part of a value under a key or at an index. -/
def subscript (target index : Value) : Except Fault Value :=
  match target, index with
  | .map entries, .text key =>
    match Entries.find? key entries with
    | some v => .ok v
    | none => .error (.keyNotFound key)
  | .list items, .int n => item n items
  | .text s, .int n => (item n s.toList).map fun c => .text (String.singleton c)
  | _, _ => .error (.mismatch .subscript target.kind index.kind)

/-- The value of a natural number. -/
def ofNat (n : Nat) : Value := .int (Int64.ofNat n)

/-- The field of a date that a name stands for. -/
def dateField? (d : Date) (name : String) : Option Value :=
  match name with
  | "year" => some (.int (Int64.ofInt d.year))
  | "month" => some (ofNat d.month)
  | "day" => some (ofNat d.day)
  | _ => none

/-- The field of a moment that a name stands for. -/
def momentField? (m : Moment) (name : String) : Option Value :=
  match name with
  | "hour" => some (ofNat m.hour)
  | "minute" => some (ofNat m.minute)
  | _ => dateField? m.date name

/-- The part of a value that a name stands for. -/
def member (target : Value) (name : String) : Except Fault Value :=
  let named (v : Option Value) : Except Fault Value :=
    match v with
    | some v => .ok v
    | none => .error (.unknownMethod target.kind name)
  match target with
  | .map entries =>
    match Entries.find? name entries with
    | some v => .ok v
    | none => .error (.keyNotFound name)
  | .date d => named (dateField? d name)
  | .moment m => named (momentField? m name)
  | _ => named none

end FormValidation.Value
