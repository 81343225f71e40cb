import FormValidation.Condition.Fault
import FormValidation.Value.Equality

/-!
# Order and membership of values

`Value.compare` orders values of one type, numbers of both types, dates and moments with texts
that spell them, and lists item by item; everything else is a mismatch of types. `Value.contains`
looks for a part of a text, an item of a list or a key of a map.
-/

namespace FormValidation

/-- Whether `needle` stands somewhere in the text. -/
def Text.occursIn (needle : List Char) : List Char → Bool
  | [] => needle.isEmpty
  | c :: cs => needle.isPrefixOf (c :: cs) || occursIn needle cs

namespace Value

/-- The fault of an operation that is not defined for two values. -/
def mismatch (operation : Operation) (left right : Value) : Fault :=
  .mismatch operation left.kind right.kind

/-- The order of two values that are not both lists, where there is one. -/
def compareScalars : Value → Value → Option Ordering
  | .bool a, .bool b => some (Ord.compare a b)
  | .text s, .text t => some (Ord.compare s t)
  | .date a, .date b => some (a.compare b)
  | .moment a, .moment b => some (a.compare b)
  | .date d, .text s => (Date.read? s.toList).map fun read => d.compare read
  | .text s, .date d => (Date.read? s.toList).map fun read => read.compare d
  | .moment m, .text s => (Moment.read? s.toList).map fun read => m.compare read
  | .text s, .moment m => (Moment.read? s.toList).map fun read => read.compare m
  | a, b => compareNumbers a b

mutual

/-- The order of two values. -/
def compare : Value → Value → Except Fault Ordering
  | .list xs, .list ys => compareItems xs ys
  | a, b =>
    match compareScalars a b with
    | some ordering => .ok ordering
    | none => .error (mismatch .ordering a b)

/-- Lists compare by their first items that differ; a list that another one continues comes
first. -/
def compareItems : List Value → List Value → Except Fault Ordering
  | [], [] => .ok .eq
  | [], _ :: _ => .ok .lt
  | _ :: _, [] => .ok .gt
  | x :: xs, y :: ys =>
    match compare x y with
    | .error fault => .error fault
    | .ok .eq => compareItems xs ys
    | .ok ordering => .ok ordering

end

/-- Whether `item` is in the container. -/
def contains (container item : Value) : Except Fault Bool :=
  match container, item with
  | .text s, .text t => .ok (Text.occursIn t.toList s.toList)
  | .list items, _ => .ok (items.any fun candidate => candidate.looseEq item)
  | .map entries, .text key => .ok (Entries.find? key entries).isSome
  | .map _, _ => .ok false
  | _, _ => .error (mismatch .membership item container)

end Value

end FormValidation
