import FormValidation.Condition.Scan
import FormValidation.Condition.Reader

/-!
# Reading conditions by places

A condition read from an array of places, of which the last is the end of the text, with the number
of the place that comes next.  The levels of the grammar and the faults are those of the readers of
lists; here, reading also halts if it asks for a place that is not there (`Halt.outOfRange`).
-/

namespace FormValidation.Condition

/-- Reads something from a place on and gives the number of the place behind it. -/
abbrev Walker (α : Type) := Nat → Except Halt (α × Nat)

/-- How a message shows a place. -/
def Place.shown (place : Place) : String :=
  match place.token with
  | some token => token.shown
  | none => "end of input"

/-- The fault of a place that is not what is expected. -/
def Place.unexpected (place : Place) (expected : Expected) : Fault :=
  .unexpected place.shown place.position expected

namespace Walk

section

variable (places : Array Place)

/-- The place of a number. -/
def current (index : Nat) : Except Halt Place :=
  match places[index]? with
  | some place => .ok place
  | none => .error .outOfRange

/-- The number of the next place; the last place is not left. -/
def advance (index : Nat) : Nat := if index < places.size - 1 then index + 1 else index

/-- How many places there are up to the end. -/
def remaining (index : Nat) : Nat := places.size - 1 - index

/-- Whether a token is at a place, which need not be there. -/
def isAt (token : Token) (index : Nat) : Bool :=
  places[index]?.any fun place => place.token = some token

/-- Passes over the given token. -/
def expect (token : Token) (expected : Expected) (index : Nat) : Except Halt Nat := do
  let place ← current places index
  if place.token = some token then .ok (advance places index)
  else .error (.fault (place.unexpected expected))

/-- Passes over a name. -/
def expectName (expected : Expected) : Walker String := fun index => do
  let place ← current places index
  match place.token with
  | some (.ident name) => .ok (name, advance places index)
  | _ => .error (.fault (place.unexpected expected))

/-! ## Chains and lists -/

/-- Reads items with a separator between them; `fuel` bounds how many separators. -/
def separated {α : Type} (item : Walker α) (separator : Token) : (fuel : Nat) → Walker (List α)
  | 0, index => do
    let (a, index) ← item index
    .ok ([a], index)
  | fuel + 1, index => do
    let (a, index) ← item index
    let place ← current places index
    if place.token = some separator then do
      let (as, index) ← separated item separator fuel (advance places index)
      .ok (a :: as, index)
    else .ok ([a], index)

/-- Reads at least one item, with a separator between any two. -/
def chainOf {α : Type} (item : Walker α) (separator : Token) : Walker (List α) :=
  fun index => separated places item separator (remaining places index) index

/-- Reads items behind commas up to the closing token; a comma may stand before it. -/
def itemsFrom {α : Type} (item : Walker α) (close : Token) (expected : Expected) :
    (fuel : Nat) → Walker (List α)
  | 0, index => do
    let (a, index) ← item index
    let index ← expect places close expected index
    .ok ([a], index)
  | fuel + 1, index => do
    let (a, index) ← item index
    let place ← current places index
    if place.token = some .comma then do
      let next ← current places (advance places index)
      if next.token = some close then .ok ([a], advance places (advance places index))
      else do
        let (as, index) ← itemsFrom item close expected fuel (advance places index)
        .ok (a :: as, index)
    else do
      let index ← expect places close expected index
      .ok ([a], index)

/-- Reads what stands between an opening token, which has been read, and the closing one. -/
def itemsUntil {α : Type} (item : Walker α) (close : Token) (expected : Expected) :
    Walker (List α) := fun index => do
  let place ← current places index
  if place.token = some close then .ok ([], advance places index)
  else itemsFrom places item close expected (remaining places index) index

/-! ## Operators -/

/-- The comparison operator that comes next, which may be two tokens, and the place behind it. -/
def comparisonOperator? (index : Nat) : Except Halt (Option (Comparison × Nat)) := do
  let place ← current places index
  let next := advance places index
  match place.token with
  | some .eq => .ok (some (.eq, next))
  | some .notEq => .ok (some (.notEq, next))
  | some .lt => .ok (some (.lt, next))
  | some .le => .ok (some (.le, next))
  | some .gt => .ok (some (.gt, next))
  | some .ge => .ok (some (.ge, next))
  | some .isIn => .ok (some (.isIn, next))
  | some .same => do
    let negated ← current places next
    .ok (some (if negated.token = some .not then (.notSame, advance places next)
      else (.same, next)))
  | some .not =>
    .ok (if isAt places .isIn (index + 1) then some (.notIn, advance places next) else none)
  | _ => .ok none

/-- Reads comparison operators with the operands to their right; `fuel` bounds how many. -/
def comparisons (operand : Walker Expr) : (fuel : Nat) → Walker (List (Comparison × Expr))
  | 0, index => .ok ([], index)
  | fuel + 1, index => do
    match ← comparisonOperator? places index with
    | none => .ok ([], index)
    | some (op, index) => do
      let (e, index) ← operand index
      let (more, index) ← comparisons operand fuel index
      .ok ((op, e) :: more, index)

/-! ## The levels of the grammar -/

mutual

/-- Operands joined by `or`. -/
def disjunction (left index : Nat) : Except Halt (Expr × Nat) := do
  let (operands, index) ← chainOf places (fun index => conjunction left index) .or index
  .ok (ofChain .or operands, index)
termination_by 16 * left + 9

/-- Operands joined by `and`. -/
def conjunction (left index : Nat) : Except Halt (Expr × Nat) := do
  let (operands, index) ← chainOf places (fun index => negation left index) .and index
  .ok (ofChain .and operands, index)
termination_by 16 * left + 8

/-- A comparison behind any number of `not`. -/
def negation (left index : Nat) : Except Halt (Expr × Nat) := do
  let place ← current places index
  if place.token = some .not then
    match left with
    | 0 => .error (.fault (.tooDeep place.position))
    | left + 1 => do
      let (operand, index) ← negation left (advance places index)
      .ok (.not operand, index)
  else comparison left index
termination_by 16 * left + 7

/-- A sum, or a chain of comparisons between sums. -/
def comparison (left index : Nat) : Except Halt (Expr × Nat) := do
  let (first, index) ← sum left index
  let (more, index) ←
    comparisons places (fun index => sum left index) (remaining places index) index
  .ok (if more.isEmpty then first else .comparison first more, index)
termination_by 16 * left + 6

/-- Products joined by the operators of a sum. -/
def sum (left index : Nat) : Except Halt (Expr × Nat) := do
  let (first, index) ← product left index
  sumRest left first index
termination_by 16 * left + 5

/-- The rest of a sum whose first part is known; each further operand is one level deeper. -/
def sumRest (left : Nat) (first : Expr) (index : Nat) : Except Halt (Expr × Nat) := do
  let place ← current places index
  match place.token.bind additive? with
  | none => .ok (first, index)
  | some op =>
    match left with
    | 0 => .error (.fault (.tooDeep place.position))
    | left + 1 => do
      let (second, index) ← product left (advance places index)
      sumRest left (.arithmetic op first second) index
termination_by 16 * left + 4

/-- Signed operands joined by the operators of a product. -/
def product (left index : Nat) : Except Halt (Expr × Nat) := do
  let (first, index) ← signed left index
  productRest left first index
termination_by 16 * left + 3

/-- The rest of a product whose first part is known. -/
def productRest (left : Nat) (first : Expr) (index : Nat) : Except Halt (Expr × Nat) := do
  let place ← current places index
  match place.token.bind multiplicative? with
  | none => .ok (first, index)
  | some op =>
    match left with
    | 0 => .error (.fault (.tooDeep place.position))
    | left + 1 => do
      let (second, index) ← signed left (advance places index)
      productRest left (.arithmetic op first second) index
termination_by 16 * left + 2

/-- An operand behind any number of signs; a plus sign leaves no trace. -/
def signed (left index : Nat) : Except Halt (Expr × Nat) := do
  let place ← current places index
  if place.token = some .minus then
    match left with
    | 0 => .error (.fault (.tooDeep place.position))
    | left + 1 => do
      let (operand, index) ← signed left (advance places index)
      .ok (.neg operand, index)
  else if place.token = some .plus then
    match left with
    | 0 => .error (.fault (.tooDeep place.position))
    | left + 1 => signed left (advance places index)
  else do
    let (target, index) ← primary left index
    accesses left target index
termination_by 16 * left + 2

/-- The subscripts, attributes and method calls behind an operand, each one level deeper than the
one before; an index and arguments are one level deeper still. -/
def accesses (left : Nat) (target : Expr) (index : Nat) : Except Halt (Expr × Nat) := do
  let place ← current places index
  if place.token = some .openBracket then
    match left with
    | 0 => .error (.fault (.tooDeep place.position))
    | 1 => .error (.fault (.tooDeep place.position))
    | left + 2 => do
      let (inner, index) ← disjunction left (advance places index)
      let index ← expect places .closeBracket .closeIndex index
      accesses (left + 1) (.subscript target inner) index
  else if place.token = some .dot then
    match left with
    | 0 => .error (.fault (.tooDeep place.position))
    | left + 1 => do
      let (name, index) ← expectName places .memberName (advance places index)
      let next ← current places index
      if next.token = some .openParen then
        match left with
        | 0 => .error (.fault (.tooDeep place.position))
        | left + 1 => do
          let (arguments, index) ←
            itemsUntil places (fun index => disjunction left index) .closeParen .closeArguments
              (advance places index)
          accesses (left + 1) (.method target name arguments) index
      else accesses left (.member target name) index
  else .ok (target, index)
termination_by 16 * left + 1

/-- A literal, a name, a call, a group or a list. -/
def primary (left index : Nat) : Except Halt (Expr × Nat) := do
  let place ← current places index
  match place.token with
  | some (.ident name) => do
    let index := advance places index
    let next ← current places index
    if next.token = some .openParen then
      match left with
      | 0 => .error (.fault (.tooDeep place.position))
      | left + 1 => do
        let (arguments, index) ←
          itemsUntil places (fun index => disjunction left index) .closeParen .closeArguments
            (advance places index)
        .ok (.call name arguments, index)
    else .ok (.name name, index)
  | some .openParen =>
    match left with
    | 0 => .error (.fault (.tooDeep place.position))
    | left + 1 => do
      let (e, index) ← disjunction left (advance places index)
      let index ← expect places .closeParen .closeGroup index
      .ok (e, index)
  | some .openBracket =>
    match left with
    | 0 => .error (.fault (.tooDeep place.position))
    | left + 1 => do
      let (items, index) ←
        itemsUntil places (fun index => disjunction left index) .closeBracket .closeItems
          (advance places index)
      .ok (.list items, index)
  | some token =>
    match literal? ⟨token, place.position⟩ with
    | some (.ok e) => .ok (e, advance places index)
    | some (.error fault) => .error (.fault fault)
    | none => .error (.fault (place.unexpected .operand))
  | none => .error (.fault (place.unexpected .operand))
termination_by 16 * left

end

end

end Walk

/-- Reads the places of a whole text as a condition. -/
def ofPlaces (places : Array Place) : Except Halt Expr := do
  let (e, index) ← Walk.disjunction places maxNesting 0
  let place ← Walk.current places index
  match place.token with
  | none => .ok e
  | some _ => .error (.fault (.trailing place.position))

/-- Reads a text as a condition, by offsets and places. -/
def parseByOffset (source : String) : Except Halt Expr :=
  let size := source.utf8ByteSize
  if maxConditionBytes < size then .error (.fault (.tooLarge size))
  else do
    let places ← scan source
    ofPlaces places

end FormValidation.Condition
