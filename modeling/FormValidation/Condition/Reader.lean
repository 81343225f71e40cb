import FormValidation.Condition.Expr
import FormValidation.Condition.Lexer
import FormValidation.Number.Decimal

/-!
# Reading conditions

A condition is read from its tokens by descent through the levels of the grammar, from `or` down
to single operands. Every reader is given how many levels of nesting are left: negations, signs,
brackets and calls take one for their contents, and in a chain of arithmetic operators or of
accesses each further link takes one. Reading therefore ends, and what is deeper than the limit is
refused at the token that would go too deep.
-/

namespace FormValidation.Condition

/-- Reads something from the front of a list of tokens and gives the rest. -/
abbrev Reader (α : Type) := List Placed → Except Fault (α × List Placed)

section

-- The offset of the end of the text.
variable (endAt : Nat)

/-- The offset of the next token, or of the end. -/
def position : List Placed → Nat
  | [] => endAt
  | t :: _ => t.position

/-- How a message shows the next token. -/
def shownNext : List Placed → String
  | [] => "end of input"
  | t :: _ => t.token.shown

/-- The fault of a next token that is not what is expected. -/
def unexpected (expected : Expected) (ts : List Placed) : Fault :=
  .unexpected (shownNext ts) (position endAt ts) expected

/-- Passes over the given token. -/
def expectToken (token : Token) (expected : Expected) (ts : List Placed) :
    Except Fault (List Placed) :=
  match ts with
  | t :: rest => if t.token = token then .ok rest else .error (unexpected endAt expected ts)
  | [] => .error (unexpected endAt expected ts)

/-! ## Chains and lists -/

/-- Reads items with a separator between them; `fuel` bounds how many separators. -/
def separated {α : Type} (item : Reader α) (separator : Token) :
    (fuel : Nat) → Reader (List α)
  | 0, ts => do
    let (a, rest) ← item ts
    .ok ([a], rest)
  | fuel + 1, ts => do
    let (a, rest) ← item ts
    match rest with
    | t :: tail =>
      if t.token = separator then do
        let (as, rest) ← separated item separator fuel tail
        .ok (a :: as, rest)
      else .ok ([a], rest)
    | [] => .ok ([a], [])

/-- Reads at least one item, with a separator between any two. -/
def chainOf {α : Type} (item : Reader α) (separator : Token) : Reader (List α) :=
  fun ts => separated item separator ts.length ts

/-- Reads items behind commas up to the closing token; a comma may stand before it. -/
def itemsFrom {α : Type} (item : Reader α) (close : Token) (expected : Expected) :
    (fuel : Nat) → Reader (List α)
  | 0, ts => do
    let (a, rest) ← item ts
    let rest ← expectToken endAt close expected rest
    .ok ([a], rest)
  | fuel + 1, ts => do
    let (a, rest) ← item ts
    match rest with
    | ⟨.comma, _⟩ :: tail =>
      match tail with
      | t :: behind =>
        if t.token = close then .ok ([a], behind)
        else do
          let (as, rest) ← itemsFrom item close expected fuel tail
          .ok (a :: as, rest)
      | [] => do
        let (as, rest) ← itemsFrom item close expected fuel []
        .ok (a :: as, rest)
    | _ => do
      let rest ← expectToken endAt close expected rest
      .ok ([a], rest)

/-- Reads what stands between an opening token, which has been read, and the closing one. -/
def itemsUntil {α : Type} (item : Reader α) (close : Token) (expected : Expected) :
    Reader (List α) := fun ts =>
  match ts with
  | t :: rest =>
    if t.token = close then .ok ([], rest)
    else itemsFrom endAt item close expected ts.length ts
  | [] => itemsFrom endAt item close expected 0 []

/-! ## Operators -/

/-- The comparison operator at the front, which may be two tokens, and what follows it. -/
def comparisonOperator? : List Placed → Option (Comparison × List Placed)
  | ⟨.eq, _⟩ :: rest => some (.eq, rest)
  | ⟨.notEq, _⟩ :: rest => some (.notEq, rest)
  | ⟨.lt, _⟩ :: rest => some (.lt, rest)
  | ⟨.le, _⟩ :: rest => some (.le, rest)
  | ⟨.gt, _⟩ :: rest => some (.gt, rest)
  | ⟨.ge, _⟩ :: rest => some (.ge, rest)
  | ⟨.isIn, _⟩ :: rest => some (.isIn, rest)
  | ⟨.not, _⟩ :: ⟨.isIn, _⟩ :: rest => some (.notIn, rest)
  | ⟨.same, _⟩ :: ⟨.not, _⟩ :: rest => some (.notSame, rest)
  | ⟨.same, _⟩ :: rest => some (.same, rest)
  | _ => none

/-- Reads comparison operators with the operands to their right; `fuel` bounds how many. -/
def comparisons (operand : Reader Expr) : (fuel : Nat) → Reader (List (Comparison × Expr))
  | 0, ts => .ok ([], ts)
  | fuel + 1, ts =>
    match comparisonOperator? ts with
    | none => .ok ([], ts)
    | some (op, rest) => do
      let (e, rest) ← operand rest
      let (more, rest) ← comparisons operand fuel rest
      .ok ((op, e) :: more, rest)

/-- The operator of a sum. -/
def additive? : Token → Option Arithmetic
  | .plus => some .add
  | .minus => some .sub
  | _ => none

/-- The operator of a product. -/
def multiplicative? : Token → Option Arithmetic
  | .star => some .mul
  | .slash => some .div
  | .percent => some .rem
  | _ => none

/-- A chain of one operand is that operand. -/
def ofChain (op : Connective) : List Expr → Expr
  | [e] => e
  | operands => .chain op operands

/-! ## The literals -/

/-- The tree of a token that is a literal by itself. -/
def literal? (t : Placed) : Option (Except Fault Expr) :=
  match t.token with
  | .int digits =>
    match (Numeral.nat? digits.toList).bind fun n => int64? (n : Int) with
    | some n => some (.ok (.literal (.int n)))
    | none => some (.error (.invalidNumber digits t.position))
  | .float digits =>
    match Decimal.readUnsigned? digits.toList with
    | some d => some (.ok (.literal (.float d.toFloat)))
    | none => some (.error (.invalidNumber digits t.position))
  | .text s => some (.ok (.literal (.text s)))
  | .true => some (.ok (.literal (.bool true)))
  | .false => some (.ok (.literal (.bool false)))
  | .none => some (.ok (.literal .null))
  | _ => none

/-! ## The levels of the grammar -/

mutual

/-- Operands joined by `or`. -/
def disjunction (left : Nat) (ts : List Placed) : Except Fault (Expr × List Placed) := do
  let (operands, rest) ← chainOf (fun ts => conjunction left ts) .or ts
  .ok (ofChain .or operands, rest)
termination_by 16 * left + 9

/-- Operands joined by `and`. -/
def conjunction (left : Nat) (ts : List Placed) : Except Fault (Expr × List Placed) := do
  let (operands, rest) ← chainOf (fun ts => negation left ts) .and ts
  .ok (ofChain .and operands, rest)
termination_by 16 * left + 8

/-- A comparison behind any number of `not`. -/
def negation (left : Nat) (ts : List Placed) : Except Fault (Expr × List Placed) :=
  match ts with
  | ⟨.not, position⟩ :: rest =>
    match left with
    | 0 => .error (.tooDeep position)
    | left + 1 => do
      let (operand, rest) ← negation left rest
      .ok (.not operand, rest)
  | _ => comparison left ts
termination_by 16 * left + 7

/-- A sum, or a chain of comparisons between sums. -/
def comparison (left : Nat) (ts : List Placed) : Except Fault (Expr × List Placed) := do
  let (first, rest) ← sum left ts
  let (more, rest) ← comparisons (fun ts => sum left ts) rest.length rest
  .ok (if more.isEmpty then first else .comparison first more, rest)
termination_by 16 * left + 6

/-- Products joined by the operators of a sum. -/
def sum (left : Nat) (ts : List Placed) : Except Fault (Expr × List Placed) := do
  let (first, rest) ← product left ts
  sumRest left first rest
termination_by 16 * left + 5

/-- The rest of a sum whose first part is known; each further operand is one level deeper. -/
def sumRest (left : Nat) (first : Expr) (ts : List Placed) :
    Except Fault (Expr × List Placed) :=
  match ts with
  | [] => .ok (first, ts)
  | t :: rest =>
    match additive? t.token with
    | none => .ok (first, ts)
    | some op =>
      match left with
      | 0 => .error (.tooDeep t.position)
      | left + 1 => do
        let (second, rest) ← product left rest
        sumRest left (.arithmetic op first second) rest
termination_by 16 * left + 4

/-- Signed operands joined by the operators of a product. -/
def product (left : Nat) (ts : List Placed) : Except Fault (Expr × List Placed) := do
  let (first, rest) ← signed left ts
  productRest left first rest
termination_by 16 * left + 3

/-- The rest of a product whose first part is known. -/
def productRest (left : Nat) (first : Expr) (ts : List Placed) :
    Except Fault (Expr × List Placed) :=
  match ts with
  | [] => .ok (first, ts)
  | t :: rest =>
    match multiplicative? t.token with
    | none => .ok (first, ts)
    | some op =>
      match left with
      | 0 => .error (.tooDeep t.position)
      | left + 1 => do
        let (second, rest) ← signed left rest
        productRest left (.arithmetic op first second) rest
termination_by 16 * left + 2

/-- An operand behind any number of signs; a plus sign leaves no trace. -/
def signed (left : Nat) (ts : List Placed) : Except Fault (Expr × List Placed) :=
  match ts with
  | ⟨.minus, position⟩ :: rest =>
    match left with
    | 0 => .error (.tooDeep position)
    | left + 1 => do
      let (operand, rest) ← signed left rest
      .ok (.neg operand, rest)
  | ⟨.plus, position⟩ :: rest =>
    match left with
    | 0 => .error (.tooDeep position)
    | left + 1 => signed left rest
  | _ => do
    let (target, rest) ← primary left ts
    accesses left target rest
termination_by 16 * left + 2

/-- The subscripts, attributes and method calls behind an operand, each one level deeper than the
one before; an index and arguments are one level deeper still. -/
def accesses (left : Nat) (target : Expr) (ts : List Placed) :
    Except Fault (Expr × List Placed) :=
  match ts with
  | ⟨.openBracket, position⟩ :: rest =>
    match left with
    | 0 => .error (.tooDeep position)
    | 1 => .error (.tooDeep position)
    | left + 2 => do
      let (index, rest) ← disjunction left rest
      let rest ← expectToken endAt .closeBracket .closeIndex rest
      accesses (left + 1) (.subscript target index) rest
  | ⟨.dot, position⟩ :: rest =>
    match left with
    | 0 => .error (.tooDeep position)
    | left + 1 =>
      match rest with
      | ⟨.ident name, _⟩ :: ⟨.openParen, _⟩ :: rest =>
        match left with
        | 0 => .error (.tooDeep position)
        | left + 1 => do
          let (arguments, rest) ←
            itemsUntil endAt (fun ts => disjunction left ts) .closeParen .closeArguments rest
          accesses (left + 1) (.method target name arguments) rest
      | ⟨.ident name, _⟩ :: rest => accesses left (.member target name) rest
      | _ => .error (unexpected endAt .memberName rest)
  | _ => .ok (target, ts)
termination_by 16 * left + 1

/-- A literal, a name, a call, a group or a list. -/
def primary (left : Nat) (ts : List Placed) : Except Fault (Expr × List Placed) :=
  match ts with
  | ⟨.ident name, position⟩ :: ⟨.openParen, _⟩ :: rest =>
    match left with
    | 0 => .error (.tooDeep position)
    | left + 1 => do
      let (arguments, rest) ←
        itemsUntil endAt (fun ts => disjunction left ts) .closeParen .closeArguments rest
      .ok (.call name arguments, rest)
  | ⟨.ident name, _⟩ :: rest => .ok (.name name, rest)
  | ⟨.openParen, position⟩ :: rest =>
    match left with
    | 0 => .error (.tooDeep position)
    | left + 1 => do
      let (e, rest) ← disjunction left rest
      let rest ← expectToken endAt .closeParen .closeGroup rest
      .ok (e, rest)
  | ⟨.openBracket, position⟩ :: rest =>
    match left with
    | 0 => .error (.tooDeep position)
    | left + 1 => do
      let (items, rest) ←
        itemsUntil endAt (fun ts => disjunction left ts) .closeBracket .closeItems rest
      .ok (.list items, rest)
  | t :: rest =>
    match literal? t with
    | some result => result.map fun e => (e, rest)
    | none => .error (unexpected endAt .operand ts)
  | [] => .error (unexpected endAt .operand ts)
termination_by 16 * left

end

end

/-- Reads a whole list of tokens as a condition. -/
def ofTokens (endAt : Nat) (ts : List Placed) : Except Fault Expr := do
  let (e, rest) ← disjunction endAt maxNesting ts
  match rest with
  | [] => .ok e
  | t :: _ => .error (.trailing t.position)

/-- Reads a text as a condition. -/
def parse (source : String) : Except Fault Expr :=
  let size := source.utf8ByteSize
  if maxConditionBytes < size then .error (.tooLarge size)
  else do
    let ts ← tokens source.toList
    ofTokens size ts

end FormValidation.Condition
