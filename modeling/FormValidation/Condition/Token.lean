/-!
# Tokens of conditions

The tokens of the condition language, each with the offset at which it begins, and the words by
which messages name them.
-/

namespace FormValidation.Condition

/-- A token. Numbers keep their digits, quoted texts the text that they stand for. -/
inductive Token where
  | ident (name : String)
  | int (digits : String)
  | float (digits : String)
  | text (s : String)
  | and
  | or
  | not
  | isIn
  | same
  | true
  | false
  | none
  | eq
  | notEq
  | lt
  | le
  | gt
  | ge
  | plus
  | minus
  | star
  | slash
  | percent
  | openParen
  | closeParen
  | openBracket
  | closeBracket
  | comma
  | dot
  deriving DecidableEq

/-- How a message shows a token: a text between single quotes, a keyword in its usual spelling,
anything else as it is written. -/
def Token.shown : Token → String
  | .ident name => name
  | .int digits => digits
  | .float digits => digits
  | .text s => "'" ++ s ++ "'"
  | .and => "and"
  | .or => "or"
  | .not => "not"
  | .isIn => "in"
  | .same => "is"
  | .true => "True"
  | .false => "False"
  | .none => "None"
  | .eq => "=="
  | .notEq => "!="
  | .lt => "<"
  | .le => "<="
  | .gt => ">"
  | .ge => ">="
  | .plus => "+"
  | .minus => "-"
  | .star => "*"
  | .slash => "/"
  | .percent => "%"
  | .openParen => "("
  | .closeParen => ")"
  | .openBracket => "["
  | .closeBracket => "]"
  | .comma => ","
  | .dot => "."

/-- The token of a word: a keyword in one of its spellings, or an identifier. -/
def Token.ofWord (word : String) : Token :=
  match word with
  | "and" => .and
  | "or" => .or
  | "not" => .not
  | "in" => .isIn
  | "is" => .same
  | "True" | "true" => .true
  | "False" | "false" => .false
  | "None" | "null" => .none
  | _ => .ident word

/-- A token and the offset in bytes at which its spelling begins. -/
structure Placed where
  token : Token
  position : Nat
  deriving DecidableEq

end FormValidation.Condition
