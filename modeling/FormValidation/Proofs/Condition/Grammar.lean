import FormValidation.Condition.Reader
import Mathlib.Tactic.Common

/-!
# The grammar of conditions

The grammar of the condition language on lists of tokens, with what a derivation costs in nesting.
It is written down without the reader: rules put lists of tokens together, chains of arithmetic and
of accesses lean to the left, and nothing says how far a token list is looked at.

A `Phrase` is a nonterminal together with the tree that it stands for; sums, products and accesses
also carry the number of their links, since the next link costs one more.  `Derives φ ts c` says
that the tokens `ts` are a phrase `φ` and that the derivation costs `c`.

Two numbers of tokens say where phrases begin and end.  `Token.opening` says at which level a token
can begin a phrase (`Derives.begins`), and `Token.grip` at which level it can continue one.
-/

namespace FormValidation.Condition

/-! ## Tokens -/

/-- The value of a token that is a literal; digits of a number that does not fit have none. -/
def literalValue? : Token → Option Value
  | .int digits =>
    ((Numeral.nat? digits.toList).bind fun n => int64? (n : Int)).map fun n => .int n
  | .float digits => (Decimal.readUnsigned? digits.toList).map fun d => .float d.toFloat
  | .text s => some (.text s)
  | .true => some (.bool true)
  | .false => some (.bool false)
  | .none => some .null
  | _ => none

/-- The tokens of a comparison operator. -/
def comparisonTokens : Comparison → List Token
  | .eq => [.eq]
  | .notEq => [.notEq]
  | .lt => [.lt]
  | .le => [.le]
  | .gt => [.gt]
  | .ge => [.ge]
  | .isIn => [.isIn]
  | .notIn => [.not, .isIn]
  | .same => [.same]
  | .notSame => [.same, .not]

/-- The token of a connective. -/
def connectiveToken : Connective → Token
  | .and => .and
  | .or => .or

/-- The level at which a token can begin a phrase: 0 for operands, 1 for signs, 2 for negations, and
3 for tokens that begin nothing. -/
def Token.opening : Token → Nat
  | .ident _ | .int _ | .float _ | .text _ | .true | .false | .none => 0
  | .openParen | .openBracket => 0
  | .plus | .minus => 1
  | .not => 2
  | _ => 3

/-- The level at which a token can continue a phrase: 0 for calls, 1 for accesses, then products,
sums, comparisons, conjunctions and disjunctions, and 7 for tokens that continue nothing. -/
def Token.grip : Token → Nat
  | .openParen => 0
  | .openBracket | .dot => 1
  | .star | .slash | .percent => 2
  | .plus | .minus => 3
  | .eq | .notEq | .lt | .le | .gt | .ge | .isIn | .same | .not => 4
  | .and => 5
  | .or => 6
  | _ => 7

/-! ## Derivations -/

/-- A nonterminal of the grammar and the tree that it stands for. -/
inductive Phrase where
  | disjunction (e : Expr)
  | conjunction (e : Expr)
  | negation (e : Expr)
  | comparison (e : Expr)
  /-- A sum of as many links. -/
  | sum (e : Expr) (links : Nat)
  | product (e : Expr) (links : Nat)
  | signed (e : Expr)
  /-- An operand with as many accesses. -/
  | access (e : Expr) (links : Nat)
  | primary (e : Expr)
  /-- The operands of a connective. -/
  | operands (op : Connective) (es : List Expr)
  /-- Comparison operators with the operands to their right. -/
  | comparisons (more : List (Comparison × Expr))
  /-- Items with commas between them and perhaps behind them. -/
  | sequence (es : List Expr)
  /-- A sequence or nothing. -/
  | items (es : List Expr)

/-- An operand of a connective. -/
def Phrase.operand : Connective → Expr → Phrase
  | .or => .conjunction
  | .and => .negation

/-- The tokens are a phrase, with a derivation of a cost. -/
inductive Derives : Phrase → List Token → Nat → Prop
  -- Connectives
  | operand {op e ts c} : Derives (.operand op e) ts c → Derives (.operands op [e]) ts c
  | operands {op e es ts ts' c c'} : Derives (.operand op e) ts c →
      Derives (.operands op es) ts' c' →
      Derives (.operands op (e :: es)) (ts ++ connectiveToken op :: ts') (max c c')
  | disjunction {es ts c} : Derives (.operands .or es) ts c →
      Derives (.disjunction (ofChain .or es)) ts c
  | conjunction {es ts c} : Derives (.operands .and es) ts c →
      Derives (.conjunction (ofChain .and es)) ts c
  | not {e ts c} : Derives (.negation e) ts c → Derives (.negation (.not e)) (.not :: ts) (c + 1)
  | affirmed {e ts c} : Derives (.comparison e) ts c → Derives (.negation e) ts c
  -- Comparisons
  | comparison {e k more ts ts' c c'} : Derives (.sum e k) ts c →
      Derives (.comparisons more) ts' c' →
      Derives (.comparison (if more.isEmpty then e else .comparison e more)) (ts ++ ts') (max c c')
  | uncompared : Derives (.comparisons []) [] 0
  | compared {op e k more ts ts' c c'} : Derives (.sum e k) ts c →
      Derives (.comparisons more) ts' c' →
      Derives (.comparisons ((op, e) :: more)) (comparisonTokens op ++ (ts ++ ts')) (max c c')
  -- Arithmetic
  | summand {e k ts c} : Derives (.product e k) ts c → Derives (.sum e 0) ts c
  | sum {op e e' k k' t ts ts' c c'} : Derives (.sum e k) ts c → additive? t = some op →
      Derives (.product e' k') ts' c' →
      Derives (.sum (.arithmetic op e e') (k + 1)) (ts ++ t :: ts') (max c (k + 1 + c'))
  | factor {e ts c} : Derives (.signed e) ts c → Derives (.product e 0) ts c
  | product {op e e' k t ts ts' c c'} : Derives (.product e k) ts c → multiplicative? t = some op →
      Derives (.signed e') ts' c' →
      Derives (.product (.arithmetic op e e') (k + 1)) (ts ++ t :: ts') (max c (k + 1 + c'))
  | minus {e ts c} : Derives (.signed e) ts c → Derives (.signed (.neg e)) (.minus :: ts) (c + 1)
  | plus {e ts c} : Derives (.signed e) ts c → Derives (.signed e) (.plus :: ts) (c + 1)
  | unsigned {e k ts c} : Derives (.access e k) ts c → Derives (.signed e) ts c
  -- Accesses
  | target {e ts c} : Derives (.primary e) ts c → Derives (.access e 0) ts c
  | subscript {e index k ts ts' c c'} : Derives (.access e k) ts c →
      Derives (.disjunction index) ts' c' →
      Derives (.access (.subscript e index) (k + 1))
        (ts ++ .openBracket :: (ts' ++ [.closeBracket])) (max c (k + 1 + (c' + 1)))
  | member {e name k ts c} : Derives (.access e k) ts c →
      Derives (.access (.member e name) (k + 1)) (ts ++ [.dot, .ident name]) (max c (k + 1))
  | method {e name es k ts ts' c c'} : Derives (.access e k) ts c → Derives (.items es) ts' c' →
      Derives (.access (.method e name es) (k + 1))
        (ts ++ .dot :: .ident name :: .openParen :: (ts' ++ [.closeParen]))
        (max c (k + 1 + (c' + 1)))
  -- Operands
  | literal {t v} : literalValue? t = some v → Derives (.primary (.literal v)) [t] 0
  | name {x} : Derives (.primary (.name x)) [.ident x] 0
  | call {name es ts c} : Derives (.items es) ts c →
      Derives (.primary (.call name es)) (.ident name :: .openParen :: (ts ++ [.closeParen]))
        (c + 1)
  | group {e ts c} : Derives (.disjunction e) ts c →
      Derives (.primary e) (.openParen :: (ts ++ [.closeParen])) (c + 1)
  | list {es ts c} : Derives (.items es) ts c →
      Derives (.primary (.list es)) (.openBracket :: (ts ++ [.closeBracket])) (c + 1)
  -- Items
  | noItems : Derives (.items []) [] 0
  | items {es ts c} : Derives (.sequence es) ts c → Derives (.items es) ts c
  | item {e ts c} : Derives (.disjunction e) ts c → Derives (.sequence [e]) ts c
  | lastComma {e ts c} : Derives (.disjunction e) ts c → Derives (.sequence [e]) (ts ++ [.comma]) c
  | sequence {e es ts ts' c c'} : Derives (.disjunction e) ts c → Derives (.sequence es) ts' c' →
      Derives (.sequence (e :: es)) (ts ++ .comma :: ts') (max c c')

/-! ## Where phrases begin -/

/-- The level from which the first token of a phrase is, if it must have one. -/
def Phrase.opening : Phrase → Option Nat
  | .access _ _ | .primary _ => some 0
  | .comparison _ | .sum _ _ | .product _ _ | .signed _ => some 1
  | .disjunction _ | .conjunction _ | .negation _ | .operands _ _ | .sequence _ => some 2
  | .comparisons _ | .items _ => none

/-- The tokens begin with one that can begin a phrase of the level. -/
def Begins (level : Nat) (ts : List Token) : Prop :=
  ∃ t more, ts = t :: more ∧ t.opening ≤ level

lemma Begins.append {level : Nat} {ts : List Token} (h : Begins level ts) (more : List Token) :
    Begins level (ts ++ more) := by
  obtain ⟨t, rest, rfl, ht⟩ := h
  exact ⟨t, rest ++ more, rfl, ht⟩

lemma Begins.mono {level higher : Nat} {ts : List Token} (h : Begins level ts)
    (hle : level ≤ higher) : Begins higher ts := by
  obtain ⟨t, rest, hts, ht⟩ := h
  exact ⟨t, rest, hts, Nat.le_trans ht hle⟩

lemma opening_of_literalValue? {t : Token} {v : Value} (h : literalValue? t = some v) :
    t.opening = 0 := by
  cases t <;> first | rfl | cases h

/-- Every phrase but those that may be empty begins with a token of its level. -/
lemma Derives.begins {φ : Phrase} {ts : List Token} {c : Nat} (h : Derives φ ts c) :
    ∀ level, φ.opening = some level → Begins level ts := by
  induction h with
  | @operand op e ts c h ih =>
      rintro level ⟨⟩
      cases op <;> exact ih 2 rfl
  | @operands op e es ts ts' c c' h h' ih ih' =>
      rintro level ⟨⟩
      cases op <;> exact (ih 2 rfl).append _
  | disjunction h ih => exact ih
  | conjunction h ih => exact ih
  | not h ih => rintro level ⟨⟩; exact ⟨_, _, rfl, Nat.le_refl 2⟩
  | affirmed h ih => rintro level ⟨⟩; exact (ih 1 rfl).mono (by omega)
  | comparison h h' ih ih' => rintro level ⟨⟩; exact (ih 1 rfl).append _
  | uncompared => rintro level ⟨⟩
  | compared h h' ih ih' => rintro level ⟨⟩
  | summand h ih => exact ih
  | sum h ht h' ih ih' => rintro level ⟨⟩; exact (ih 1 rfl).append _
  | factor h ih => exact ih
  | product h ht h' ih ih' => rintro level ⟨⟩; exact (ih 1 rfl).append _
  | minus h ih => rintro level ⟨⟩; exact ⟨_, _, rfl, Nat.le_refl 1⟩
  | plus h ih => rintro level ⟨⟩; exact ⟨_, _, rfl, Nat.le_refl 1⟩
  | unsigned h ih => rintro level ⟨⟩; exact (ih 0 rfl).mono (by omega)
  | target h ih => exact ih
  | subscript h h' ih ih' => rintro level ⟨⟩; exact (ih 0 rfl).append _
  | member h ih => rintro level ⟨⟩; exact (ih 0 rfl).append _
  | method h h' ih ih' => rintro level ⟨⟩; exact (ih 0 rfl).append _
  | literal h => rintro level ⟨⟩; exact ⟨_, _, rfl, Nat.le_of_eq (opening_of_literalValue? h)⟩
  | name => rintro level ⟨⟩; exact ⟨_, _, rfl, Nat.le_refl 0⟩
  | call h ih => rintro level ⟨⟩; exact ⟨_, _, rfl, Nat.le_refl 0⟩
  | group h ih => rintro level ⟨⟩; exact ⟨_, _, rfl, Nat.le_refl 0⟩
  | list h ih => rintro level ⟨⟩; exact ⟨_, _, rfl, Nat.le_refl 0⟩
  | noItems => rintro level ⟨⟩
  | items h ih => rintro level ⟨⟩
  | item h ih => exact ih
  | lastComma h ih => rintro level ⟨⟩; exact (ih 2 rfl).append _
  | sequence h h' ih ih' => rintro level ⟨⟩; exact (ih 2 rfl).append _

/-! ## Phrases of one level as phrases of another -/

section

variable {e : Expr} {ts : List Token} {c k : Nat}

lemma derives_signed_of_primary (h : Derives (.primary e) ts c) : Derives (.signed e) ts c :=
  .unsigned (.target h)

lemma derives_sum_of_signed (h : Derives (.signed e) ts c) : Derives (.sum e 0) ts c :=
  .summand (.factor h)

lemma derives_negation_of_sum (h : Derives (.sum e k) ts c) : Derives (.negation e) ts c := by
  have hcomparison : Derives (.comparison e) (ts ++ []) (max c 0) := .comparison h .uncompared
  rw [List.append_nil, Nat.max_zero] at hcomparison
  exact .affirmed hcomparison

lemma derives_disjunction_of_conjunction (h : Derives (.conjunction e) ts c) :
    Derives (.disjunction e) ts c :=
  .disjunction (.operand h)

lemma derives_disjunction_of_negation (h : Derives (.negation e) ts c) :
    Derives (.disjunction e) ts c :=
  derives_disjunction_of_conjunction (.conjunction (.operand h))

lemma derives_disjunction_of_sum (h : Derives (.sum e k) ts c) : Derives (.disjunction e) ts c :=
  derives_disjunction_of_negation (derives_negation_of_sum h)

end

end FormValidation.Condition
