import FormValidation.Proofs.Condition.Depth
import Mathlib.Data.List.TakeWhile

/-!
# The trees of conditions

Not every tree is the tree of a condition: a chain has at least two operands, a comparison compares
with something, a literal has no parts and is not negative, and a name is an identifier that is no
keyword.  Trees of that kind are well formed, with literals of a kind as a parameter
(`Expr.WellFormed`).

The names are a matter of the tokens.  Only words are read as identifiers, and only those that are
no keywords (`named_of_tokensFrom`).  The rest is a matter of the grammar: an induction on
derivations shows that every phrase has well-formed trees (`Derives.wellFormed`).  Together they
say that whatever is read is well formed (`wellFormed_of_parse`).
-/

namespace FormValidation

/-! ## Well-formed trees -/

namespace Condition

/-- The words that are no names. -/
def keywords : List String :=
  ["and", "or", "not", "in", "is", "True", "true", "False", "false", "None", "null"]

/-- A name is an identifier that is no keyword. -/
structure IsName (x : String) : Prop where
  identifier : ∃ c cs, x = String.ofList (c :: cs) ∧ isWordStart c = true ∧
    ∀ d ∈ cs, isWordPart d = true
  free : x ∉ keywords

end Condition

/-- The values that a literal can have: no number is negative, and nothing has parts. -/
def Value.IsLiteral : Value → Prop
  | .null | .bool _ | .float _ | .text _ => True
  | .int n => 0 ≤ n.toInt
  | .list _ | .map _ | .date _ | .moment _ | .clock _ => False

namespace Expr

open Condition (IsName)

mutual

/-- A tree that a condition may have, with literals of a kind: a chain has at least two operands,
a comparison compares something, and all names are names. -/
def WellFormed (literal : Value → Prop) : Expr → Prop
  | .literal v => literal v
  | .list items => AllWellFormed literal items
  | .name x => IsName x
  | .not operand => WellFormed literal operand
  | .neg operand => WellFormed literal operand
  | .arithmetic _ left right => WellFormed literal left ∧ WellFormed literal right
  | .chain _ operands => 2 ≤ operands.length ∧ AllWellFormed literal operands
  | .comparison first rest =>
    rest ≠ [] ∧ WellFormed literal first ∧ ComparedWellFormed literal rest
  | .subscript target index => WellFormed literal target ∧ WellFormed literal index
  | .member target x => WellFormed literal target ∧ IsName x
  | .call function arguments => IsName function ∧ AllWellFormed literal arguments
  | .method target x arguments =>
    WellFormed literal target ∧ IsName x ∧ AllWellFormed literal arguments

/-- All of several trees are well formed. -/
def AllWellFormed (literal : Value → Prop) : List Expr → Prop
  | [] => True
  | e :: rest => WellFormed literal e ∧ AllWellFormed literal rest

/-- The operands to the right of comparison operators are well formed. -/
def ComparedWellFormed (literal : Value → Prop) : List (Comparison × Expr) → Prop
  | [] => True
  | (_, e) :: rest => WellFormed literal e ∧ ComparedWellFormed literal rest

end

end Expr

namespace Condition

/-! ## Names among the tokens -/

lemma ofWord_eq_ident_iff {word x : String} :
    Token.ofWord word = .ident x ↔ word = x ∧ word ∉ keywords := by
  rw [Token.ofWord.eq_def]
  split <;> simp_all [keywords]

/-- All identifiers among the tokens are names. -/
def Named (ts : List Token) : Prop := ∀ x, .ident x ∈ ts → IsName x

lemma mark?_ne_ident (c : Char) (x : String) : Lexeme.mark? c ≠ some (.ident x) := by
  intro h
  rw [Lexeme.mark?.eq_def] at h
  split at h <;> cases h

lemma token_of_paired {position : Nat} {c : Char} {t : Token} {cs : List Char} {l : Lexeme}
    (h : Lexeme.paired position c t cs = .ok l) : l.token = t := by
  cases cs with
  | nil => cases h
  | cons d rest =>
      rw [Lexeme.paired] at h
      split at h <;> cases h
      rfl

lemma token_either (withEquals alone : Token) (cs : List Char) :
    (Lexeme.either withEquals alone cs).token = withEquals ∨
      (Lexeme.either withEquals alone cs).token = alone := by
  cases cs with
  | nil => exact .inr rfl
  | cons c rest =>
      rw [Lexeme.either]
      split
      · exact .inl rfl
      · exact .inr rfl

lemma number_token_ne_ident (cs : List Char) (x : String) :
    (Lexeme.number cs).token ≠ .ident x := by
  rw [Lexeme.number]
  split
  · split <;> simp
  · simp

/-- A word that is read as an identifier is a name. -/
lemma isName_of_word {c : Char} {cs : List Char} {x : String} (hstart : isWordStart c = true)
    (h : (Lexeme.word (c :: cs)).token = .ident x) : IsName x := by
  have hpart := Lexeme.isWordPart_of_isWordStart hstart
  obtain ⟨hx, hfree⟩ := ofWord_eq_ident_iff.1 h
  rw [hx] at hfree
  rw [List.takeWhile_cons_of_pos hpart] at hx
  have hrest : ∀ d ∈ cs.takeWhile isWordPart, isWordPart d = true :=
    fun d hd => List.mem_takeWhile_imp hd
  exact ⟨⟨c, cs.takeWhile isWordPart, hx.symm, hstart, hrest⟩, hfree⟩

/-- Only words are read as identifiers. -/
lemma isName_of_read {position : Nat} {c : Char} {cs : List Char} {l : Lexeme} {x : String}
    (h : Lexeme.read position c cs = .ok l) (hx : l.token = .ident x) : IsName x := by
  have hpaired : ∀ {d t}, Lexeme.paired position d t cs = .ok l → t ≠ .ident x → IsName x :=
    fun h ht => absurd ((token_of_paired h).symm.trans hx) ht
  have heither : ∀ {a b}, (.ok (Lexeme.either a b cs) : Except Fault Lexeme) = .ok l →
      a ≠ .ident x → b ≠ .ident x → IsName x := by
    intro a b h ha hb
    cases h
    rcases token_either a b cs with ht | ht
    · exact absurd (ht.symm.trans hx) ha
    · exact absurd (ht.symm.trans hx) hb
  rw [Lexeme.read] at h
  split at h
  · rename_i t hmark
    cases h
    rw [show t = .ident x from hx] at hmark
    exact absurd hmark (mark?_ne_ident c x)
  · split at h
    · exact hpaired h (by simp)
    split at h
    · exact hpaired h (by simp)
    split at h
    · exact hpaired h (by simp)
    split at h
    · exact heither h (by simp) (by simp)
    split at h
    · exact heither h (by simp) (by simp)
    split at h
    · exact heither h (by simp) (by simp)
    split at h
    · split at h <;> cases h
      cases hx
    split at h
    · cases h
      exact absurd hx (number_token_ne_ident (c :: cs) x)
    split at h
    · rename_i hstart
      cases h
      exact isName_of_word hstart hx
    · cases h

/-- **Every identifier that is read is a name.** -/
lemma named_of_tokensFrom {position : Nat} {cs : List Char} {placed : List Placed}
    (h : tokensFrom position cs = .ok placed) : Named (placed.map (·.token)) := by
  fun_induction tokensFrom position cs generalizing placed with
  | case1 position =>
      cases h
      exact fun x hx => nomatch hx
  | case2 position c cs hspace ih => exact ih h
  | case3 => cases h
  | case4 => cases h
  | case5 position c cs hspace l hread hlt more hmore ih =>
      cases h
      intro x hx
      rcases List.mem_cons.1 hx with heq | hx
      · exact isName_of_read hread heq.symm
      · exact ih hmore x hx

lemma named_append {ts ts' : List Token} : Named (ts ++ ts') ↔ Named ts ∧ Named ts' := by
  simp only [Named, List.mem_append, or_imp, forall_and]

lemma named_cons {t : Token} {ts : List Token} :
    Named (t :: ts) ↔ (∀ x, .ident x = t → IsName x) ∧ Named ts := by
  simp only [Named, List.mem_cons, or_imp, forall_and]

/-! ## What is derived is well formed -/

/-- The trees of a phrase are well formed. -/
def Phrase.WellFormed : Phrase → Prop
  | .disjunction e | .conjunction e | .negation e | .comparison e => e.WellFormed Value.IsLiteral
  | .sum e _ | .product e _ | .signed e | .access e _ | .primary e => e.WellFormed Value.IsLiteral
  | .operands _ es => es ≠ [] ∧ Expr.AllWellFormed Value.IsLiteral es
  | .comparisons more => Expr.ComparedWellFormed Value.IsLiteral more
  | .sequence es | .items es => Expr.AllWellFormed Value.IsLiteral es

lemma wellFormed_operand {op : Connective} {e : Expr} :
    (Phrase.operand op e).WellFormed ↔ e.WellFormed Value.IsLiteral := by
  cases op <;> rfl

/-- A chain of several operands is a node, and one of a single operand is none. -/
lemma wellFormed_ofChain {op : Connective} {es : List Expr} (hne : es ≠ [])
    (h : Expr.AllWellFormed Value.IsLiteral es) :
    (ofChain op es).WellFormed Value.IsLiteral := by
  match es, hne, h with
  | [e], _, h => exact h.1
  | e :: e' :: es, _, h => exact ⟨Nat.le_add_left 2 es.length, h⟩

lemma isLiteral_of_literalValue? {t : Token} {v : Value} (h : literalValue? t = some v) :
    v.IsLiteral := by
  cases t with
  | int digits =>
      obtain ⟨n, hn, rfl⟩ := Option.map_eq_some_iff.1 h
      obtain ⟨m, -, hm⟩ := Option.bind_eq_some_iff.1 hn
      rw [int64?] at hm
      split at hm
      · rename_i hfits
        cases hm
        show 0 ≤ (Int64.ofInt m).toInt
        rw [Int64.toInt_ofInt_of_le hfits.1 (Int.lt_of_le_of_lt hfits.2 (by decide))]
        exact Int.natCast_nonneg m
      · cases hm
  | float digits =>
      obtain ⟨d, -, rfl⟩ := Option.map_eq_some_iff.1 h
      trivial
  | text s => cases h; trivial
  | true => cases h; trivial
  | false => cases h; trivial
  | none => cases h; trivial
  | _ => cases h

/-- **Whatever is derived is well formed**, if the identifiers among its tokens are names. -/
theorem Derives.wellFormed {φ : Phrase} {ts : List Token} {c : Nat} (h : Derives φ ts c)
    (hnamed : Named ts) : φ.WellFormed := by
  induction h with
  | operand h ih => exact ⟨List.cons_ne_nil _ _, wellFormed_operand.1 (ih hnamed), trivial⟩
  | operands h h' ih ih' =>
      obtain ⟨hts, hts'⟩ := named_append.1 hnamed
      exact ⟨List.cons_ne_nil _ _, wellFormed_operand.1 (ih hts), (ih' (named_cons.1 hts').2).2⟩
  | disjunction h ih => exact wellFormed_ofChain (ih hnamed).1 (ih hnamed).2
  | conjunction h ih => exact wellFormed_ofChain (ih hnamed).1 (ih hnamed).2
  | not h ih => exact ih (named_cons.1 hnamed).2
  | affirmed h ih => exact ih hnamed
  | @comparison e k more ts ts' c c' h h' ih ih' =>
      obtain ⟨hts, hts'⟩ := named_append.1 hnamed
      cases more with
      | nil => exact ih hts
      | cons link more => exact ⟨List.cons_ne_nil _ _, ih hts, ih' hts'⟩
  | uncompared => trivial
  | compared h h' ih ih' =>
      obtain ⟨hts, hts'⟩ := named_append.1 (named_append.1 hnamed).2
      exact ⟨ih hts, ih' hts'⟩
  | summand h ih => exact ih hnamed
  | sum h ht h' ih ih' =>
      obtain ⟨hts, hts'⟩ := named_append.1 hnamed
      exact ⟨ih hts, ih' (named_cons.1 hts').2⟩
  | factor h ih => exact ih hnamed
  | product h ht h' ih ih' =>
      obtain ⟨hts, hts'⟩ := named_append.1 hnamed
      exact ⟨ih hts, ih' (named_cons.1 hts').2⟩
  | minus h ih => exact ih (named_cons.1 hnamed).2
  | plus h ih => exact ih (named_cons.1 hnamed).2
  | unsigned h ih => exact ih hnamed
  | target h ih => exact ih hnamed
  | subscript h h' ih ih' =>
      obtain ⟨hts, hts'⟩ := named_append.1 hnamed
      exact ⟨ih hts, ih' (named_append.1 (named_cons.1 hts').2).1⟩
  | member h ih =>
      obtain ⟨hts, hts'⟩ := named_append.1 hnamed
      exact ⟨ih hts, (named_cons.1 (named_cons.1 hts').2).1 _ rfl⟩
  | method h h' ih ih' =>
      obtain ⟨hts, hts'⟩ := named_append.1 hnamed
      obtain ⟨hname, hrest⟩ := named_cons.1 (named_cons.1 hts').2
      exact ⟨ih hts, hname _ rfl, ih' (named_append.1 (named_cons.1 hrest).2).1⟩
  | literal h => exact isLiteral_of_literalValue? h
  | name => exact (named_cons.1 hnamed).1 _ rfl
  | call h ih =>
      obtain ⟨hname, hrest⟩ := named_cons.1 hnamed
      exact ⟨hname _ rfl, ih (named_append.1 (named_cons.1 hrest).2).1⟩
  | group h ih => exact ih (named_append.1 (named_cons.1 hnamed).2).1
  | list h ih => exact ih (named_append.1 (named_cons.1 hnamed).2).1
  | noItems => trivial
  | items h ih => exact ih hnamed
  | item h ih => exact ⟨ih hnamed, trivial⟩
  | lastComma h ih => exact ⟨ih (named_append.1 hnamed).1, trivial⟩
  | sequence h h' ih ih' =>
      obtain ⟨hts, hts'⟩ := named_append.1 hnamed
      exact ⟨ih hts, ih' (named_cons.1 hts').2⟩

/-- **What is read is well formed.** -/
lemma wellFormed_of_parse {source : String} {e : Expr} (h : parse source = .ok e) :
    e.WellFormed Value.IsLiteral := by
  obtain ⟨c, -, hreads⟩ := exists_readsAs h
  obtain ⟨placed, htokens, hderives⟩ := hreads.derives
  have hfrom : tokensFrom 0 source.toList = .ok placed := by
    rw [tokens] at htokens
    split at htokens
    · cases htokens
    · exact htokens
  exact hderives.wellFormed (named_of_tokensFrom hfrom)

end Condition

end FormValidation
