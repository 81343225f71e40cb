import FormValidation.Proofs.Condition.TokenRoundTrip

/-!
# Writing conditions and reading them back

Every well-formed tree without fractions can be written down and is read back as it is.
`Expr.text` writes it with every operand in parentheses, so nothing hangs on which operator binds
stronger, and a chain in a chain stays one; texts are put between quotes and escaped.

What is written of a tree is read as tokens from which the tree is derived (`writtenInside_text`),
which takes one lemma for each kind of node.  With what is known of the reader this is the round
trip, `parse_text`: only the size of the text and the limit of nesting can stand in its way.
-/

namespace FormValidation

open Condition

/-! ## Writing trees -/

/-- A literal that is no fraction, which is written as it is read. -/
def Value.IsExactLiteral (v : Value) : Prop := v.IsLiteral ∧ v.kind ≠ .float

/-- The text of a literal. -/
def Value.literalText : Value → String
  | .null => "None"
  | .bool true => "True"
  | .bool false => "False"
  | .int n => String.ofList (Numeral.ofInt n.toInt)
  | .text s => quoted s
  | _ => ""

/-- A text in parentheses. -/
def inParens (s : String) : String := "(" ++ (s ++ ")")

namespace Expr

mutual

/-- The text of a tree, with every operand in parentheses. -/
def text : Expr → String
  | .literal v => v.literalText
  | .list items => "[" ++ (joined ", " items ++ "]")
  | .name x => x
  | .not operand => "not" ++ (" " ++ inParens (text operand))
  | .neg operand => "-" ++ inParens (text operand)
  | .arithmetic op left right =>
    inParens (text left) ++ (" " ++ (op.sign ++ (" " ++ inParens (text right))))
  | .chain op operands => joined (" " ++ (op.word ++ " ")) operands
  | .comparison first rest => inParens (text first) ++ compared rest
  | .subscript target index => inParens (text target) ++ ("[" ++ (inParens (text index) ++ "]"))
  | .member target x => inParens (text target) ++ ("." ++ x)
  | .call function arguments => function ++ ("(" ++ (joined ", " arguments ++ ")"))
  | .method target x arguments =>
    inParens (text target) ++ ("." ++ (x ++ ("(" ++ (joined ", " arguments ++ ")"))))

/-- The texts of several trees with a separator between any two. -/
def joined (separator : String) : List Expr → String
  | [] => ""
  | [e] => inParens (text e)
  | e :: e' :: rest => inParens (text e) ++ (separator ++ joined separator (e' :: rest))

/-- Comparison operators with the texts of the operands to their right. -/
def compared : List (Comparison × Expr) → String
  | [] => ""
  | (op, e) :: rest => " " ++ (op.spelling ++ (" " ++ (inParens (text e) ++ compared rest)))

end

end Expr

namespace Condition

/-! ## What is written, piece by piece -/

/-- What does not go on behind a tree: a closing parenthesis, or nothing. -/
def ClosesOrEnds (cs : List Char) : Prop := ∀ c ∈ cs.head?, c = ')'

/-- A text is read as the tokens of a phrase, whenever a condition holds of what is behind it. -/
def WrittenBefore (p : List Char → Prop) (φ : Phrase) (s : String) : Prop :=
  ∃ ts c, SpellsBefore p s ts ∧ Derives φ ts c

/-- A text is read as the tokens of a phrase, whatever is behind it that continues no word. -/
def Written (φ : Phrase) (s : String) : Prop := WrittenBefore EndsWord φ s

/-- A text is read as the tokens of a tree in front of a closing parenthesis and at the end. -/
def WrittenInside (e : Expr) (s : String) : Prop := WrittenBefore ClosesOrEnds (.disjunction e) s

section

variable {e e' : Expr} {s s' : String}

lemma Written.raise {φ ψ : Phrase} (h : Written φ s)
    (hrule : ∀ {ts c}, Derives φ ts c → Derives ψ ts c) : Written ψ s := by
  obtain ⟨ts, c, hspells, hderives⟩ := h
  exact ⟨ts, c, hspells, hrule hderives⟩

/-- A phrase and what is spelled behind it. -/
lemma Written.behind {φ ψ : Phrase} {ts' : List Token} (h : Written φ s) (h' : Spells s' ts')
    (hword : EndsWord s'.toList)
    (hrule : ∀ {ts c}, Derives φ ts c → ∃ c', Derives ψ (ts ++ ts') c') : Written ψ (s ++ s') := by
  obtain ⟨ts, c, hspells, hderives⟩ := h
  obtain ⟨c', hderived⟩ := hrule hderives
  exact ⟨ts ++ ts', c', Spells.append hspells h' hword, hderived⟩

lemma Written.inside (h : Written (.disjunction e) s) : WrittenInside e s := by
  obtain ⟨ts, c, hspells, hderives⟩ := h
  refine ⟨ts, c, SpellsBefore.mono hspells fun rest hrest c hc => ?_, hderives⟩
  rw [hrest c hc]
  rfl

/-- A tree in parentheses is an operand, whatever comes behind it. -/
lemma WrittenInside.primary (h : WrittenInside e s) : Written (.primary e) (inParens s) := by
  obtain ⟨ts, c, hspells, hderives⟩ := h
  have hclose : ∀ rest, ClosesOrEnds (')' :: rest) := by
    rintro rest _ ⟨⟩
    rfl
  exact ⟨_, _, hspells.inParens hclose, .group hderives⟩

end

/-! ## Operators -/

/-- The token of an arithmetic operator. -/
def signToken : Arithmetic → Token
  | .add => .plus
  | .sub => .minus
  | .mul => .star
  | .div => .slash
  | .rem => .percent

lemma spells_sign (op : Arithmetic) : SpellsBefore BeginsBlank op.sign [signToken op] := by
  cases op <;> exact spells_operator rfl rfl fun _ _ => rfl

lemma spells_connective (op : Connective) :
    SpellsBefore BeginsBlank op.word [connectiveToken op] := by
  cases op <;> exact spells_operator rfl rfl fun _ _ => rfl

lemma spells_not : SpellsBefore BeginsBlank "not" [.not] :=
  spells_operator rfl rfl fun _ _ => rfl

lemma spells_comparison (op : Comparison) :
    SpellsBefore BeginsBlank op.spelling (comparisonTokens op) := by
  cases op with
  | notIn =>
      have hin : SpellsBefore BeginsBlank "in" [.isIn] := spells_operator rfl rfl fun _ _ => rfl
      exact spells_not.operator hin
  | notSame =>
      have his : SpellsBefore BeginsBlank "is" [.same] := spells_operator rfl rfl fun _ _ => rfl
      exact his.operator spells_not
  | _ => exact spells_operator rfl rfl fun _ _ => rfl

/-! ## One lemma for each kind of node -/

section

variable {e e' : Expr} {s s' : String}

lemma Written.disjunction (h : Written (.primary e) s) : Written (.disjunction e) s :=
  h.raise fun h => derives_disjunction_of_sum (derives_sum_of_signed (derives_signed_of_primary h))

lemma Written.not (h : Written (.primary e) s) :
    Written (.disjunction (.not e)) ("not" ++ (" " ++ s)) := by
  obtain ⟨ts, c, hspells, hderives⟩ := h
  have hnegation : Derives (.negation e) ts c :=
    derives_negation_of_sum (derives_sum_of_signed (derives_signed_of_primary hderives))
  exact ⟨_, _, spells_not.operator hspells, derives_disjunction_of_negation (.not hnegation)⟩

lemma Written.neg (h : Written (.primary e) s) : Written (.disjunction (.neg e)) ("-" ++ s) := by
  obtain ⟨ts, c, hspells, hderives⟩ := h
  exact ⟨_, _, Spells.behindMark hspells rfl rfl fun _ _ => rfl, derives_disjunction_of_sum
    (derives_sum_of_signed (.minus (derives_signed_of_primary hderives)))⟩

lemma Written.arithmetic (op : Arithmetic) (h : Written (.primary e) s)
    (h' : Written (.primary e') s') :
    Written (.disjunction (.arithmetic op e e')) (s ++ (" " ++ (op.sign ++ (" " ++ s')))) := by
  obtain ⟨ts, c, hspells, hderives⟩ := h
  obtain ⟨ts', c', hspells', hderives'⟩ := h'
  have hspelled : Spells (s ++ (" " ++ (op.sign ++ (" " ++ s')))) (ts ++ signToken op :: ts') :=
    Spells.infixed hspells (spells_sign op) hspells'
  have hfirst := derives_signed_of_primary hderives
  have hsecond := derives_signed_of_primary hderives'
  refine ⟨_, max c (1 + c'), hspelled, ?_⟩
  cases op with
  | add | sub =>
      exact derives_disjunction_of_sum (.sum (derives_sum_of_signed hfirst) rfl (.factor hsecond))
  | mul | div | rem =>
      exact derives_disjunction_of_sum (.summand (.product (.factor hfirst) rfl hsecond))

lemma Written.accessed {n : Nat} (h : Written (.access e n) s) : Written (.disjunction e) s :=
  h.raise fun h => derives_disjunction_of_sum (derives_sum_of_signed (.unsigned h))

lemma Written.subscript (h : Written (.primary e) s) (h' : Written (.primary e') s') :
    Written (.disjunction (.subscript e e')) (s ++ ("[" ++ (s' ++ "]"))) := by
  obtain ⟨ts', c', hspells', hderives'⟩ := h'.disjunction
  have hindex := SpellsBefore.inBrackets hspells' (endsWord_cons rfl)
  exact (h.behind hindex (endsWord_append rfl rfl)
    fun h => ⟨_, .subscript (.target h) hderives'⟩).accessed

lemma spells_name {x : String} (h : IsName x) : Spells x [.ident x] :=
  .of_reads (reads_name h)

lemma written_name {x : String} (h : IsName x) : Written (.disjunction (.name x)) x :=
  Written.disjunction ⟨_, _, spells_name h, .name⟩

lemma Written.member {x : String} (h : Written (.primary e) s) (hx : IsName x) :
    Written (.disjunction (.member e x)) (s ++ ("." ++ x)) := by
  have hmember : Spells ("." ++ x) [.dot, .ident x] :=
    (spells_name hx).behindMark rfl rfl fun _ _ => rfl
  exact (h.behind hmember (endsWord_append rfl rfl) fun h => ⟨_, .member (.target h)⟩).accessed

variable {es : List Expr}

lemma Written.list (h : Written (.items es) s) :
    Written (.disjunction (.list es)) ("[" ++ (s ++ "]")) := by
  obtain ⟨ts, c, hspells, hderives⟩ := h
  exact Written.disjunction
    ⟨_, _, SpellsBefore.inBrackets hspells (endsWord_cons rfl), .list hderives⟩

lemma Written.call {x : String} (hx : IsName x) (h : Written (.items es) s) :
    Written (.disjunction (.call x es)) (x ++ ("(" ++ (s ++ ")"))) := by
  obtain ⟨ts, c, hspells, hderives⟩ := h
  have hcall := (spells_name hx).append (SpellsBefore.inParens hspells (endsWord_cons rfl))
    (endsWord_append rfl rfl)
  exact Written.disjunction ⟨_, _, hcall, .call hderives⟩

lemma Written.method {x : String} (h : Written (.primary e) s) (hx : IsName x)
    (hes : Written (.items es) s') :
    Written (.disjunction (.method e x es)) (s ++ ("." ++ (x ++ ("(" ++ (s' ++ ")"))))) := by
  obtain ⟨ts', c', hspells', hderives'⟩ := hes
  have hcall := (spells_name hx).append (SpellsBefore.inParens hspells' (endsWord_cons rfl))
    (endsWord_append rfl rfl)
  have hmethod := hcall.behindMark (m := ".") (t := .dot) rfl rfl fun _ _ => rfl
  exact (h.behind hmethod (endsWord_append rfl rfl)
    fun h => ⟨_, .method (.target h) hderives'⟩).accessed

end

/-! ## Several trees -/

lemma WrittenInside.operand {e : Expr} (op : Connective) (h : WrittenInside e e.text) :
    Written (.operand op e) (inParens e.text) := by
  obtain ⟨ts, c, hspells, hderives⟩ := h.primary
  have hnegation := derives_negation_of_sum
    (derives_sum_of_signed (derives_signed_of_primary hderives))
  cases op with
  | and => exact ⟨ts, c, hspells, hnegation⟩
  | or => exact ⟨ts, c, hspells, .conjunction (.operand hnegation)⟩

/-- The operands of a connective. -/
lemma written_operands (op : Connective) : ∀ {es : List Expr}, es ≠ [] →
    (∀ e ∈ es, WrittenInside e e.text) →
    Written (.operands op es) (Expr.joined (" " ++ (op.word ++ " ")) es)
  | [], hne, _ => absurd rfl hne
  | [e], _, h => ((h e List.mem_cons_self).operand op).raise .operand
  | e :: e' :: es, _, h => by
      obtain ⟨hfirst, hrest⟩ := List.forall_mem_cons.1 h
      obtain ⟨ts, c, hspells, hderives⟩ := hfirst.operand op
      obtain ⟨ts', c', hspells', hderives'⟩ := written_operands op (List.cons_ne_nil e' es) hrest
      have hspelled := Spells.infixed hspells (spells_connective op) hspells'
      refine ⟨_, _, ?_, .operands hderives hderives'⟩
      rw [Expr.joined, String.append_assoc, String.append_assoc]
      exact hspelled

/-- A sequence of items. -/
lemma written_sequence : ∀ {es : List Expr}, es ≠ [] → (∀ e ∈ es, WrittenInside e e.text) →
    Written (.sequence es) (Expr.joined ", " es)
  | [], hne, _ => absurd rfl hne
  | [e], _, h => (h e List.mem_cons_self).primary.disjunction.raise .item
  | e :: e' :: es, _, h => by
      obtain ⟨hfirst, hrest⟩ := List.forall_mem_cons.1 h
      obtain ⟨ts', c', hspells', hderives'⟩ := written_sequence (List.cons_ne_nil e' es) hrest
      have hblank : Spells (" " ++ Expr.joined ", " (e' :: es)) ts' :=
        SpellsBefore.blank.append hspells' fun _ _ => trivial
      have hcomma := hblank.behindMark (m := ",") (t := .comma) rfl rfl fun _ _ => rfl
      rw [Expr.joined, show ", " = "," ++ " " from rfl, String.append_assoc]
      exact hfirst.primary.disjunction.behind hcomma (endsWord_append rfl rfl)
        fun h => ⟨_, .sequence h hderives'⟩

/-- The items of a list or of a call. -/
lemma written_items {es : List Expr} (h : ∀ e ∈ es, WrittenInside e e.text) :
    Written (.items es) (Expr.joined ", " es) := by
  cases es with
  | nil => exact ⟨_, _, spells_nil, .noItems⟩
  | cons e es => exact (written_sequence (List.cons_ne_nil e es) h).raise .items

/-- What a comparison compares with. -/
lemma written_compared : ∀ {more : List (Comparison × Expr)},
    (∀ link ∈ more, WrittenInside link.2 link.2.text) →
    Written (.comparisons more) (Expr.compared more) ∧ EndsWord (Expr.compared more).toList
  | [], _ => ⟨⟨_, _, spells_nil, .uncompared⟩, endsWord_nil⟩
  | (op, e) :: more, h => by
      obtain ⟨hfirst, hrest⟩ := List.forall_mem_cons.1 h
      obtain ⟨ts, c, hspells, hderives⟩ := hfirst.primary
      obtain ⟨⟨ts', c', hspells', hderives'⟩, hends⟩ := written_compared hrest
      have hoperand := (spells_comparison op).operator (Spells.append hspells hspells' hends)
      have hspelled := SpellsBefore.blank.append hoperand fun _ _ => trivial
      have hsum := derives_sum_of_signed (derives_signed_of_primary hderives)
      exact ⟨⟨_, _, hspelled, .compared hsum hderives'⟩, endsWord_append rfl rfl⟩

lemma written_chain (op : Connective) {es : List Expr} (htwo : 2 ≤ es.length)
    (h : ∀ e ∈ es, WrittenInside e e.text) :
    Written (.disjunction (.chain op es)) (Expr.joined (" " ++ (op.word ++ " ")) es) := by
  have hne : es ≠ [] := by
    rintro rfl
    cases htwo
  have hchain : ofChain op es = .chain op es := by
    match es, htwo with
    | e :: e' :: es, _ => rfl
  have hoperands := written_operands op hne h
  rw [← hchain]
  cases op with
  | and => exact hoperands.raise fun h => derives_disjunction_of_conjunction (.conjunction h)
  | or => exact hoperands.raise .disjunction

lemma written_comparison {e : Expr} {more : List (Comparison × Expr)} (hne : more ≠ [])
    (hfirst : WrittenInside e e.text) (h : ∀ link ∈ more, WrittenInside link.2 link.2.text) :
    Written (.disjunction (.comparison e more)) (inParens e.text ++ Expr.compared more) := by
  obtain ⟨⟨ts', c', hspells', hderives'⟩, hends⟩ := written_compared h
  refine hfirst.primary.behind hspells' hends fun hderives => ?_
  have hcomparison :=
    Derives.comparison (derives_sum_of_signed (derives_signed_of_primary hderives)) hderives'
  rw [if_neg (by simpa using hne)] at hcomparison
  exact ⟨_, derives_disjunction_of_negation (.affirmed hcomparison)⟩

/-! ## Literals -/

lemma written_of_literalValue? {t : Token} {v : Value} {s : String} (hspells : Spells s [t])
    (hvalue : literalValue? t = some v) : WrittenInside (.literal v) s :=
  (Written.disjunction ⟨_, _, hspells, .literal hvalue⟩).inside

/-- The digits of a number that fits are a literal of it. -/
lemma literalValue?_digits {n : Int64} (h : 0 ≤ n.toInt) :
    literalValue? (.int (String.ofList (Numeral.ofNat n.toInt.natAbs))) = some (.int n) := by
  have hnat : (n.toInt.natAbs : Int) = n.toInt := Int.natAbs_of_nonneg h
  simp only [literalValue?, String.toList_ofList, Numeral.nat?_ofNat, Option.bind_some, hnat,
    int64?_toInt, Option.map_some]

lemma spells_ofNat (k : Nat) : SpellsBefore EndsNumber (String.ofList (Numeral.ofNat k))
    [.int (String.ofList (Numeral.ofNat k))] := by
  have hdigits : ∀ d ∈ Numeral.ofNat k, d.isDigit = true :=
    fun d hd => Numeral.isDigit_of_mem_ofNat hd
  cases hcs : Numeral.ofNat k with
  | nil => exact absurd hcs (Numeral.ofNat_ne_nil k)
  | cons c cs =>
      rw [hcs] at hdigits
      exact spells_digits hdigits

lemma derives_digits {n : Int64} (h : 0 ≤ n.toInt) :
    Derives (.primary (.literal (.int n)))
      [.int (String.ofList (Numeral.ofNat n.toInt.natAbs))] 0 :=
  .literal (literalValue?_digits h)

lemma writtenInside_int {n : Int64} (h : 0 ≤ n.toInt) :
    WrittenInside (.literal (.int n)) (String.ofList (Numeral.ofInt n.toInt)) := by
  have hspelling : Numeral.ofInt n.toInt = Numeral.ofNat n.toInt.natAbs := by
    rw [Numeral.ofInt, if_neg (Int.not_lt.2 h)]
  rw [hspelling]
  refine ⟨_, 0, (spells_ofNat _).mono fun rest hrest d hd => ?_, derives_disjunction_of_sum
    (derives_sum_of_signed (derives_signed_of_primary (derives_digits h)))⟩
  rw [hrest d hd]
  exact ⟨rfl, by decide⟩

lemma writtenInside_literal {v : Value} (h : v.IsExactLiteral) :
    WrittenInside (.literal v) v.literalText := by
  obtain ⟨hliteral, hexact⟩ := h
  have hword : ∀ (c : Char) (cs : List Char), isWordStart c = true → cs.all isWordPart = true →
      literalValue? (Token.ofWord (String.ofList (c :: cs))) = some v →
      WrittenInside (.literal v) (String.ofList (c :: cs)) :=
    fun _ _ hstart hpart => written_of_literalValue? (spells_word hstart (List.all_eq_true.1 hpart))
  cases v with
  | null => exact hword 'N' ['o', 'n', 'e'] rfl rfl rfl
  | bool b =>
      cases b with
      | true => exact hword 'T' ['r', 'u', 'e'] rfl rfl rfl
      | false => exact hword 'F' ['a', 'l', 's', 'e'] rfl rfl rfl
  | int n => exact writtenInside_int hliteral
  | float x => exact absurd rfl hexact
  | text s => exact written_of_literalValue? (spells_quoted s) rfl
  | list items | map entries | date d | moment m | clock c => exact hliteral.elim

/-! ## Whole trees -/

mutual

/-- **What is written of a tree is read as the tree.** -/
theorem writtenInside_text : ∀ e : Expr, e.WellFormed Value.IsExactLiteral → WrittenInside e e.text
  | .literal _, h => writtenInside_literal h
  | .list items, h => (written_items (writtenInside_all items h)).list.inside
  | .name _, h => (written_name h).inside
  | .not operand, h => (writtenInside_text operand h).primary.not.inside
  | .neg operand, h => (writtenInside_text operand h).primary.neg.inside
  | .arithmetic op left right, h =>
    ((writtenInside_text left h.1).primary.arithmetic op
      (writtenInside_text right h.2).primary).inside
  | .chain op operands, h => (written_chain op h.1 (writtenInside_all operands h.2)).inside
  | .comparison first rest, h =>
    (written_comparison h.1 (writtenInside_text first h.2.1)
      (writtenInside_links rest h.2.2)).inside
  | .subscript target index, h =>
    ((writtenInside_text target h.1).primary.subscript
      (writtenInside_text index h.2).primary).inside
  | .member target _, h => ((writtenInside_text target h.1).primary.member h.2).inside
  | .call _ arguments, h =>
    (Written.call h.1 (written_items (writtenInside_all arguments h.2))).inside
  | .method target _ arguments, h =>
    ((writtenInside_text target h.1).primary.method h.2.1
      (written_items (writtenInside_all arguments h.2.2))).inside

theorem writtenInside_all : ∀ es : List Expr, Expr.AllWellFormed Value.IsExactLiteral es →
    ∀ e ∈ es, WrittenInside e e.text
  | [], _ => fun _ h => nomatch h
  | e :: es, h => List.forall_mem_cons.2 ⟨writtenInside_text e h.1, writtenInside_all es h.2⟩

theorem writtenInside_links : ∀ more : List (Comparison × Expr),
    Expr.ComparedWellFormed Value.IsExactLiteral more →
    ∀ link ∈ more, WrittenInside link.2 link.2.text
  | [], _ => fun _ h => nomatch h
  | (_, e) :: more, h =>
    List.forall_mem_cons.2 ⟨writtenInside_text e h.1, writtenInside_links more h.2⟩

end

/-- A text of the tokens of a tree is read as the tree, if it is nested within the limit. -/
lemma reaches_parse {p : List Char → Prop} {s : String} {ts : List Token} {e : Expr} {c : Nat}
    (hspells : SpellsBefore p s ts) (hend : p []) (hderives : Derives (.disjunction e) ts c)
    (hsize : s.utf8ByteSize ≤ maxConditionBytes) : Reaches c maxNesting (parse s) (.ok e) := by
  have hne : ts ≠ [] := by
    obtain ⟨t, more, rfl, -⟩ := hderives.begins 2 rfl
    exact List.cons_ne_nil t more
  obtain ⟨placed, rfl, htokens⟩ := hspells.tokens_eq hend hne
  have hparse : parse s = ofTokens s.utf8ByteSize placed := by
    rw [parse, if_neg (Nat.not_lt.2 hsize), htokens]
    rfl
  rw [hparse]
  exact reaches_ofTokens s.utf8ByteSize hderives

/-- A text that is read as the tokens of a tree is read as the tree, within the limits. -/
lemma parse_of_writtenInside {e : Expr} {s : String} (h : WrittenInside e s) :
    parse s = .ok e ∨
      (maxConditionBytes < s.utf8ByteSize ∧ parse s = .error (.tooLarge s.utf8ByteSize)) ∨
      ∃ position, parse s = .error (.tooDeep position) := by
  obtain ⟨ts, c, hspells, hderives⟩ := h
  by_cases hsize : maxConditionBytes < s.utf8ByteSize
  · exact .inr (.inl ⟨hsize, by rw [parse, if_pos hsize]⟩)
  · have hend : ClosesOrEnds [] := by
      intro c hc
      cases hc
    have hreaches := reaches_parse hspells hend hderives (Nat.not_lt.1 hsize)
    rw [Reaches] at hreaches
    split at hreaches
    · exact .inl hreaches
    · exact .inr (.inr hreaches)

/-- **Reading and writing conditions.**  Whatever is read as a condition is a well-formed tree.  And
every well-formed tree without fractions can be written: with every operand in parentheses and its
texts escaped it is read back as it is, unless the text is too large or nested too deeply. -/
theorem parse_text :
    (∀ source e, parse source = .ok e → e.WellFormed Value.IsLiteral) ∧
    ∀ e : Expr, e.WellFormed Value.IsExactLiteral →
      parse e.text = .ok e ∨
        (maxConditionBytes < e.text.utf8ByteSize ∧
          parse e.text = .error (.tooLarge e.text.utf8ByteSize)) ∨
        ∃ position, parse e.text = .error (.tooDeep position) :=
  ⟨fun _ _ => wellFormed_of_parse, fun e h => parse_of_writtenInside (writtenInside_text e h)⟩

/-- A chain in a chain of the same connective, with a text that has a quote in it. -/
def chainInChain : Expr :=
  .chain .or [.chain .or [.name "a", .not (.name "b")],
    .comparison (.literal (.text "it's")) [(.notIn, .list [.literal (.int 7)])]]

example : chainInChain.text = "((a) or (not (b))) or (('it\\'s') not in ([(7)]))" := by
  decide +kernel

/-- It is read back as it is, and the two chains are not put together. -/
theorem parse_text_chainInChain :
    chainInChain.WellFormed Value.IsExactLiteral ∧ parse chainInChain.text = .ok chainInChain := by
  have ha : IsName "a" := ⟨⟨'a', [], rfl, rfl, fun _ hd => nomatch hd⟩, by decide⟩
  have hb : IsName "b" := ⟨⟨'b', [], rfl, rfl, fun _ hd => nomatch hd⟩, by decide⟩
  have htext : (Value.text "it's").IsExactLiteral := ⟨trivial, nofun⟩
  have hseven : (Value.int 7).IsExactLiteral :=
    ⟨show 0 ≤ (7 : Int64).toInt by decide, nofun⟩
  have hcomparison : (Expr.comparison (.literal (.text "it's"))
      [(.notIn, .list [.literal (.int 7)])]).WellFormed Value.IsExactLiteral :=
    ⟨List.cons_ne_nil _ _, htext, ⟨hseven, trivial⟩, trivial⟩
  have hwell : chainInChain.WellFormed Value.IsExactLiteral :=
    ⟨Nat.le_refl 2, ⟨Nat.le_refl 2, ha, hb, trivial⟩, hcomparison, trivial⟩
  refine ⟨hwell, (parse_text.2 chainInChain hwell).resolve_right ?_⟩
  have hok : (parse chainInChain.text).isOk = true := by decide +kernel
  rintro (⟨-, herror⟩ | ⟨position, herror⟩)
  · rw [herror] at hok
    cases hok
  · rw [herror] at hok
    cases hok

end Condition

end FormValidation
