import FormValidation.Proofs.Condition.Depth
import FormValidation.Proofs.Condition.Spelling
import Mathlib.Logic.Function.Iterate

/-!
# The deepest conditions

The bound of the depth of conditions is attained.  This file writes the conditions that attain it:
at every level the operand in brackets gets as many accesses, factors and summands behind it as it
costs already, and a comparison and two connectives besides.  A condition of 13258 bytes is 6304
nodes deep in this way, although no more than 64 levels of nesting are allowed.

`IsWritten` says that a text spells the tokens of a phrase and that the phrase is derived, so that a
condition is built together with its text.  The main statement is
`nesting_of_parse`, which has the bound and a condition of the same cost that attains it;
`nesting_behind_sign` is a condition over the limit that needs no brackets.
-/

namespace FormValidation.Condition

/-! ## The pieces of the conditions -/

/-- The operand at every leaf. -/
def leaf : Expr := .name "x"

/-- An operand with accesses, factors and summands behind it, as many of each. -/
def linked (n : Nat) (e : Expr) : Expr :=
  (Expr.arithmetic .add · leaf)^[n] ((Expr.arithmetic .mul · leaf)^[n] ((Expr.member · "x")^[n] e))

/-- The text of `linked`. -/
def linkedText (n : Nat) (s : String) : String :=
  (· ++ "+x")^[n] ((· ++ "*x")^[n] ((· ++ ".x")^[n] s))

/-- With links and then a comparison and both connectives behind it. -/
def chained (n : Nat) (e : Expr) : Expr :=
  .chain .or [.chain .and [.comparison (linked n e) [(.eq, leaf)], leaf], leaf]

/-- The text of `chained`. -/
def chainedText (n : Nat) (s : String) : String :=
  linkedText n s ++ "==x" ++ "&&x" ++ "||x"

/-- The deepest operand that is derived at a cost. -/
def deepOperand : Nat → Expr
  | 0 => leaf
  | n + 1 => .call "x" [chained n (deepOperand n)]

/-- The text of `deepOperand`. -/
def deepText : Nat → String
  | 0 => "x"
  | n + 1 => "x" ++ ("(" ++ (chainedText n (deepText n) ++ ")"))

/-! ## How they are derived -/

/-- A text is read as the tokens of a phrase, with a derivation of a cost. -/
def IsWritten (φ : Phrase) (s : String) (c : Nat) : Prop := ∃ ts, Spells s ts ∧ Derives φ ts c

lemma spells_x : Spells "x" [.ident "x"] :=
  @spells_word 'x' [] rfl fun _ h => nomatch h

/-- A mark and one more operand behind a phrase. -/
lemma IsWritten.behind {φ ψ : Phrase} {s m : String} {k : Char} {cs : List Char} {t : Token}
    {c c' : Nat} (h : IsWritten φ s c) (hmark : m.toList = k :: cs)
    (hspace : isSpace k = false) (hword : isWordPart k = false)
    (hread : ∀ position rest,
      Lexeme.read position k (cs ++ rest) = .ok ⟨t, m.utf8ByteSize, rest⟩)
    (hrule : ∀ {ts}, Derives φ ts c → Derives ψ (ts ++ [t, .ident "x"]) c') :
    IsWritten ψ (s ++ (m ++ "x")) c' := by
  obtain ⟨ts, hspells, hderives⟩ := h
  exact ⟨_, hspells.append (spells_x.behindMark hmark hspace hread) (endsWord_append hmark hword),
    hrule hderives⟩

lemma derives_leaf : Derives (.product leaf 0) [.ident "x"] 0 :=
  .factor (.unsigned (.target .name))

/-- The same links again and again, from a phrase without links on. -/
lemma IsWritten.iterate {φ : Expr → Nat → Phrase} {f : Expr → Expr} {g : String → String}
    (hlink : ∀ {e k s c}, IsWritten (φ e k) s c →
      IsWritten (φ (f e) (k + 1)) (g s) (max c (k + 1)))
    {e : Expr} {s : String} {c : Nat} (h : IsWritten (φ e 0) s c) :
    ∀ n, IsWritten (φ (f^[n] e) n) (g^[n] s) (max c n)
  | 0 => by rwa [Nat.max_zero]
  | n + 1 => by
      have hnext := hlink (h.iterate hlink n)
      rwa [Nat.max_assoc, Nat.max_eq_right (Nat.le_succ n), ← Function.iterate_succ_apply' f,
        ← Function.iterate_succ_apply' g] at hnext

/-- What is a phrase of a level is one of the next level. -/
lemma IsWritten.raise {φ ψ : Phrase} {s : String} {c : Nat} (h : IsWritten φ s c)
    (hrule : ∀ {ts}, Derives φ ts c → Derives ψ ts c) : IsWritten ψ s c := by
  obtain ⟨ts, hspells, hderives⟩ := h
  exact ⟨ts, hspells, hrule hderives⟩

lemma IsWritten.summands {e : Expr} {s : String} {c : Nat} (h : IsWritten (.sum e 0) s c)
    (n : Nat) :
    IsWritten (.sum ((Expr.arithmetic .add · leaf)^[n] e) n) ((· ++ "+x")^[n] s) (max c n) :=
  h.iterate (φ := .sum) (f := (Expr.arithmetic .add · leaf)) (g := (· ++ "+x"))
    (fun h => h.behind (m := "+") rfl rfl rfl (fun _ _ => rfl) fun h => .sum h rfl derives_leaf) n

lemma IsWritten.linked {n : Nat} {e : Expr} {s : String} (h : IsWritten (.access e 0) s n) :
    IsWritten (.sum (linked n e) n) (linkedText n s) n := by
  have haccesses := h.iterate (φ := .access) (f := (Expr.member · "x")) (g := (· ++ ".x"))
    (fun h => h.behind (m := ".") rfl rfl rfl (fun _ _ => rfl) .member) n
  rw [Nat.max_self] at haccesses
  have hfactors := (haccesses.raise fun h => .factor (.unsigned h)).iterate (φ := .product)
    (f := (Expr.arithmetic .mul · leaf)) (g := (· ++ "*x"))
    (fun h => h.behind (m := "*") rfl rfl rfl (fun _ _ => rfl)
      fun h => .product h rfl (.unsigned (.target .name))) n
  rw [Nat.max_self] at hfactors
  have hsummands := (hfactors.raise .summand).summands n
  rwa [Nat.max_self] at hsummands

/-- A comparison and connectives behind a sum cost nothing. -/
lemma IsWritten.chained {n : Nat} {e : Expr} {s : String} (h : IsWritten (.access e 0) s n) :
    IsWritten (.disjunction (chained n e)) (chainedText n s) n := by
  have hsum : Derives (.sum leaf 0) [.ident "x"] 0 := .summand derives_leaf
  have hleaf : Derives (.negation leaf) [.ident "x"] 0 :=
    .affirmed (.comparison hsum .uncompared)
  have hcompared : Derives (.comparisons [(.eq, leaf)]) [.eq, .ident "x"] (max 0 0) :=
    .compared hsum .uncompared
  have hands : Derives (.operands .and [leaf]) [.ident "x"] 0 := .operand hleaf
  have hors : Derives (.operands .or [leaf]) [.ident "x"] 0 := .operand (.conjunction hands)
  have hcomparison := h.linked.behind (m := "==") rfl rfl rfl (fun _ _ => rfl)
    fun h => .comparison h hcompared
  have hconjunction := hcomparison.behind (m := "&&") rfl rfl rfl (fun _ _ => rfl)
    fun h => .conjunction (.operands (.affirmed h) hands)
  have hdisjunction := hconjunction.behind (m := "||") rfl rfl rfl (fun _ _ => rfl)
    fun h => .disjunction (.operands h hors)
  simp only [Nat.max_zero] at hdisjunction
  exact hdisjunction

lemma isWritten_deepOperand : ∀ n, IsWritten (.access (deepOperand n) 0) (deepText n) n
  | 0 => ⟨_, spells_x, .target .name⟩
  | n + 1 => by
      obtain ⟨ts, hspells, hderives⟩ := (isWritten_deepOperand n).chained
      have hargument : Spells ("(" ++ (chainedText n (deepText n) ++ ")"))
          (.openParen :: (ts ++ [.closeParen])) :=
        SpellsBefore.inParens hspells (endsWord_cons rfl)
      exact ⟨_, spells_x.append hargument (endsWord_append rfl rfl),
        .target (.call (.items (.item hderives)))⟩

/-! ## How deep and how long they are -/

section

variable (w : Nat)

lemma depth_iterate {f : Expr → Expr} (hlink : ∀ e, (f e).depth w = e.depth w + 1) (e : Expr) :
    ∀ n, (f^[n] e).depth w = e.depth w + n
  | 0 => rfl
  | n + 1 => by rw [Function.iterate_succ_apply', hlink, depth_iterate hlink e n, Nat.add_assoc]

lemma depth_arithmetic (op : Arithmetic) (e : Expr) :
    (Expr.arithmetic op e leaf).depth w = e.depth w + 1 :=
  congrArg (· + 1) (Nat.max_zero (e.depth w))

lemma depth_linked (n : Nat) (e : Expr) : (linked n e).depth w = e.depth w + 3 * n := by
  rw [linked, depth_iterate w (depth_arithmetic w .add), depth_iterate w (depth_arithmetic w .mul),
    depth_iterate w (fun e => rfl)]
  omega

lemma depth_chained (n : Nat) (e : Expr) :
    (chained n e).depth w = e.depth w + 3 * n + 3 * w := by
  simp only [chained, Expr.depth, Expr.depthAll, Expr.depthCompared, leaf, depth_linked]
  omega

lemma depth_deepOperand : ∀ n, (deepOperand n).depth w = operandRoom w n
  | 0 => rfl
  | n + 1 => by
      have hinside := depth_chained w n (deepOperand n)
      rw [depth_deepOperand n] at hinside
      simp only [deepOperand, Expr.depth, Expr.depthAll, hinside, operandRoom]
      omega

end

lemma utf8ByteSize_iterate {s link : String} :
    ∀ n, ((· ++ link)^[n] s).utf8ByteSize = s.utf8ByteSize + link.utf8ByteSize * n
  | 0 => rfl
  | n + 1 => by
      rw [Function.iterate_succ_apply', String.utf8ByteSize_append, utf8ByteSize_iterate n,
        Nat.mul_succ, Nat.add_assoc]

lemma utf8ByteSize_chainedText (n : Nat) (s : String) :
    (chainedText n s).utf8ByteSize = s.utf8ByteSize + 6 * n + 9 := by
  have hlinks : ".x".utf8ByteSize = 2 ∧ "*x".utf8ByteSize = 2 ∧ "+x".utf8ByteSize = 2 :=
    ⟨rfl, rfl, rfl⟩
  have hchains : "==x".utf8ByteSize = 3 ∧ "&&x".utf8ByteSize = 3 ∧ "||x".utf8ByteSize = 3 :=
    ⟨rfl, rfl, rfl⟩
  simp only [chainedText, linkedText, String.utf8ByteSize_append, utf8ByteSize_iterate, hlinks,
    hchains]
  omega

lemma utf8ByteSize_deepText : ∀ n, (deepText n).utf8ByteSize = 3 * (n * n) + 9 * n + 1
  | 0 => rfl
  | n + 1 => by
      have hparts : "x".utf8ByteSize = 1 ∧ "(".utf8ByteSize = 1 ∧ ")".utf8ByteSize = 1 :=
        ⟨rfl, rfl, rfl⟩
      simp only [deepText, String.utf8ByteSize_append, utf8ByteSize_chainedText,
        utf8ByteSize_deepText n]
      ring_nf
      omega

/-! ## The bound and the conditions that attain it -/

/-- What is written within the limits is read. -/
lemma IsWritten.readsAs {e : Expr} {s : String} {c : Nat} (h : IsWritten (.disjunction e) s c)
    (hc : c ≤ maxNesting) (hsize : s.utf8ByteSize ≤ maxConditionBytes) : ReadsAs s e c := by
  obtain ⟨ts, hspells, hderives⟩ := h
  obtain ⟨t, more, rfl, -⟩ := hderives.begins 2 rfl
  obtain ⟨placed, hplaced, htokens⟩ := tokens_of_spells hspells (List.cons_ne_nil t more)
  rw [← hplaced] at hderives
  have hread := reaches_ofTokens s.utf8ByteSize hderives
  rw [Reaches, if_pos hc] at hread
  refine ⟨?_, placed, htokens, hderives⟩
  rw [parse, if_neg (Nat.not_lt.2 hsize), htokens]
  exact hread

/-- The deepest condition that is derived at a cost is read, since it is not too long. -/
lemma readsAs_chained {c : Nat} (hc : c ≤ maxNesting) :
    ReadsAs (chainedText c (deepText c)) (chained c (deepOperand c)) c := by
  refine (isWritten_deepOperand c).chained.readsAs hc ?_
  have hsquare := Nat.mul_le_mul hc hc
  rw [utf8ByteSize_chainedText, utf8ByteSize_deepText]
  simp only [maxNesting, maxConditionBytes] at hc hsquare ⊢
  omega

lemma two_mul_depth_chained (w c : Nat) :
    2 * (chained c (deepOperand c)).depth w = c * (3 * c + 5) + 6 * (c + 1) * w := by
  rw [← two_mul_room_disjunction w c leaf, depth_chained, depth_deepOperand, Phrase.room]

/-- A sign in front of a sum, which makes one more level than the sum has links. -/
lemma readsAs_signed {n : Nat} (hpos : 1 ≤ n) (hn : n ≤ maxNesting) :
    ReadsAs ((· ++ "+x")^[n] "-x") ((Expr.arithmetic .add · leaf)^[n] (.neg leaf)) n := by
  have hsign : IsWritten (.product (.neg leaf) 0) "-x" 1 :=
    ⟨_, spells_x.behindMark (m := "-") rfl rfl fun _ _ => rfl,
      .factor (.minus (.unsigned (.target .name)))⟩
  have hsum := (hsign.raise .summand).summands n
  rw [Nat.max_eq_right hpos] at hsum
  refine (hsum.raise derives_disjunction_of_sum).readsAs hn ?_
  have hlink : "-x".utf8ByteSize = 2 ∧ "+x".utf8ByteSize = 2 := ⟨rfl, rfl⟩
  rw [utf8ByteSize_iterate, hlink.1, hlink.2]
  simp only [maxNesting, maxConditionBytes] at hn ⊢
  omega

/-- At a cost of no more than 5 the room for nesting is within the limit, and at no other. -/
lemma forall_nesting_le_iff {c : Nat} (hc : c ≤ maxNesting) :
    (∀ source e, ReadsAs source e c → e.nesting ≤ maxNesting) ↔ c ≤ 5 := by
  constructor
  · intro hall
    have hdeepest := hall _ _ (readsAs_chained hc)
    have hdepth : 2 * (chained c (deepOperand c)).nesting = c * (3 * c + 5) :=
      two_mul_depth_chained 0 c
    by_contra hdear
    have hbound : 6 * (3 * 6 + 5) ≤ c * (3 * c + 5) := by gcongr <;> omega
    rw [maxNesting] at hdeepest
    omega
  · intro hcheap source e h
    have hdepth : 2 * e.nesting ≤ c * (3 * c + 5) := h.two_mul_depth_le 0
    have hbound : c * (3 * c + 5) ≤ 5 * (3 * 5 + 5) := by gcongr
    rw [maxNesting]
    omega

/-- **The depth of conditions.**  Every condition that is read has a cost `c` within the limit of
nesting.  It is nested up to `c * (3 * c + 5) / 2` levels deep, and its evaluation never goes
further down than 6500 levels.  There is a condition of the same cost that is nested just as deep,
so the conditions of a cost keep to the limit only if the cost is no more than 5. -/
theorem nesting_of_parse (source : String) (e : Expr) (hparse : parse source = .ok e) :
    ∃ c, c ≤ maxNesting ∧ ReadsAs source e c ∧
      2 * e.nesting ≤ c * (3 * c + 5) ∧ 2 * e.height ≤ c * (3 * c + 5) + 6 * (c + 1) ∧
      (∀ context beyond, e.evalWithin context beyond 6500 = e.eval context) ∧
      (∃ source' e', ReadsAs source' e' c ∧
        2 * e'.nesting = c * (3 * c + 5) ∧ 2 * e'.height = c * (3 * c + 5) + 6 * (c + 1)) ∧
      ((∀ source' e', ReadsAs source' e' c → e'.nesting ≤ maxNesting) ↔ c ≤ 5) := by
  obtain ⟨c, hc, hreads⟩ := exists_readsAs hparse
  have hnesting : 2 * e.nesting ≤ c * (3 * c + 5) := hreads.two_mul_depth_le 0
  have hheight : 2 * e.height ≤ c * (3 * c + 5) + 6 * (c + 1) := by
    have hweighted := hreads.two_mul_depth_le 1
    rwa [Nat.mul_one] at hweighted
  have hdeepest : 2 * (chained c (deepOperand c)).height = c * (3 * c + 5) + 6 * (c + 1) := by
    have hweighted := two_mul_depth_chained 1 c
    rwa [Nat.mul_one] at hweighted
  refine ⟨c, hc, hreads, hnesting, hheight, fun context beyond => Expr.evalWithin_eq e ?_,
    ⟨_, _, readsAs_chained hc, two_mul_depth_chained 0 c, hdeepest⟩, forall_nesting_le_iff hc⟩
  have hbound : c * (3 * c + 5) ≤ maxNesting * (3 * maxNesting + 5) := by gcongr
  rw [maxNesting] at hbound hc
  omega

/-- The condition `-x+x` is read, and so it is no deeper than its cost allows. -/
theorem nesting_of_parse_signed :
    ∃ c, c ≤ maxNesting ∧ ReadsAs "-x+x" (.arithmetic .add (.neg leaf) leaf) c ∧
      2 * (Expr.arithmetic .add (.neg leaf) leaf).nesting ≤ c * (3 * c + 5) := by
  have hread : parse "-x+x" = .ok (.arithmetic .add (.neg leaf) leaf) :=
    (readsAs_signed (n := 1) (by decide) (by decide)).parse
  obtain ⟨c, hc, hreads, hnesting, -⟩ := nesting_of_parse _ _ hread
  exact ⟨c, hc, hreads, hnesting⟩

/-- A sign and a sum of 64 links behind it are read, and are 65 levels deep. -/
theorem nesting_behind_sign :
    ∃ e, parse ((· ++ "+x")^[64] "-x") = .ok e ∧ maxNesting < e.nesting := by
  refine ⟨_, (readsAs_signed (n := 64) (by decide) (by decide)).parse, ?_⟩
  rw [Expr.nesting, depth_iterate 0 (depth_arithmetic 0 .add)]
  decide

end FormValidation.Condition
