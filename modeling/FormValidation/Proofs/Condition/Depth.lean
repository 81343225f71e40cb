import FormValidation.Condition.Eval
import FormValidation.Proofs.Condition.GrammarExactness
import Mathlib.Tactic.Ring

/-!
# How deep conditions are

The limit of nesting is counted while a condition is read.  A link of a chain counts for what comes
behind it, but what it makes deeper is the tree in front of it, which has been read already.  So the
limit is not a bound of the depth of trees, and this file says what the bound is.

`Expr.depth` is the largest number of nodes on a way from the root to a leaf, where connectives and
comparisons have a weight of their own: without weight they are left out, which gives what the limit
is meant for, and with weight one the depth is the height of the tree.

Each level of brackets has a sum, a product and accesses in it, each with as many links as there are
levels left, and all of them lie in front of what is in the brackets.  `operandRoom` adds this up,
and `Derives.fits` says that a derivation has no deeper tree.  The consequences are
`ReadsAs.two_mul_depth_le` for conditions that have been read and `evalWithin_eq` for their
evaluation.
-/

namespace FormValidation

/-! ## Depth -/

namespace Expr

mutual

/-- The largest weight of the nodes on a way from the root of a tree to a leaf: leaves have none,
chains of connectives and of comparisons weigh `w`, all other nodes one. -/
def depth (w : Nat) : Expr → Nat
  | .literal _ => 0
  | .list items => depthAll w items + 1
  | .name _ => 0
  | .not operand => depth w operand + 1
  | .neg operand => depth w operand + 1
  | .arithmetic _ left right => max (depth w left) (depth w right) + 1
  | .chain _ operands => depthAll w operands + w
  | .comparison first rest => max (depth w first) (depthCompared w rest) + w
  | .subscript target index => max (depth w target) (depth w index) + 1
  | .member target _ => depth w target + 1
  | .call _ arguments => depthAll w arguments + 1
  | .method target _ arguments => max (depth w target) (depthAll w arguments) + 1

/-- The largest depth of several trees. -/
def depthAll (w : Nat) : List Expr → Nat
  | [] => 0
  | e :: rest => max (depth w e) (depthAll w rest)

/-- The largest depth of the operands to the right of comparison operators. -/
def depthCompared (w : Nat) : List (Comparison × Expr) → Nat
  | [] => 0
  | (_, e) :: rest => max (depth w e) (depthCompared w rest)

end

/-- The largest number of negations, signs, arithmetic operators, accesses, calls and lists on a way
from the root to a leaf. -/
def nesting (e : Expr) : Nat := e.depth 0

/-- The largest number of inner nodes on a way from the root to a leaf. -/
def height (e : Expr) : Nat := e.depth 1

end Expr

namespace Condition

/-! ## What a derivation has room for -/

/-- The largest depth of an operand that is derived at a cost.  In brackets there is one level less,
and for each level that is left a link of a sum, of a product and of accesses, besides the three
kinds of chains that cost nothing. -/
def operandRoom (w : Nat) : Nat → Nat
  | 0 => 0
  | c + 1 => operandRoom w c + 3 * c + 3 * w + 1

lemma operandRoom_mono (w : Nat) {c d : Nat} (h : c ≤ d) : operandRoom w c ≤ operandRoom w d := by
  induction h with
  | refl => exact Nat.le_refl _
  | step h ih =>
      rw [operandRoom]
      omega

namespace Phrase

/-- The depth of what a phrase stands for. -/
def depth (w : Nat) : Phrase → Nat
  | .disjunction e | .conjunction e | .negation e | .comparison e => e.depth w
  | .sum e _ | .product e _ | .signed e | .access e _ | .primary e => e.depth w
  | .operands _ es | .sequence es | .items es => Expr.depthAll w es
  | .comparisons more => Expr.depthCompared w more

/-- The links of a phrase that has some. -/
def links : Phrase → Nat
  | .sum _ k | .product _ k | .access _ k => k
  | _ => 0

/-- The largest depth of a phrase that is derived at a cost. -/
def room (w c : Nat) : Phrase → Nat
  | .primary _ => operandRoom w c
  | .access _ k => operandRoom w c + k
  | .signed _ => operandRoom w c + c
  | .product _ k => operandRoom w c + c + k
  | .sum _ k => operandRoom w c + 2 * c + k
  | .comparisons _ => operandRoom w c + 3 * c
  | .comparison _ | .negation _ | .operands .and _ => operandRoom w c + 3 * c + w
  | .conjunction _ | .operands .or _ => operandRoom w c + 3 * c + 2 * w
  | .disjunction _ | .sequence _ | .items _ => operandRoom w c + 3 * c + 3 * w

end Phrase

lemma depth_ofChain_le (w : Nat) (op : Connective) (es : List Expr) :
    (ofChain op es).depth w ≤ Expr.depthAll w es + w := by
  match es with
  | [] => exact Nat.le_refl _
  | [e] =>
      simp only [ofChain, Expr.depthAll]
      omega
  | e :: e' :: es => exact Nat.le_refl _

lemma depth_ofCompared_le (w : Nat) (first : Expr) (more : List (Comparison × Expr)) :
    (if more.isEmpty then first else Expr.comparison first more).depth w ≤
      max (first.depth w) (Expr.depthCompared w more) + w := by
  cases more with
  | nil =>
      simp only [List.isEmpty_nil, if_true]
      omega
  | cons next more => exact Nat.le_refl _

/-- A phrase fits into the room that there is for it. -/
structure Phrase.Fits (w c : Nat) (φ : Phrase) : Prop where
  links : φ.links ≤ c
  depth : φ.depth w ≤ φ.room w c

section Fits

variable {w c c' : Nat}

lemma room_mono (w : Nat) {c d : Nat} (h : c ≤ d) (φ : Phrase) : φ.room w c ≤ φ.room w d := by
  have hoperand := operandRoom_mono w h
  cases φ with
  | operands op es =>
      cases op <;>
        simp only [Phrase.room] <;>
        omega
  | _ =>
      simp only [Phrase.room]
      omega

lemma Phrase.Fits.mono {φ : Phrase} (h : φ.Fits w c) (hle : c ≤ c') : φ.Fits w c' :=
  ⟨Nat.le_trans h.links hle, Nat.le_trans h.depth (room_mono w hle φ)⟩

/-- What stands in brackets is one level deeper, and is an operand there. -/
lemma Phrase.Fits.inBrackets {e : Expr} (h : (Phrase.disjunction e).Fits w c) :
    e.depth w + 1 ≤ operandRoom w (c + 1) := by
  have hdepth := h.depth
  simp only [Phrase.depth, Phrase.room] at hdepth
  rw [operandRoom]
  omega

lemma Phrase.Fits.itemsInBrackets {es : List Expr} (h : (Phrase.items es).Fits w c) :
    Expr.depthAll w es + 1 ≤ operandRoom w (c + 1) := by
  have hdepth := h.depth
  simp only [Phrase.depth, Phrase.room] at hdepth
  rw [operandRoom]
  omega

/-- The next link of a sum puts what stands in front of it one level deeper. -/
lemma fits_sum {op : Arithmetic} {e e' : Expr} {k k' : Nat} (h : (Phrase.sum e k).Fits w c)
    (h' : (Phrase.product e' k').Fits w c') :
    (Phrase.sum (.arithmetic op e e') (k + 1)).Fits w (max c (k + 1 + c')) := by
  have hleft := (h.mono (Nat.le_max_left c (k + 1 + c'))).depth
  have hright := (h'.mono (Nat.le_trans (Nat.le_add_left c' (k + 1)) (Nat.le_max_right c _))).depth
  have hlinks := h'.links
  simp only [Phrase.depth, Phrase.room, Phrase.links] at hleft hright hlinks
  refine ⟨?_, ?_⟩
  · simp only [Phrase.links]
    omega
  · simp only [Phrase.depth, Phrase.room, Expr.depth]
    omega

/-- The next link of a product does so as well. -/
lemma fits_product {op : Arithmetic} {e e' : Expr} {k : Nat} (h : (Phrase.product e k).Fits w c)
    (h' : (Phrase.signed e').Fits w c') :
    (Phrase.product (.arithmetic op e e') (k + 1)).Fits w (max c (k + 1 + c')) := by
  have hleft := (h.mono (Nat.le_max_left c (k + 1 + c'))).depth
  have hright := (h'.mono (Nat.le_trans (Nat.le_add_left c' (k + 1)) (Nat.le_max_right c _))).depth
  simp only [Phrase.depth, Phrase.room] at hleft hright
  refine ⟨?_, ?_⟩
  · simp only [Phrase.links]
    omega
  · simp only [Phrase.depth, Phrase.room, Expr.depth]
    omega

/-- The next access puts its target one level deeper; what it has in brackets has less room. -/
lemma fits_access {e target : Expr} {k inside : Nat} (h : (Phrase.access target k).Fits w c)
    (hinside : inside + 1 ≤ operandRoom w (c' + 1))
    (hdepth : e.depth w = max (target.depth w) inside + 1) :
    (Phrase.access e (k + 1)).Fits w (max c (k + 1 + (c' + 1))) := by
  have htarget := (h.mono (Nat.le_max_left c (k + 1 + (c' + 1)))).depth
  have hle : c' + 1 ≤ max c (k + 1 + (c' + 1)) :=
    Nat.le_trans (Nat.le_add_left _ _) (Nat.le_max_right c _)
  have hroom := operandRoom_mono w hle
  simp only [Phrase.depth, Phrase.room] at htarget
  refine ⟨?_, ?_⟩
  · simp only [Phrase.links]
    omega
  · simp only [Phrase.depth, Phrase.room, hdepth]
    omega

end Fits

/-- **No derivation has a deeper tree than there is room for at its cost**, and no chain has more
links than the cost. -/
theorem Derives.fits (w : Nat) {φ : Phrase} {ts : List Token} {c : Nat} (h : Derives φ ts c) :
    φ.Fits w c := by
  induction h with
  | @operand op e ts c h ih =>
      refine ⟨Nat.zero_le _, ?_⟩
      cases op <;> exact Nat.max_le.2 ⟨ih.depth, Nat.zero_le _⟩
  | @operands op e es ts ts' c c' h h' ih ih' =>
      have hfirst := (ih.mono (Nat.le_max_left c c')).depth
      have hrest := (ih'.mono (Nat.le_max_right c c')).depth
      refine ⟨Nat.zero_le _, ?_⟩
      cases op <;> exact Nat.max_le.2 ⟨hfirst, hrest⟩
  | @disjunction es ts c h ih =>
      have hall := ih.depth
      have hchain := depth_ofChain_le w .or es
      refine ⟨Nat.zero_le _, ?_⟩
      simp only [Phrase.depth, Phrase.room] at hall ⊢
      omega
  | @conjunction es ts c h ih =>
      have hall := ih.depth
      have hchain := depth_ofChain_le w .and es
      refine ⟨Nat.zero_le _, ?_⟩
      simp only [Phrase.depth, Phrase.room] at hall ⊢
      omega
  | @not e ts c h ih =>
      have hdepth := ih.depth
      have hroom := operandRoom_mono w (Nat.le_add_right c 1)
      refine ⟨Nat.zero_le _, ?_⟩
      simp only [Phrase.depth, Phrase.room, Expr.depth] at hdepth ⊢
      omega
  | affirmed h ih => exact ⟨ih.links, ih.depth⟩
  | @comparison e k more ts ts' c c' h h' ih ih' =>
      have hfirst := (ih.mono (Nat.le_max_left c c')).depth
      have hlinks := (ih.mono (Nat.le_max_left c c')).links
      have hrest := (ih'.mono (Nat.le_max_right c c')).depth
      have hcompared := depth_ofCompared_le w e more
      refine ⟨Nat.zero_le _, ?_⟩
      simp only [Phrase.depth, Phrase.room, Phrase.links] at hfirst hlinks hrest ⊢
      omega
  | uncompared => exact ⟨Nat.zero_le _, Nat.zero_le _⟩
  | @compared op e k more ts ts' c c' h h' ih ih' =>
      have hfirst := (ih.mono (Nat.le_max_left c c')).depth
      have hlinks := (ih.mono (Nat.le_max_left c c')).links
      have hrest := (ih'.mono (Nat.le_max_right c c')).depth
      refine ⟨Nat.zero_le _, ?_⟩
      simp only [Phrase.depth, Phrase.room, Phrase.links, Expr.depthCompared]
        at hfirst hlinks hrest ⊢
      omega
  | @summand e k ts c h ih =>
      have hdepth := ih.depth
      have hlinks := ih.links
      refine ⟨Nat.zero_le _, ?_⟩
      simp only [Phrase.depth, Phrase.room, Phrase.links] at hdepth hlinks ⊢
      omega
  | sum h ht h' ih ih' => exact fits_sum ih ih'
  | factor h ih => exact ⟨Nat.zero_le _, ih.depth⟩
  | product h ht h' ih ih' => exact fits_product ih ih'
  | @minus e ts c h ih =>
      have hdepth := ih.depth
      have hroom := operandRoom_mono w (Nat.le_add_right c 1)
      refine ⟨Nat.zero_le _, ?_⟩
      simp only [Phrase.depth, Phrase.room, Expr.depth] at hdepth ⊢
      omega
  | plus h ih => exact ih.mono (Nat.le_add_right _ 1)
  | @unsigned e k ts c h ih =>
      have hdepth := ih.depth
      have hlinks := ih.links
      refine ⟨Nat.zero_le _, ?_⟩
      simp only [Phrase.depth, Phrase.room, Phrase.links] at hdepth hlinks ⊢
      omega
  | target h ih => exact ⟨Nat.zero_le _, ih.depth⟩
  | subscript h h' ih ih' => exact fits_access ih ih'.inBrackets rfl
  | @member e name k ts c h ih =>
      have htarget := (ih.mono (Nat.le_max_left c (k + 1))).depth
      refine ⟨Nat.le_max_right c (k + 1), ?_⟩
      simp only [Phrase.depth, Phrase.room, Expr.depth] at htarget ⊢
      omega
  | method h h' ih ih' => exact fits_access ih ih'.itemsInBrackets rfl
  | literal h => exact ⟨Nat.zero_le _, Nat.zero_le _⟩
  | name => exact ⟨Nat.zero_le _, Nat.zero_le _⟩
  | call h ih => exact ⟨Nat.zero_le _, ih.itemsInBrackets⟩
  | group h ih => exact ⟨Nat.zero_le _, Nat.le_of_succ_le ih.inBrackets⟩
  | list h ih => exact ⟨Nat.zero_le _, ih.itemsInBrackets⟩
  | noItems => exact ⟨Nat.zero_le _, Nat.zero_le _⟩
  | items h ih => exact ⟨ih.links, ih.depth⟩
  | item h ih => exact ⟨Nat.zero_le _, Nat.max_le.2 ⟨ih.depth, Nat.zero_le _⟩⟩
  | lastComma h ih => exact ⟨Nat.zero_le _, Nat.max_le.2 ⟨ih.depth, Nat.zero_le _⟩⟩
  | @sequence e es ts ts' c c' h h' ih ih' =>
      have hfirst := (ih.mono (Nat.le_max_left c c')).depth
      have hrest := (ih'.mono (Nat.le_max_right c c')).depth
      exact ⟨Nat.zero_le _, Nat.max_le.2 ⟨hfirst, hrest⟩⟩

/-! ## Conditions that have been read -/

lemma two_mul_operandRoom (w c : Nat) : 2 * operandRoom w c + c = 3 * (c * c) + 6 * (w * c) := by
  induction c with
  | zero => rfl
  | succ c ih =>
      rw [operandRoom]
      ring_nf at ih ⊢
      omega

/-- The room for a whole condition, without recursion. -/
lemma two_mul_room_disjunction (w c : Nat) (e : Expr) :
    2 * (Phrase.disjunction e).room w c = c * (3 * c + 5) + 6 * (c + 1) * w := by
  have hoperand := two_mul_operandRoom w c
  rw [Phrase.room]
  ring_nf at hoperand ⊢
  omega

/-- A text is read as a tree, and a cost is what the derivation of the tree from the text costs. -/
structure ReadsAs (source : String) (e : Expr) (c : Nat) : Prop where
  parse : parse source = .ok e
  derives : ∃ ts, tokens source.toList = .ok ts ∧ Derives (.disjunction e) (ts.map (·.token)) c

lemma exists_readsAs {source : String} {e : Expr} (h : parse source = .ok e) :
    ∃ c, c ≤ maxNesting ∧ ReadsAs source e c := by
  have hparse := h
  rw [parse] at h
  split at h
  · cases h
  · obtain ⟨ts, htokens, hread⟩ := exists_of_bind_eq_ok h
    obtain ⟨c, hc, hderives⟩ := derives_of_ofTokens hread
    exact ⟨c, hc, hparse, ts, htokens, hderives⟩

/-- What is read as a condition is no deeper than there is room for at its cost. -/
lemma ReadsAs.two_mul_depth_le (w : Nat) {source : String} {e : Expr} {c : Nat}
    (h : ReadsAs source e c) : 2 * e.depth w ≤ c * (3 * c + 5) + 6 * (c + 1) * w := by
  obtain ⟨ts, -, hderives⟩ := h.derives
  rw [← two_mul_room_disjunction w c e]
  exact Nat.mul_le_mul_left 2 (hderives.fits w).depth

end Condition

/-! ## Evaluation within a number of levels -/

namespace Expr

section Levels

variable (inner : Expr → Except Fault Value)

/-- The values of several trees, where `inner` gives the value of each. -/
def allWith : List Expr → Except Fault (List Value)
  | [] => .ok []
  | e :: rest => do
    let v ← inner e
    let vs ← allWith rest
    .ok (v :: vs)

/-- The value of a chain, where `inner` gives the values of its operands. -/
def chainWith (op : Connective) (last : Value) : List Expr → Except Fault Value
  | [] => .ok last
  | e :: rest => do
    let v ← inner e
    if op.decides v then .ok v else chainWith op v rest

/-- Whether comparisons hold, where `inner` gives the values of their operands. -/
def comparisonsWith (left : Value) : List (Comparison × Expr) → Except Fault Value
  | [] => .ok (.bool true)
  | (op, e) :: rest => do
    let right ← inner e
    let holds ← op.holds left right
    if holds then comparisonsWith right rest else .ok (.bool false)

/-- The value of a tree, where `inner` gives the values of the trees right below its root. -/
def evalWith (context : Context) : Expr → Except Fault Value
  | .literal v => .ok v
  | .list items => (allWith inner items).map .list
  | .name x =>
    match context.find? x with
    | some v => .ok v
    | none => .error (.unknownName x)
  | .not operand => (inner operand).map fun v => .bool (!v.isTruthy)
  | .neg operand => inner operand >>= Value.negate
  | .arithmetic op left right => do
    let l ← inner left
    let r ← inner right
    op.apply l r
  | .chain op operands => chainWith inner op .null operands
  | .comparison first rest => do
    let v ← inner first
    comparisonsWith inner v rest
  | .subscript target index => do
    let t ← inner target
    let i ← inner index
    t.subscript i
  | .member target field => do
    let t ← inner target
    t.member field
  | .call function arguments => do
    let vs ← allWith inner arguments
    callFunction function vs
  | .method target function arguments => do
    let t ← inner target
    let vs ← allWith inner arguments
    t.callMethod function vs

end Levels

/-- Evaluation that goes down by no more than a number of levels; what is below them is left to
`beyond`, whatever that is. -/
def evalWithin (context : Context) (beyond : Expr → Except Fault Value) :
    (levels : Nat) → Expr → Except Fault Value
  | 0 => beyond
  | levels + 1 => evalWith (evalWithin context beyond levels) context

section Within

variable {context : Context} {beyond : Expr → Except Fault Value}

mutual

/-- **Evaluation goes no further down than the tree is high.** -/
theorem evalWithin_eq : ∀ (e : Expr) {levels : Nat}, e.height < levels →
    evalWithin context beyond levels e = e.eval context
  | .literal v, _ + 1, _ => rfl
  | .list items, levels + 1, h => by
      rw [evalWithin, evalWith, eval, allWith_eq items (Nat.lt_of_succ_lt_succ h)]
  | .name x, _ + 1, _ => rfl
  | .not operand, levels + 1, h => by
      rw [evalWithin, evalWith, eval, evalWithin_eq operand (Nat.lt_of_succ_lt_succ h)]
  | .neg operand, levels + 1, h => by
      rw [evalWithin, evalWith, eval, evalWithin_eq operand (Nat.lt_of_succ_lt_succ h)]
  | .arithmetic op left right, levels + 1, h => by
      obtain ⟨hleft, hright⟩ := Nat.max_lt.1 (Nat.lt_of_succ_lt_succ h)
      rw [evalWithin, evalWith, eval, evalWithin_eq left hleft, evalWithin_eq right hright]
  | .chain op operands, levels + 1, h => by
      rw [evalWithin, evalWith, eval, chainWith_eq op .null operands (Nat.lt_of_succ_lt_succ h)]
  | .comparison first rest, levels + 1, h => by
      obtain ⟨hfirst, hrest⟩ := Nat.max_lt.1 (Nat.lt_of_succ_lt_succ h)
      simp only [evalWithin, evalWith, eval, evalWithin_eq first hfirst,
        comparisonsWith_eq _ rest hrest]
  | .subscript target index, levels + 1, h => by
      obtain ⟨htarget, hindex⟩ := Nat.max_lt.1 (Nat.lt_of_succ_lt_succ h)
      rw [evalWithin, evalWith, eval, evalWithin_eq target htarget, evalWithin_eq index hindex]
  | .member target field, levels + 1, h => by
      rw [evalWithin, evalWith, eval, evalWithin_eq target (Nat.lt_of_succ_lt_succ h)]
  | .call function arguments, levels + 1, h => by
      rw [evalWithin, evalWith, eval, allWith_eq arguments (Nat.lt_of_succ_lt_succ h)]
  | .method target function arguments, levels + 1, h => by
      obtain ⟨htarget, harguments⟩ := Nat.max_lt.1 (Nat.lt_of_succ_lt_succ h)
      rw [evalWithin, evalWith, eval, evalWithin_eq target htarget, allWith_eq arguments harguments]

theorem allWith_eq : ∀ (es : List Expr) {levels : Nat}, depthAll 1 es < levels →
    allWith (evalWithin context beyond levels) es = evalAll context es
  | [], _, _ => rfl
  | e :: rest, levels, h => by
      obtain ⟨hfirst, hrest⟩ := Nat.max_lt.1 h
      rw [allWith, evalAll, evalWithin_eq e hfirst, allWith_eq rest hrest]

theorem chainWith_eq (op : Connective) : ∀ (last : Value) (es : List Expr) {levels : Nat},
    depthAll 1 es < levels →
    chainWith (evalWithin context beyond levels) op last es = evalChain context op last es
  | _, [], _, _ => rfl
  | _, e :: rest, levels, h => by
      obtain ⟨hfirst, hrest⟩ := Nat.max_lt.1 h
      simp only [chainWith, evalChain, evalWithin_eq e hfirst, chainWith_eq op _ rest hrest]

theorem comparisonsWith_eq : ∀ (left : Value) (rest : List (Comparison × Expr)) {levels : Nat},
    depthCompared 1 rest < levels →
    comparisonsWith (evalWithin context beyond levels) left rest = evalComparisons context left rest
  | _, [], _, _ => rfl
  | left, (op, e) :: rest, levels, h => by
      obtain ⟨hfirst, hrest⟩ := Nat.max_lt.1 h
      simp only [comparisonsWith, evalComparisons, evalWithin_eq e hfirst,
        comparisonsWith_eq _ rest hrest]

end

end Within

end Expr

end FormValidation
