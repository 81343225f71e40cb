import FormValidation.Condition.Eval
import Mathlib.Tactic.Lemma

/-!
# Laws of the connectives

A chain of `and` or of `or` does not give a truth value but the value of the operand that decides
it, or that of the last one, and evaluates nothing behind.  This file says that two laws of logic
hold nevertheless, for values and faults alike.

Brackets within a chain of one connective mean nothing: some operands next to each other may be
put into a chain of their own (`Expr.eval_chain_run`), and so may be any operands of that, however
often (`Bracketing`).  Both come down to `Expr.evalChain_append`: evaluation of a chain goes on
behind some of its operands exactly if the chain of these comes to a value that does not decide.

And a negation goes through a chain to its operands, with the connective turned into the other one.
There the chain of the negations does give a truth value, so nothing is lost by comparing values.
-/

namespace FormValidation

/-- The connective that the operands decides exactly if their negations decide this one. -/
def Connective.dual : Connective → Connective
  | .and => .or
  | .or => .and

lemma Connective.decides_dual_not (op : Connective) (v : Value) :
    op.dual.decides (.bool (!v.isTruthy)) = op.decides v := by
  cases op with
  | and => rfl
  | or => exact Bool.not_not v.isTruthy

/-- Operands of one connective with brackets around some of them. -/
inductive Bracketing where
  | operand (e : Expr)
  /-- Two parts or more within one pair of brackets. -/
  | group (first second : Bracketing) (rest : List Bracketing)

namespace Bracketing

mutual

/-- The tree in which each group is a chain of its own. -/
def tree (op : Connective) : Bracketing → Expr
  | operand e => e
  | group first second rest => .chain op (tree op first :: tree op second :: trees op rest)

/-- The trees of some parts. -/
def trees (op : Connective) : List Bracketing → List Expr
  | [] => []
  | part :: rest => tree op part :: trees op rest

end

mutual

/-- What is left without the brackets. -/
def operands : Bracketing → List Expr
  | operand e => [e]
  | group first second rest => operands first ++ (operands second ++ operandsOfAll rest)

/-- What is left of some parts without the brackets. -/
def operandsOfAll : List Bracketing → List Expr
  | [] => []
  | part :: rest => operands part ++ operandsOfAll rest

end

lemma operands_ne_nil : ∀ part : Bracketing, part.operands ≠ []
  | operand e => List.cons_ne_nil e []
  | group first second rest => by
      rw [operands]
      exact List.append_ne_nil_of_left_ne_nil (operands_ne_nil first) _

end Bracketing

namespace Expr

variable {c : Context} {op : Connective}

/-! ## Brackets -/

/-- What comes before the first operand does not matter. -/
lemma eval_chain_of_ne_nil {operands : List Expr} (h : operands ≠ []) (last : Value) :
    (chain op operands).eval c = evalChain c op last operands := by
  obtain ⟨e, rest, rfl⟩ := List.exists_cons_of_ne_nil h
  rfl

/-- Behind some operands, a chain has come to the value of their own chain: it goes on unless this
value decides. -/
lemma evalChain_append {front : List Expr} (h : front ≠ []) (last : Value) (back : List Expr) :
    evalChain c op last (front ++ back) = (do
      let v ← evalChain c op last front
      if op.decides v then .ok v else evalChain c op v back) := by
  induction front generalizing last with
  | nil => exact absurd rfl h
  | cons e front ih =>
      rw [List.cons_append, evalChain, evalChain, bind_assoc]
      refine congrArg (e.eval c >>= ·) (funext fun v => ?_)
      by_cases hdecides : op.decides v = true
      · rw [if_pos hdecides, if_pos hdecides]
        exact (if_pos hdecides).symm
      · rw [if_neg hdecides, if_neg hdecides]
        cases front with
        | nil => exact (if_neg hdecides).symm
        | cons d front => exact ih (List.cons_ne_nil d front) v

/-- One operand alone is its own chain. -/
lemma eval_chain_single (e : Expr) : (chain op [e]).eval c = e.eval c := by
  rw [eval, evalChain]
  cases e.eval c with
  | error fault => rfl
  | ok v => exact ite_self (Except.ok v)

/-- **Brackets around a run of operands.**  Some operands of a chain next to each other may be put
into a chain of their own. -/
lemma eval_chain_run (before : List Expr) {run : List Expr} (h : run ≠ []) (after : List Expr) :
    (chain op (before ++ chain op run :: after)).eval c =
      (chain op (before ++ run ++ after)).eval c := by
  have hgoes : ∀ last, evalChain c op last (before ++ chain op run :: after) =
      evalChain c op last (before ++ (run ++ after)) := by
    intro last
    induction before generalizing last with
    | nil =>
        rw [List.nil_append, List.nil_append, evalChain_append h, evalChain,
          eval_chain_of_ne_nil h last]
    | cons e before ih => simp only [List.cons_append, evalChain, ih]
  rw [eval, eval, hgoes, List.append_assoc]

end Expr

namespace Bracketing

variable {c : Context} {op : Connective}

/-- In front of a chain, a part that means the chain of its operands may be replaced by these. -/
lemma evalChain_tree_cons {part : Bracketing} {back flat : List Expr}
    (hpart : (part.tree op).eval c = (Expr.chain op part.operands).eval c)
    (hback : ∀ v, Expr.evalChain c op v back = Expr.evalChain c op v flat) (last : Value) :
    Expr.evalChain c op last (part.tree op :: back) =
      Expr.evalChain c op last (part.operands ++ flat) := by
  rw [Expr.evalChain, hpart, Expr.eval_chain_of_ne_nil part.operands_ne_nil last,
    Expr.evalChain_append part.operands_ne_nil]
  simp only [hback]

mutual

/-- **Brackets mean nothing**: a tree of groups has the value of the flat chain. -/
theorem eval_tree (c : Context) (op : Connective) :
    ∀ part : Bracketing, (part.tree op).eval c = (Expr.chain op part.operands).eval c
  | operand e => (Expr.eval_chain_single e).symm
  | group first second rest => by
      have hsecond := evalChain_tree_cons (eval_tree c op second) (evalChain_trees c op rest)
      rw [tree, operands, Expr.eval, Expr.eval]
      exact evalChain_tree_cons (eval_tree c op first) hsecond .null

/-- A chain of parts is the chain of what they hold. -/
theorem evalChain_trees (c : Context) (op : Connective) :
    ∀ (parts : List Bracketing) (last : Value),
      Expr.evalChain c op last (trees op parts) = Expr.evalChain c op last (operandsOfAll parts)
  | [], _ => rfl
  | part :: rest, last => by
      rw [trees, operandsOfAll]
      exact evalChain_tree_cons (eval_tree c op part) (evalChain_trees c op rest) last

end

end Bracketing

namespace Expr

/-! ## Negation -/

variable {c : Context} {op : Connective}

/-- Turning a connective into the other one, and each operand into its negation, negates what the
chain comes to, operand by operand. -/
lemma evalChain_dual_not (operands : List Expr) (last : Value) :
    evalChain c op.dual (.bool (!last.isTruthy)) (operands.map .not) =
      (evalChain c op last operands).map fun v => .bool (!v.isTruthy) := by
  induction operands generalizing last with
  | nil => rfl
  | cons e operands ih =>
      rw [List.map_cons, evalChain, evalChain, eval]
      cases e.eval c with
      | error fault => rfl
      | ok v =>
          show (if op.dual.decides (.bool (!v.isTruthy)) then _ else _) =
            Except.map _ (if op.decides v then _ else _)
          rw [Connective.decides_dual_not, ih]
          cases op.decides v <;> rfl

/-- A negation of a chain is the chain of the negations, with the other connective. -/
lemma eval_not_chain {operands : List Expr} (h : operands ≠ []) :
    (not (chain op operands)).eval c = (chain op.dual (operands.map .not)).eval c := by
  have hmap : operands.map Expr.not ≠ [] := mt List.map_eq_nil_iff.1 h
  rw [eval, eval_chain_of_ne_nil hmap (.bool (!Value.null.isTruthy)), evalChain_dual_not, eval]

/-- **Connectives re-associate and dualise.**  In every context a run of operands of a chain may
be replaced by one operand that is the chain of the run, and all groupings of the same operands
come to the same: the value or the fault of the flat chain.  The negation of a chain comes to the
truth value or the fault of the chain of the negations with the other connective. -/
theorem eval_connective_laws (c : Context) (op : Connective) :
    (∀ (before run after : List Expr), run ≠ [] →
      (chain op (before ++ chain op run :: after)).eval c =
        (chain op (before ++ run ++ after)).eval c) ∧
    (∀ part : Bracketing, (part.tree op).eval c = (chain op part.operands).eval c) ∧
    (∀ operands : List Expr, 2 ≤ operands.length →
      ∃ outcome : Except Fault Bool,
        (not (chain op operands)).eval c = outcome.map .bool ∧
        (chain op.dual (operands.map .not)).eval c = outcome.map .bool) := by
  refine ⟨fun before run after h => eval_chain_run before h after, Bracketing.eval_tree c op,
    fun operands h => ?_⟩
  have hne : operands ≠ [] := List.ne_nil_of_length_pos (by omega)
  have hnot : (not (chain op operands)).eval c =
      (((chain op operands).eval c).map fun v => !v.isTruthy).map .bool := by
    rw [eval]
    cases (chain op operands).eval c <;> rfl
  exact ⟨((chain op operands).eval c).map fun v => !v.isTruthy, hnot,
    (eval_not_chain hne).symm.trans hnot⟩

/-- In `a or (b or missing) or d` the operands in front are false and the third is not bound, and so
are those of `not (a and b)`. -/
theorem eval_connective_laws_fault :
    let c : Context := KeyMap.insert (KeyMap.insert ∅ "a" (.text "")) "b" (.list [])
    (chain .or [.name "a", chain .or [.name "b", .name "missing"], .name "d"]).eval c =
        .error (.unknownName "missing") ∧
      (chain .or [not (.name "a"), not (.name "b")]).eval c = .ok (.bool true) := by
  intro c
  obtain ⟨hrun, -, -⟩ := eval_connective_laws c .or
  obtain ⟨-, -, hdual⟩ := eval_connective_laws c .and
  obtain ⟨outcome, hnot, hnegated⟩ := hdual [.name "a", .name "b"] (Nat.le_refl 2)
  have hflat : (chain .or [.name "a", .name "b", .name "missing", .name "d"]).eval c =
      .error (.unknownName "missing") := rfl
  have hvalue : (not (chain .and [.name "a", .name "b"])).eval c = .ok (.bool true) := rfl
  have hgrouped := hrun [.name "a"] [.name "b", .name "missing"] [.name "d"] (List.cons_ne_nil _ _)
  exact ⟨hgrouped.trans hflat, hnegated.trans (hnot.symm.trans hvalue)⟩

end Expr

end FormValidation
