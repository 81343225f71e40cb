import FormValidation.Proofs.Condition.Noninterference
import Mathlib

/-!
# Faults are not swallowed

Most operands of a tree are evaluated whenever the tree is.  The others are those that a chain may
stop before: the operands of a connective behind the first, and those of a comparison behind the
second.  This file says that a fault at any of the former is a fault of the whole tree, however
deep it stands and whatever stands around it, so that the condition does not hold.

`StrictPlace` lists the places of such operands, each with its siblings, and `Expr.within` puts a
tree into places within places.  A sibling to the left is evaluated earlier and may have a fault of
its own, which then hides that of the operand.  So a statement that names the fault has to say
which siblings come first (`StrictPlace.earlier`) and where evaluation ends (`firstFault`): one
place is `StrictPlace.eval_fill`, all of them are `Expr.eval_within`.
-/

namespace FormValidation

/-- The place of an operand that is evaluated whenever the tree around it is, with its siblings. -/
inductive StrictPlace where
  | listItem (before after : List Expr)
  | notOperand
  | negOperand
  | arithmeticLeft (op : Arithmetic) (right : Expr)
  | arithmeticRight (op : Arithmetic) (left : Expr)
  /-- The operand in front of a chain of one connective. -/
  | chainFirst (op : Connective) (rest : List Expr)
  /-- The operand in front of a chain of comparisons. -/
  | comparisonFirst (rest : List (Comparison × Expr))
  /-- The operand to the right of the first comparison of a chain. -/
  | comparisonSecond (first : Expr) (op : Comparison) (rest : List (Comparison × Expr))
  | subscriptTarget (index : Expr)
  | subscriptIndex (target : Expr)
  | memberTarget (name : String)
  | callArgument (function : String) (before after : List Expr)
  | methodTarget (name : String) (arguments : List Expr)
  | methodArgument (target : Expr) (name : String) (before after : List Expr)

namespace StrictPlace

/-- The tree that has an operand at the place. -/
def fill (operand : Expr) : StrictPlace → Expr
  | listItem before after => .list (before ++ operand :: after)
  | notOperand => .not operand
  | negOperand => .neg operand
  | arithmeticLeft op right => .arithmetic op operand right
  | arithmeticRight op left => .arithmetic op left operand
  | chainFirst op rest => .chain op (operand :: rest)
  | comparisonFirst rest => .comparison operand rest
  | comparisonSecond first op rest => .comparison first ((op, operand) :: rest)
  | subscriptTarget index => .subscript operand index
  | subscriptIndex target => .subscript target operand
  | memberTarget name => .member operand name
  | callArgument function before after => .call function (before ++ operand :: after)
  | methodTarget name arguments => .method operand name arguments
  | methodArgument target name before after => .method target name (before ++ operand :: after)

/-- The siblings that are evaluated before the operand at the place. -/
def earlier : StrictPlace → List Expr
  | listItem before _ | callArgument _ before _ => before
  | arithmeticRight _ left => [left]
  | comparisonSecond first _ _ => [first]
  | subscriptIndex target => [target]
  | methodArgument target _ before _ => target :: before
  | notOperand | negOperand | arithmeticLeft .. | chainFirst .. | comparisonFirst _
  | subscriptTarget _ | memberTarget _ | methodTarget .. => []

end StrictPlace

/-- A tree at a place within a place and so on, of which the first is the outermost. -/
def Expr.within (e : Expr) (places : List StrictPlace) : Expr :=
  places.foldr (fun place inner => place.fill inner) e

/-- The fault at which the evaluation of some trees from the left ends, if the one behind them has
the given fault. -/
def firstFault (c : Context) (fault : Fault) : List Expr → Fault
  | [] => fault
  | e :: rest =>
    match e.eval c with
    | .error own => own
    | .ok _ => firstFault c fault rest

section

variable {c : Context} {e : Expr} {fault : Fault}

lemma firstFault_append (c : Context) (fault : Fault) (front back : List Expr) :
    firstFault c fault (front ++ back) = firstFault c (firstFault c fault back) front := by
  induction front with
  | nil => rfl
  | cons e front ih => rw [List.cons_append, firstFault, firstFault, ih]

/-- If the operand on the right of another has a fault, then evaluating both in turn ends at the
first fault. -/
lemma eval_bind_error {α : Type} (left : Expr) {next : Value → Except Fault α}
    (h : ∀ v, next v = .error fault) :
    (left.eval c >>= next) = .error (firstFault c fault [left]) := by
  rw [firstFault]
  cases left.eval c with
  | error own => rfl
  | ok v => exact h v

/-- Evaluating a list of operands one of which has a fault ends at the first fault. -/
lemma evalAll_append_cons (h : e.eval c = .error fault) (before after : List Expr) :
    Expr.evalAll c (before ++ e :: after) = .error (firstFault c fault before) := by
  induction before with
  | nil =>
      rw [List.nil_append, Expr.evalAll, h]
      rfl
  | cons q before ih =>
      rw [List.cons_append, Expr.evalAll, firstFault, ih]
      cases q.eval c <;> rfl

/-! ## One place, and places within places -/

/-- **A fault at a strict place is a fault of the tree**, with the fault of the first operand that
has one. -/
theorem StrictPlace.eval_fill (h : e.eval c = .error fault) (place : StrictPlace) :
    (place.fill e).eval c = .error (firstFault c fault place.earlier) := by
  cases place with
  | listItem before after =>
      rw [fill, Expr.eval, evalAll_append_cons h]
      rfl
  | notOperand | negOperand | arithmeticLeft | comparisonFirst | subscriptTarget | memberTarget
  | methodTarget =>
      rw [fill, Expr.eval, h]
      rfl
  | chainFirst op rest =>
      rw [fill, Expr.eval, Expr.evalChain, h]
      rfl
  | arithmeticRight op left =>
      rw [fill, Expr.eval]
      exact eval_bind_error left fun l => by rw [h]; rfl
  | comparisonSecond first op rest =>
      rw [fill, Expr.eval]
      exact eval_bind_error first fun v => by rw [Expr.evalComparisons, h]; rfl
  | subscriptIndex target =>
      rw [fill, Expr.eval]
      exact eval_bind_error target fun t => by rw [h]; rfl
  | callArgument function before after =>
      rw [fill, Expr.eval, evalAll_append_cons h]
      rfl
  | methodArgument target name before after =>
      have harguments : ∀ t : Value,
          (Expr.evalAll c (before ++ e :: after) >>= fun vs => t.callMethod name vs) =
            .error (firstFault c fault before) := fun t => by
        rw [evalAll_append_cons h]
        rfl
      have hsplit : firstFault c fault (target :: before) =
          firstFault c (firstFault c fault before) [target] :=
        firstFault_append c fault [target] before
      rw [fill, Expr.eval, earlier, hsplit]
      exact eval_bind_error target harguments

namespace Expr

/-- A fault at a strict place within strict places is a fault of the whole tree. -/
theorem eval_within (h : e.eval c = .error fault) (places : List StrictPlace) :
    (e.within places).eval c = .error (firstFault c fault (places.flatMap (·.earlier))) := by
  induction places with
  | nil => exact h
  | cons place places ih =>
      rw [List.flatMap_cons, firstFault_append]
      exact place.eval_fill ih

/-- **Strict places fail closed.**  If a tree has a fault in a context, then so has every tree
around it in which it stands at strict places only: its own, unless a sibling to the left of one of
the places has one, which is then the first of these.  So the condition does not hold, whether it
is tested as a tree or as a text that reads as the tree. -/
theorem fails_within {c : Context} {e : Expr} {fault : Fault} (h : e.eval c = .error fault)
    (places : List StrictPlace) :
    (e.within places).eval c = .error (firstFault c fault (places.flatMap (·.earlier))) ∧
    ∀ source,
      (⟨source, e.within places⟩ : Condition).test c = false ∧
      (Condition.parse source = .ok (e.within places) →
        Condition.decideText source c = false) := by
  have hfails := eval_within h places
  refine ⟨hfails, fun source => ?_⟩
  have htest : (⟨source, e.within places⟩ : Condition).test c = false :=
    Condition.test_of_evaluate_error hfails
  refine ⟨htest, fun hparse => ?_⟩
  rw [Condition.decideText_eq, Condition.read, hparse]
  exact htest

/-- The condition `not m.get("k", -limit)` where `limit` is not bound: neither the default of `get`
nor the negation makes it hold. -/
theorem fails_within_default :
    let c : Context := KeyMap.insert ∅ "m" (.map [("k", .int 1)])
    let places : List StrictPlace :=
      [.notOperand, .methodArgument (.name "m") "get" [.literal (.text "k")] [], .negOperand]
    (Expr.name "limit").eval c = .error (.unknownName "limit") ∧
      Condition.parse "not m.get('k', -limit)" = .ok ((Expr.name "limit").within places) ∧
      Condition.decideText "not m.get('k', -limit)" c = false := by
  intro c places
  have hname : (Expr.name "limit").eval c = .error (.unknownName "limit") := rfl
  have hparse : Condition.parse "not m.get('k', -limit)" =
      .ok ((Expr.name "limit").within places) := by
    cbv
  exact ⟨hname, hparse, ((fails_within hname places).2 _).2 hparse⟩

/-- An operand behind the first one of a connective is at no strict place. -/
example : (Expr.chain .or [.literal (.bool true), .name "limit"]).eval ∅ = .ok (.bool true) := rfl

end Expr

end

end FormValidation
