import FormValidation.Condition.Eval
import Mathlib.Tactic.Common

/-!
# Faults of evaluation

The value of a condition may be a fault, but never one of those that tell that a text is no
condition.  `Evaluated` says so of an outcome.  It holds of every operation, function and method,
and is handed on by the trees (`evaluated_eval`).
-/

namespace FormValidation

/-- The outcome is a value, or a fault that is not one of reading. -/
inductive Evaluated {α : Type} : Except Fault α → Prop where
  | ok (a : α) : Evaluated (.ok a)
  | fault {fault : Fault} (h : fault.isParseFault = false) : Evaluated (.error fault)

section

variable {α β : Type}

lemma Evaluated.isParseFault {r : Except Fault α} {fault : Fault} (h : Evaluated r)
    (hr : r = .error fault) : fault.isParseFault = false := by
  subst hr
  cases h with
  | fault h => exact h

lemma Evaluated.map {r : Except Fault α} (h : Evaluated r) (f : α → β) : Evaluated (r.map f) := by
  cases h with
  | ok a => exact .ok (f a)
  | fault h => exact .fault h

lemma Evaluated.bind {r : Except Fault α} {f : α → Except Fault β} (h : Evaluated r)
    (hf : ∀ a, Evaluated (f a)) : Evaluated (r >>= f) := by
  cases h with
  | ok a => exact hf a
  | fault h => exact .fault h

end

namespace Value

/-! ## Operations -/

lemma evaluated_ofInt (n : Int) : Evaluated (ofInt n) := by
  unfold ofInt
  split
  · exact .ok _
  · exact .fault rfl

lemma evaluated_negate (v : Value) : Evaluated v.negate := by
  unfold negate
  split
  · exact evaluated_ofInt _
  · exact .ok _
  · exact .fault rfl

lemma evaluated_onFloats (op : Arithmetic) (x y : Float) : Evaluated (op.onFloats x y) := by
  unfold Arithmetic.onFloats
  cases op with
  | add | sub | mul => exact .ok _
  | div | rem =>
    dsimp only
    split
    · exact .fault rfl
    · exact .ok _

lemma evaluated_onInts (op : Arithmetic) (m n : Int64) : Evaluated (op.onInts m n) := by
  unfold Arithmetic.onInts
  cases op with
  | add | sub | mul => exact evaluated_ofInt _
  | div => exact evaluated_onFloats .div _ _
  | rem =>
    dsimp only
    unfold Arithmetic.intRemainder
    split
    · exact .fault rfl
    · split
      · exact .ok _
      · exact .fault rfl

lemma evaluated_apply (op : Arithmetic) (v w : Value) : Evaluated (op.apply v w) := by
  unfold Arithmetic.apply
  split
  · exact evaluated_onInts _ _ _
  · exact .ok _
  · exact .ok _
  · exact .ok _
  · exact .ok _
  · split
    · exact evaluated_onFloats _ _ _
    · exact .fault rfl

mutual

lemma evaluated_compare (v w : Value) : Evaluated (v.compare w) := by
  unfold compare
  split
  · exact evaluated_compareItems _ _
  · split
    · exact .ok _
    · exact .fault rfl

lemma evaluated_compareItems : ∀ xs ys : List Value, Evaluated (compareItems xs ys)
  | [], [] => .ok _
  | [], _ :: _ => .ok _
  | _ :: _, [] => .ok _
  | x :: xs, y :: ys => by
    have hfirst := evaluated_compare x y
    unfold compareItems
    cases horder : x.compare y with
    | error fault => exact .fault (hfirst.isParseFault horder)
    | ok ordering =>
      cases ordering with
      | eq => exact evaluated_compareItems xs ys
      | lt | gt => exact .ok _

end

lemma evaluated_contains (v w : Value) : Evaluated (v.contains w) := by
  unfold contains
  split
  · exact .ok _
  · exact .ok _
  · exact .ok _
  · exact .ok _
  · exact .fault rfl

lemma evaluated_holds (op : Comparison) (v w : Value) : Evaluated (op.holds v w) := by
  unfold Comparison.holds
  cases op with
  | eq | notEq | same | notSame => exact .ok _
  | lt | le | gt | ge => exact (evaluated_compare v w).map _
  | isIn => exact evaluated_contains w v
  | notIn => exact (evaluated_contains w v).map _

/-! ## Parts -/

lemma evaluated_item {α : Type} (index : Int64) (items : List α) :
    Evaluated (item index items) := by
  have hplace : Evaluated (resolveIndex index items.length) := by
    unfold resolveIndex
    split
    · exact .fault rfl
    · dsimp only
      split
      · exact .ok _
      · exact .fault rfl
  unfold item
  split
  · rename_i fault hfault
    exact .fault (hplace.isParseFault hfault)
  · split
    · exact .ok _
    · exact .fault rfl

lemma evaluated_subscript (v w : Value) : Evaluated (v.subscript w) := by
  unfold subscript
  split
  · split
    · exact .ok _
    · exact .fault rfl
  · exact evaluated_item _ _
  · exact (evaluated_item _ _).map _
  · exact .fault rfl

lemma evaluated_member (v : Value) (name : String) : Evaluated (v.member name) := by
  unfold member
  split
  · split
    · exact .ok _
    · exact .fault rfl
  · dsimp only
    split
    · exact .ok _
    · exact .fault rfl
  · dsimp only
    split
    · exact .ok _
    · exact .fault rfl
  · exact .fault rfl

/-! ## Functions -/

lemma evaluated_oneArgument (name : String) (arguments : List Value) :
    Evaluated (oneArgument name arguments) := by
  unfold oneArgument
  split
  · exact .ok _
  · exact .fault rfl

lemma evaluated_noArguments (name : String) (arguments : List Value) :
    Evaluated (noArguments name arguments) := by
  unfold noArguments
  split
  · exact .ok _
  · exact .fault rfl

lemma evaluated_length (v : Value) : Evaluated v.length := by
  unfold length
  split
  · exact evaluated_ofInt _
  · exact evaluated_ofInt _
  · exact evaluated_ofInt _
  · exact .fault rfl

lemma evaluated_toInteger (v : Value) : Evaluated v.toInteger := by
  unfold toInteger
  split
  · exact .ok _
  · exact .ok _
  · split
    · exact evaluated_ofInt _
    · exact .fault rfl
  · split
    · exact .ok _
    · exact .fault rfl
  · exact .fault rfl

lemma evaluated_toDouble (v : Value) : Evaluated v.toDouble := by
  unfold toDouble
  split <;> split
  · exact .ok _
  · exact .fault rfl
  · exact .ok _
  · exact .fault rfl

lemma evaluated_absolute (v : Value) : Evaluated v.absolute := by
  unfold absolute
  split
  · exact evaluated_ofInt _
  · exact .ok _
  · exact .fault rfl

lemma evaluated_extremeFrom (wanted : Ordering) (best : Value) (items : List Value) :
    Evaluated (extremeFrom wanted best items) := by
  induction items generalizing best with
  | nil => exact .ok _
  | cons x items ih =>
    have horder := evaluated_compare x best
    unfold extremeFrom
    split
    · rename_i fault hfault
      exact .fault (horder.isParseFault hfault)
    · exact ih _

lemma evaluated_callFunction (name : String) (arguments : List Value) :
    Evaluated (callFunction name arguments) := by
  have hextreme : ∀ name wanted, Evaluated (extreme name wanted arguments) := by
    intro name wanted
    unfold extreme
    dsimp only
    split
    · exact .fault rfl
    · exact evaluated_extremeFrom _ _ _
  unfold callFunction
  split
  · rename_i f _
    have hone := evaluated_oneArgument f.name arguments
    unfold Function.apply
    cases f with
    | len => exact hone.bind evaluated_length
    | int => exact hone.bind evaluated_toInteger
    | float => exact hone.bind evaluated_toDouble
    | str | bool => exact hone.map _
    | abs => exact hone.bind evaluated_absolute
    | min | max => exact hextreme _ _
  · exact .fault rfl

/-! ## Methods -/

lemma evaluated_matchesEnd (name : String) (atStart : Bool) (s : String) (v : Value) :
    Evaluated (matchesEnd name atStart s v) := by
  unfold matchesEnd
  split
  · exact .ok _
  · split
    · exact .ok _
    · exact .fault rfl
  · exact .fault rfl

lemma evaluated_toDate (v : Value) : Evaluated v.toDate := by
  unfold toDate
  split
  · exact .ok _
  · exact .ok _
  · split
    · exact .ok _
    · exact .fault rfl
  · exact .fault rfl

lemma evaluated_toMoment (v : Value) : Evaluated v.toMoment := by
  unfold toMoment
  split
  · exact .ok _
  · split
    · exact .ok _
    · exact .fault rfl
  · exact .fault rfl

section

variable (name : String) (arguments : List Value)

lemma evaluated_textMethod (s : String) : Evaluated (textMethod s name arguments) := by
  have hone := evaluated_oneArgument name arguments
  have hnone := evaluated_noArguments name arguments
  unfold textMethod
  split
  · exact hone.bind fun v => evaluated_matchesEnd _ _ _ v
  · exact hone.bind fun v => evaluated_matchesEnd _ _ _ v
  · exact hone.bind fun v => (evaluated_contains _ v).map _
  · exact hnone.map _
  · exact hnone.map _
  · exact hnone.map _
  · exact hnone.map _
  · exact .fault rfl

lemma evaluated_mapMethod (entries : List (String × Value)) :
    Evaluated (mapMethod entries name arguments) := by
  have hnone := evaluated_noArguments name arguments
  unfold mapMethod
  split
  · split
    · exact .ok _
    · exact (evaluated_oneArgument _ _).map _
  · exact hnone.map _
  · exact hnone.map _
  · exact .fault rfl

lemma evaluated_clockMethod (c : Clock) : Evaluated (clockMethod c name arguments) := by
  have hone := evaluated_oneArgument name arguments
  have hnone := evaluated_noArguments name arguments
  unfold clockMethod
  split
  · exact hnone.map _
  · exact hnone.map _
  · exact hnone.map _
  · exact (hone.bind evaluated_toDate).map _
  · exact (hone.bind evaluated_toMoment).map _
  · exact (hone.bind evaluated_toDate).map _
  · exact .fault rfl

lemma evaluated_callMethod (v : Value) : Evaluated (v.callMethod name arguments) := by
  have hnone := evaluated_noArguments name arguments
  unfold callMethod
  split
  · exact evaluated_textMethod _ _ _
  · exact evaluated_mapMethod _ _ _
  · unfold dateMethod
    split
    · exact hnone.map _
    · exact .fault rfl
  · unfold momentMethod
    split
    · exact hnone.map _
    · exact hnone.map _
    · exact .fault rfl
  · exact evaluated_clockMethod _ _ _
  · exact .fault rfl

end

end Value

/-! ## Trees -/

namespace Expr

open Value

variable (context : Context)

mutual

/-- **Evaluating a condition** never gives a fault of reading. -/
lemma evaluated_eval : ∀ e : Expr, Evaluated (e.eval context)
  | .literal v => by rw [eval]; exact .ok v
  | .list items => by rw [eval]; exact (evaluated_evalAll items).map _
  | .name x => by
    rw [eval]
    split
    · exact .ok _
    · exact .fault rfl
  | .not operand => by rw [eval]; exact (evaluated_eval operand).map _
  | .neg operand => by rw [eval]; exact (evaluated_eval operand).bind evaluated_negate
  | .arithmetic op left right => by
    rw [eval]
    exact (evaluated_eval left).bind fun l => (evaluated_eval right).bind (evaluated_apply op l)
  | .chain op operands => by rw [eval]; exact evaluated_evalChain op .null operands
  | .comparison first rest => by
    rw [eval]
    exact (evaluated_eval first).bind fun v => evaluated_evalComparisons v rest
  | .subscript target index => by
    rw [eval]
    exact (evaluated_eval target).bind fun t => (evaluated_eval index).bind (evaluated_subscript t)
  | .member target field => by
    rw [eval]
    exact (evaluated_eval target).bind fun t => evaluated_member t field
  | .call function arguments => by
    rw [eval]
    exact (evaluated_evalAll arguments).bind (evaluated_callFunction function)
  | .method target function arguments => by
    rw [eval]
    exact (evaluated_eval target).bind fun t =>
      (evaluated_evalAll arguments).bind fun vs => evaluated_callMethod function vs t

lemma evaluated_evalAll : ∀ es : List Expr, Evaluated (evalAll context es)
  | [] => by rw [evalAll]; exact .ok _
  | e :: rest => by
    rw [evalAll]
    exact (evaluated_eval e).bind fun v => (evaluated_evalAll rest).bind fun vs => .ok _

lemma evaluated_evalChain (op : Connective) (last : Value) :
    ∀ es : List Expr, Evaluated (evalChain context op last es)
  | [] => by rw [evalChain]; exact .ok _
  | e :: rest => by
    rw [evalChain]
    refine (evaluated_eval e).bind fun v => ?_
    split
    · exact .ok _
    · exact evaluated_evalChain op v rest

lemma evaluated_evalComparisons (left : Value) :
    ∀ rest : List (Comparison × Expr), Evaluated (evalComparisons context left rest)
  | [] => by rw [evalComparisons]; exact .ok _
  | (op, e) :: rest => by
    rw [evalComparisons]
    refine (evaluated_eval e).bind fun right => (evaluated_holds op left right).bind fun holds => ?_
    split
    · exact evaluated_evalComparisons right rest
    · exact .ok _

end

end Expr

end FormValidation
