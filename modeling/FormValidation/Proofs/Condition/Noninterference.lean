import FormValidation.Condition.Basic
import Mathlib.Tactic.Lemma

/-!
# What a condition can see

A condition sees its context only through the names that occur in it.  This file lists those names
and compares the evaluation of one tree in two contexts.

`Expr.names` are the names of a tree; what follows a point and what is called are not among them,
since they are never looked up.  `Context.Refines c d xs` says that `d` binds each of the names
`xs` as `c` does, or where `c` does not bind it at all.  The main statement is
`Expr.eval_of_refines`: in such a case the value or the fault is the same in both contexts, unless
the evaluation in `c` ends at a name that only `d` binds (`Context.Strays`).  Where the contexts
agree on the names of the tree there is no such name, and evaluation cannot tell them apart
(`Condition.test_congr`).  `Expr.eval_noninterference` puts both together.

The comparison has to carry the exception through every operator: chains stop early and arguments
are evaluated from the left, so which names are looked up at all depends on the values before
them.  `Context.Compares.bind` is the one step that all operators share.
-/

namespace FormValidation

/-! ## Names of a tree -/

namespace Expr

mutual

/-- The names that occur in a tree. -/
def names : Expr → List String
  | .literal _ => []
  | .list items => namesAll items
  | .name x => [x]
  | .not operand => names operand
  | .neg operand => names operand
  | .arithmetic _ left right => names left ++ names right
  | .chain _ operands => namesAll operands
  | .comparison first rest => names first ++ namesCompared rest
  | .subscript target index => names target ++ names index
  | .member target _ => names target
  | .call _ arguments => namesAll arguments
  | .method target _ arguments => names target ++ namesAll arguments

/-- The names that occur in some of several trees. -/
def namesAll : List Expr → List String
  | [] => []
  | e :: rest => names e ++ namesAll rest

/-- The names that occur in the operands to the right of comparison operators. -/
def namesCompared : List (Comparison × Expr) → List String
  | [] => []
  | (_, e) :: rest => names e ++ namesCompared rest

end

end Expr

/-! ## Two contexts, one tree -/

namespace Context

/-- On these names the second context has the bindings of the first, and may have more. -/
def Refines (c d : Context) (xs : List String) : Prop :=
  ∀ x ∈ xs, c.find? x = none ∨ d.find? x = c.find? x

/-- The evaluation in the first context ended at a name that only the second one binds. -/
def Strays {α : Type} (c d : Context) (xs : List String) (result : Except Fault α) : Prop :=
  ∃ x ∈ xs, c.find? x = none ∧ d.find? x ≠ none ∧ result = .error (.unknownName x)

/-- Two results that are the same, unless the first evaluation strayed. -/
def Compares {α : Type} (c d : Context) (xs : List String) (first second : Except Fault α) :
    Prop :=
  Strays c d xs first ∨ second = first

variable {α β : Type} {c d : Context} {xs ys : List String}

lemma Refines.left (h : Refines c d (xs ++ ys)) : Refines c d xs :=
  fun x hx => h x (List.mem_append_left _ hx)

lemma Refines.right (h : Refines c d (xs ++ ys)) : Refines c d ys :=
  fun x hx => h x (List.mem_append_right _ hx)

lemma Compares.same (result : Except Fault α) : Compares c d xs result result := .inr rfl

/-- What strays at one of some names strays at one of more names. -/
lemma Strays.mono {result : Except Fault α} (h : Strays c d xs result)
    (hsub : ∀ x ∈ xs, x ∈ ys) : Strays c d ys result := by
  obtain ⟨x, hx, hc, hd, hresult⟩ := h
  exact ⟨x, hsub x hx, hc, hd, hresult⟩

/-- A step that follows compares if it does so for the value that both results share. -/
lemma Compares.bind {first second : Except Fault α} {f g : α → Except Fault β}
    (h : Compares c d xs first second) (hnext : ∀ v, Compares c d ys (f v) (g v)) :
    Compares c d (xs ++ ys) (first >>= f) (second >>= g) := by
  rcases h with ⟨x, hx, hc, hd, rfl⟩ | rfl
  · exact .inl ⟨x, List.mem_append_left _ hx, hc, hd, rfl⟩
  · cases second with
    | error fault => exact .same _
    | ok v =>
        rcases hnext v with hstray | heq
        · exact .inl (hstray.mono fun x hx => List.mem_append_right _ hx)
        · exact .inr heq

/-- A step that does not look up names keeps what compares. -/
lemma Compares.andThen {first second : Except Fault α} (h : Compares c d xs first second)
    (f : α → Except Fault β) : Compares c d xs (first >>= f) (second >>= f) := by
  have hbind : Compares c d (xs ++ []) (first >>= f) (second >>= f) := h.bind fun v => .same _
  rwa [List.append_nil] at hbind

lemma Compares.map {first second : Except Fault α} (h : Compares c d xs first second)
    (f : α → β) : Compares c d xs (first.map f) (second.map f) := by
  rcases h with ⟨x, hx, hc, hd, rfl⟩ | rfl
  · exact .inl ⟨x, hx, hc, hd, rfl⟩
  · exact .same _

end Context

/-! ## Evaluation -/

namespace Expr

variable {c d : Context}

mutual

/-- **Evaluation in a context with more names.**  The result is the same, unless the evaluation
fails for want of a name that only the other context has. -/
theorem eval_of_refines : ∀ e : Expr, c.Refines d e.names →
    c.Compares d e.names (e.eval c) (e.eval d)
  | .literal v, _ => .same _
  | .list items, h => by
      simp only [eval, names]
      exact (evalAll_of_refines items h).map _
  | .name x, h => by
      simp only [eval]
      rcases h x (List.mem_singleton_self x) with hnone | heq
      · cases hd : d.find? x with
        | none => rw [hnone]; exact .same _
        | some v =>
            rw [hnone]
            exact .inl ⟨x, List.mem_singleton_self x, hnone, by simp [hd], rfl⟩
      · rw [heq]; exact .same _
  | .not operand, h => by
      simp only [eval, names]
      exact (eval_of_refines operand h).map _
  | .neg operand, h => by
      simp only [eval, names]
      exact (eval_of_refines operand h).andThen _
  | .arithmetic op left right, h => by
      simp only [eval, names]
      exact (eval_of_refines left h.left).bind fun l =>
        (eval_of_refines right h.right).andThen _
  | .chain op operands, h => by
      simp only [eval, names]
      exact evalChain_of_refines op .null operands h
  | .comparison first rest, h => by
      simp only [eval, names]
      exact (eval_of_refines first h.left).bind fun v =>
        evalComparisons_of_refines v rest h.right
  | .subscript target index, h => by
      simp only [eval, names]
      exact (eval_of_refines target h.left).bind fun t =>
        (eval_of_refines index h.right).andThen _
  | .member target field, h => by
      simp only [eval, names]
      exact (eval_of_refines target h).andThen _
  | .call function arguments, h => by
      simp only [eval, names]
      exact (evalAll_of_refines arguments h).andThen _
  | .method target function arguments, h => by
      simp only [eval, names]
      exact (eval_of_refines target h.left).bind fun t =>
        (evalAll_of_refines arguments h.right).andThen _

theorem evalAll_of_refines : ∀ es : List Expr, c.Refines d (namesAll es) →
    c.Compares d (namesAll es) (evalAll c es) (evalAll d es)
  | [], _ => .same _
  | e :: rest, h => by
      simp only [evalAll, namesAll]
      exact (eval_of_refines e h.left).bind fun v =>
        (evalAll_of_refines rest h.right).andThen _

theorem evalChain_of_refines (op : Connective) : ∀ (last : Value) (es : List Expr),
    c.Refines d (namesAll es) →
    c.Compares d (namesAll es) (evalChain c op last es) (evalChain d op last es)
  | _, [], _ => .same _
  | _, e :: rest, h => by
      simp only [evalChain, namesAll]
      refine (eval_of_refines e h.left).bind fun v => ?_
      -- The operand that decides ends the chain in both contexts.
      cases op.decides v with
      | true => exact .same _
      | false => exact evalChain_of_refines op v rest h.right

theorem evalComparisons_of_refines : ∀ (left : Value) (rest : List (Comparison × Expr)),
    c.Refines d (namesCompared rest) →
    c.Compares d (namesCompared rest) (evalComparisons c left rest) (evalComparisons d left rest)
  | _, [], _ => .same _
  | left, (op, e) :: rest, h => by
      simp only [evalComparisons, namesCompared]
      refine (eval_of_refines e h.left).bind fun right => ?_
      cases op.holds left right with
      | error fault => exact .same _
      | ok holds =>
          cases holds with
          | true => exact evalComparisons_of_refines right rest h.right
          | false => exact .same _

end

/-- Contexts that agree on the names of a tree give it the same value or the same fault. -/
lemma eval_congr (e : Expr) (h : ∀ x ∈ e.names, c.find? x = d.find? x) : e.eval c = e.eval d := by
  rcases eval_of_refines (c := c) (d := d) e fun x hx => .inr (h x hx).symm with hstray | heq
  · obtain ⟨x, hx, hc, hd, -⟩ := hstray
    exact absurd (h x hx ▸ hc) hd
  · exact heq.symm

/-- **A condition sees nothing but the names in it.**  If every name of a tree that one context
binds has the same binding in another, then the tree has the same value or the same fault in both,
unless its evaluation in the first ends for want of a name that the other one adds.  Contexts that
agree on the names of the tree, bound or not, always give the same result. -/
theorem eval_noninterference (e : Expr) (c d : Context) :
    ((∀ x ∈ e.names, ∀ v, c.find? x = some v → d.find? x = some v) →
      (∃ x ∈ e.names, c.find? x = none ∧ d.find? x ≠ none ∧
        e.eval c = .error (.unknownName x)) ∨ e.eval d = e.eval c) ∧
    ((∀ x ∈ e.names, c.find? x = d.find? x) → e.eval d = e.eval c) := by
  refine ⟨fun h => eval_of_refines e fun x hx => ?_, fun h => (eval_congr e h).symm⟩
  cases hc : c.find? x with
  | none => exact .inl rfl
  | some v => exact .inr (h x hx v hc)

/-- The condition `open or limit`: where `open` is true, whether `limit` is bound makes no
difference, and where `open` is false, the lack of `limit` shows. -/
theorem eval_noninterference_or :
    let e : Expr := .chain .or [.name "open", .name "limit"]
    let c : Bool → Context := fun b => KeyMap.insert ∅ "open" (.bool b)
    let d : Bool → Context := fun b => (c b).insert "limit" (.int 3)
    (∀ b, ∀ x ∈ e.names, ∀ v, (c b).find? x = some v → (d b).find? x = some v) ∧
      e.eval (d true) = e.eval (c true) ∧ e.eval (c true) = .ok (.bool true) ∧
      e.eval (c false) = .error (.unknownName "limit") ∧ e.eval (d false) = .ok (.int 3) := by
  intro e c d
  have hopen : ∀ b, (d b).find? "open" = some (.bool b) := fun b => KeyMap.find?_insert ..
  have hlimit : ∀ b, (d b).find? "limit" = some (.int 3) := fun b => KeyMap.find?_insert ..
  have hsame : ∀ b, ∀ x ∈ e.names, ∀ v, (c b).find? x = some v → (d b).find? x = some v := by
    intro b x hx v hv
    have hx' : x = "open" ∨ x = "limit" := by simpa [e, names, namesAll] using hx
    rcases hx' with rfl | rfl
    · rw [hopen, ← hv]
      rfl
    · cases hv
  refine ⟨hsame, ?_, rfl, rfl, ?_⟩
  · rcases (eval_noninterference e (c true) (d true)).1 (hsame true) with
      ⟨x, -, -, -, herror⟩ | heq
    · cases herror
    · exact heq
  · simp only [e, eval, evalChain, hopen, hlimit]
    rfl

end Expr

namespace Condition

lemma test_of_evaluate_eq {c : Condition} {context other : Context}
    (h : c.evaluate context = c.evaluate other) : c.test context = c.test other := by
  rw [test, test, check, check, h]

/-- Contexts that agree on the names of a condition decide it alike. -/
lemma test_congr {c : Condition} {context other : Context}
    (h : ∀ x ∈ c.root.names, context.find? x = other.find? x) :
    c.test context = c.test other :=
  test_of_evaluate_eq (c.root.eval_congr h)

/-- A condition that has no value does not hold. -/
lemma test_of_evaluate_error {c : Condition} {context : Context} {fault : Fault}
    (h : c.evaluate context = .error fault) : c.test context = false := by
  rw [test, check, h]
  rfl

end Condition

end FormValidation
