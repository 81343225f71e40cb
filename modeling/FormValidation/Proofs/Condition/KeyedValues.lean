import FormValidation.Proofs.Condition.WellFormed
import FormValidation.Proofs.Value.EqualityLaws
import Mathlib

/-!
# Conditions compute keyed values

The laws of equality are laws of values whose maps list each key once and in order (`Value.Keyed`).
This file says that conditions see no others: if the values that a context binds are keyed, then so
is every value that a condition computes in it.

No operation makes a map.  Most give a value that is neither a list nor a map, and the rest hand on
what they find in their operands, or put it into a list.
-/

namespace FormValidation

namespace Value

variable {v w : Value} {items : List Value} {entries : List (String × Value)}

lemma keyed_of_kind (hlist : v.kind ≠ .list) (hmap : v.kind ≠ .map) : v.Keyed :=
  .scalar (fun _ h => hlist (congrArg kind h)) (fun _ h => hmap (congrArg kind h))

lemma keyed_null : null.Keyed := keyed_of_kind nofun nofun

lemma keyed_bool (b : Bool) : (bool b).Keyed := keyed_of_kind nofun nofun

lemma keyed_int (n : Int64) : (int n).Keyed := keyed_of_kind nofun nofun

lemma keyed_text (s : String) : (text s).Keyed := keyed_of_kind nofun nofun

lemma keyed_date (d : Date) : (date d).Keyed := keyed_of_kind nofun nofun

lemma keyed_moment (m : Moment) : (moment m).Keyed := keyed_of_kind nofun nofun

lemma keyed_of_mem (h : (list items).Keyed) : ∀ x ∈ items, x.Keyed := by
  cases h with
  | list hitems => exact hitems
  | scalar hlist => exact absurd rfl (hlist items)

lemma keyed_of_mem_entries (h : (map entries).Keyed) : ∀ e ∈ entries, e.2.Keyed := by
  cases h with
  | map _ hentries => exact hentries
  | scalar _ hmap => exact absurd rfl (hmap entries)

lemma keyed_of_find? (h : (map entries).Keyed) {key : String}
    (hv : Entries.find? key entries = some v) : v.Keyed :=
  keyed_of_mem_entries h _ (Entries.mem_of_find? hv)

/-! ## Operations -/

/-- The outcome is a fault or a keyed value. -/
def Safe (outcome : Except Fault Value) : Prop := ∀ v, outcome = .ok v → v.Keyed

lemma safe_error (fault : Fault) : Safe (.error fault) := nofun

lemma safe_ok (h : v.Keyed) : Safe (.ok v) := by
  rintro _ ⟨⟩
  exact h

lemma safe_scalar (hlist : v.kind ≠ .list) (hmap : v.kind ≠ .map) : Safe (.ok v) :=
  safe_ok (keyed_of_kind hlist hmap)

lemma safe_map {α : Type} {outcome : Except Fault α} {f : α → Value}
    (hf : ∀ x, outcome = .ok x → (f x).Keyed) : Safe (outcome.map f) := by
  cases outcome with
  | error fault => exact safe_error fault
  | ok x => exact safe_ok (hf x rfl)

lemma safe_bind {α : Type} {outcome : Except Fault α} {f : α → Except Fault Value}
    (hf : ∀ x, outcome = .ok x → Safe (f x)) : Safe (outcome >>= f) := by
  cases outcome with
  | error fault => exact safe_error fault
  | ok x => exact hf x rfl

lemma safe_ofInt (n : Int) : Safe (ofInt n) := by
  unfold ofInt
  split
  · exact safe_scalar nofun nofun
  · exact safe_error _

lemma safe_negate (v : Value) : Safe v.negate := by
  unfold negate
  split
  · exact safe_ofInt _
  · exact safe_scalar nofun nofun
  · exact safe_error _

lemma safe_onFloats (op : Arithmetic) (x y : Float) : Safe (op.onFloats x y) := by
  unfold Arithmetic.onFloats
  cases op with
  | add | sub | mul => exact safe_scalar nofun nofun
  | div | rem =>
      dsimp only
      split
      · exact safe_error _
      · exact safe_scalar nofun nofun

lemma safe_onInts (op : Arithmetic) (m n : Int64) : Safe (op.onInts m n) := by
  unfold Arithmetic.onInts
  cases op with
  | add | sub | mul => exact safe_ofInt _
  | div => exact safe_onFloats .div _ _
  | rem =>
      dsimp only
      unfold Arithmetic.intRemainder
      split
      · exact safe_error _
      · split
        · exact safe_scalar nofun nofun
        · exact safe_error _

lemma safe_apply (op : Arithmetic) (hv : v.Keyed) (hw : w.Keyed) : Safe (op.apply v w) := by
  unfold Arithmetic.apply
  split
  · exact safe_onInts _ _ _
  · exact safe_scalar nofun nofun
  · exact safe_ok (.list (List.forall_mem_append.2 ⟨keyed_of_mem hv, keyed_of_mem hw⟩))
  · exact safe_scalar nofun nofun
  · exact safe_scalar nofun nofun
  · split
    · exact safe_onFloats _ _ _
    · exact safe_error _

/-! ## Parts -/

lemma safe_subscript (hv : v.Keyed) (w : Value) : Safe (v.subscript w) := by
  unfold subscript
  split
  · split
    · rename_i hfound
      exact safe_ok (keyed_of_find? hv hfound)
    · exact safe_error _
  · unfold item
    split
    · exact safe_error _
    · split
      · rename_i hfound
        exact safe_ok (keyed_of_mem hv _ (List.mem_of_getElem? hfound))
      · exact safe_error _
  · exact safe_map fun _ _ => keyed_text _
  · exact safe_error _

lemma kind_dateField? {d : Date} {name : String} (h : dateField? d name = some v) :
    v.kind = .int := by
  unfold dateField? at h
  split at h <;> cases h <;> rfl

lemma kind_momentField? {m : Moment} {name : String} (h : momentField? m name = some v) :
    v.kind = .int := by
  unfold momentField? at h
  split at h
  · cases h; rfl
  · cases h; rfl
  · exact kind_dateField? h

lemma safe_member (hv : v.Keyed) (name : String) : Safe (v.member name) := by
  have hint : ∀ w : Value, w.kind = .int → Safe (.ok w) := fun w hw =>
    safe_scalar (by simp [hw]) (by simp [hw])
  unfold member
  split
  · split
    · rename_i hfound
      exact safe_ok (keyed_of_find? hv hfound)
    · exact safe_error _
  · dsimp only
    split
    · rename_i hfield
      exact hint _ (kind_dateField? hfield)
    · exact safe_error _
  · dsimp only
    split
    · rename_i hfield
      exact hint _ (kind_momentField? hfield)
    · exact safe_error _
  · exact safe_error _

/-! ## Functions -/

lemma safe_oneArgument {name : String} {arguments : List Value} {f : Value → Except Fault Value}
    (hf : ∀ v ∈ arguments, Safe (f v)) : Safe (oneArgument name arguments >>= f) := by
  refine safe_bind fun v hv => hf v ?_
  unfold oneArgument at hv
  split at hv
  · cases hv
    exact List.mem_singleton_self _
  · cases hv

lemma safe_length (v : Value) : Safe v.length := by
  unfold length
  split
  · exact safe_ofInt _
  · exact safe_ofInt _
  · exact safe_ofInt _
  · exact safe_error _

lemma safe_toInteger (v : Value) : Safe v.toInteger := by
  unfold toInteger
  split
  · exact safe_scalar nofun nofun
  · exact safe_scalar nofun nofun
  · split
    · exact safe_ofInt _
    · exact safe_error _
  · split
    · exact safe_scalar nofun nofun
    · exact safe_error _
  · exact safe_error _

lemma safe_toDouble (v : Value) : Safe v.toDouble := by
  unfold toDouble
  split
  · split
    · exact safe_scalar nofun nofun
    · exact safe_error _
  · split
    · exact safe_scalar nofun nofun
    · exact safe_error _

lemma safe_absolute (v : Value) : Safe v.absolute := by
  unfold absolute
  split
  · exact safe_ofInt _
  · exact safe_scalar nofun nofun
  · exact safe_error _

lemma safe_extremeFrom (wanted : Ordering) (hv : v.Keyed) (hitems : ∀ x ∈ items, x.Keyed) :
    Safe (extremeFrom wanted v items) := by
  induction items generalizing v with
  | nil => exact safe_ok hv
  | cons x items ih =>
      obtain ⟨hx, hitems⟩ := List.forall_mem_cons.1 hitems
      unfold extremeFrom
      split
      · exact safe_error _
      · refine ih ?_ hitems
        split
        · exact hx
        · exact hv

lemma safe_extreme (name : String) (wanted : Ordering) (hitems : ∀ x ∈ items, x.Keyed) :
    Safe (extreme name wanted items) := by
  unfold extreme
  -- The candidates are the items of the only argument, or the arguments.
  extract_lets candidates
  have hcandidates : ∀ x ∈ candidates, x.Keyed := by
    dsimp only [candidates]
    split
    · exact keyed_of_mem (hitems _ (List.mem_singleton_self _))
    · exact hitems
  clear_value candidates
  cases candidates with
  | nil => exact safe_error _
  | cons first rest =>
      obtain ⟨hfirst, hrest⟩ := List.forall_mem_cons.1 hcandidates
      exact safe_extremeFrom wanted hfirst hrest

lemma safe_callFunction (name : String) (hitems : ∀ x ∈ items, x.Keyed) :
    Safe (callFunction name items) := by
  unfold callFunction
  split
  · rename_i f _
    unfold Function.apply
    cases f with
    | len => exact safe_oneArgument fun v _ => safe_length v
    | int => exact safe_oneArgument fun v _ => safe_toInteger v
    | float => exact safe_oneArgument fun v _ => safe_toDouble v
    | str => exact safe_map fun _ _ => keyed_text _
    | bool => exact safe_map fun _ _ => keyed_bool _
    | abs => exact safe_oneArgument fun v _ => safe_absolute v
    | min => exact safe_extreme _ _ hitems
    | max => exact safe_extreme _ _ hitems
  · exact safe_error _

/-! ## Methods -/

lemma safe_matchesEnd (name : String) (atStart : Bool) (s : String) (v : Value) :
    Safe (matchesEnd name atStart s v) := by
  unfold matchesEnd
  split
  · exact safe_scalar nofun nofun
  · split
    · exact safe_scalar nofun nofun
    · exact safe_error _
  · exact safe_error _

lemma safe_textMethod (s name : String) (arguments : List Value) :
    Safe (textMethod s name arguments) := by
  unfold textMethod
  split
  · exact safe_oneArgument fun v _ => safe_matchesEnd _ _ _ v
  · exact safe_oneArgument fun v _ => safe_matchesEnd _ _ _ v
  · exact safe_oneArgument fun v _ => safe_map fun _ _ => keyed_bool _
  · exact safe_map fun _ _ => keyed_text _
  · exact safe_map fun _ _ => keyed_text _
  · exact safe_map fun _ _ => keyed_text _
  · exact safe_map fun _ _ => keyed_bool _
  · exact safe_error _

lemma keyed_getOr (h : (map entries).Keyed) (key : Value) {default : Value}
    (hdefault : default.Keyed) : (getOr entries key default).Keyed := by
  unfold getOr
  split
  · rename_i key
    cases hfound : Entries.find? key entries with
    | none => exact hdefault
    | some v => exact keyed_of_find? h hfound
  · exact hdefault

lemma safe_mapMethod (h : (map entries).Keyed) (name : String) {arguments : List Value}
    (harguments : ∀ x ∈ arguments, x.Keyed) : Safe (mapMethod entries name arguments) := by
  have hkeys : (list (entries.map fun e => text e.1)).Keyed :=
    .list (List.forall_mem_map.2 fun e _ => keyed_text e.1)
  have hvalues : (list (entries.map (·.2))).Keyed :=
    .list (List.forall_mem_map.2 (keyed_of_mem_entries h))
  unfold mapMethod
  split
  · split
    · rename_i key default
      have hdefault : default.Keyed := harguments _ (by simp)
      exact safe_ok (keyed_getOr h key hdefault)
    · exact safe_map fun key _ => keyed_getOr h key keyed_null
  · exact safe_map fun _ _ => hkeys
  · exact safe_map fun _ _ => hvalues
  · exact safe_error _

lemma safe_dateMethod (d : Date) (name : String) (arguments : List Value) :
    Safe (dateMethod d name arguments) := by
  unfold dateMethod
  split
  · exact safe_map fun _ _ => keyed_text _
  · exact safe_error _

lemma safe_momentMethod (m : Moment) (name : String) (arguments : List Value) :
    Safe (momentMethod m name arguments) := by
  unfold momentMethod
  split
  · exact safe_map fun _ _ => keyed_date _
  · exact safe_map fun _ _ => keyed_text _
  · exact safe_error _

lemma safe_clockMethod (c : Clock) (name : String) (arguments : List Value) :
    Safe (clockMethod c name arguments) := by
  unfold clockMethod
  split
  · exact safe_map fun _ _ => keyed_moment _
  · exact safe_map fun _ _ => keyed_date _
  · exact safe_map fun _ _ => keyed_date _
  · exact safe_map fun _ _ => keyed_date _
  · exact safe_map fun _ _ => keyed_moment _
  · exact safe_map fun _ _ => keyed_int _
  · exact safe_error _

lemma safe_callMethod (hv : v.Keyed) (name : String) {arguments : List Value}
    (harguments : ∀ x ∈ arguments, x.Keyed) : Safe (v.callMethod name arguments) := by
  unfold callMethod
  split
  · exact safe_textMethod _ _ _
  · exact safe_mapMethod hv name harguments
  · exact safe_dateMethod _ _ _
  · exact safe_momentMethod _ _ _
  · exact safe_clockMethod _ _ _
  · exact safe_error _

lemma keyed_of_isLiteral (h : v.IsLiteral) : v.Keyed :=
  .scalar (by rintro _ rfl; exact h) (by rintro _ rfl; exact h)

end Value

/-! ## Conditions -/

/-- All values that the context binds are keyed. -/
def Context.Keyed (context : Context) : Prop := ∀ x v, context.find? x = some v → v.Keyed

namespace Expr

open Value (Safe safe_ok safe_error safe_map safe_bind)

/-- What a chain of comparisons computes is a truth value, so nothing is needed of its operands. -/
lemma safe_evalComparisons (context : Context) (left : Value) (rest : List (Comparison × Expr)) :
    Safe (evalComparisons context left rest) := by
  induction rest generalizing left with
  | nil =>
      simp only [evalComparisons]
      exact safe_ok (Value.keyed_bool true)
  | cons link rest ih =>
      obtain ⟨op, e⟩ := link
      simp only [evalComparisons]
      refine safe_bind fun right _ => safe_bind fun holds _ => ?_
      split
      · exact ih right
      · exact safe_ok (Value.keyed_bool false)

section

variable {context : Context} {literal : Value → Prop}

mutual

/-- **Trees with keyed literals compute keyed values** from keyed bindings. -/
theorem safe_eval (hcontext : context.Keyed) (hliteral : ∀ v, literal v → v.Keyed) :
    ∀ e : Expr, e.WellFormed literal → Safe (e.eval context)
  | .literal v, h => by
      simp only [eval]
      exact safe_ok (hliteral v h)
  | .list items, h => by
      simp only [eval]
      exact safe_map fun vs hvs => .list (keyed_evalAll hcontext hliteral items h hvs)
  | .name x, _ => by
      simp only [eval]
      split
      · rename_i v hfound
        exact safe_ok (hcontext x v hfound)
      · exact safe_error _
  | .not operand, _ => by
      simp only [eval]
      exact safe_map fun _ _ => Value.keyed_bool _
  | .neg operand, _ => by
      simp only [eval]
      exact safe_bind fun v _ => Value.safe_negate v
  | .arithmetic op left right, h => by
      simp only [eval]
      refine safe_bind fun l hl => safe_bind fun r hr => ?_
      exact Value.safe_apply op (safe_eval hcontext hliteral left h.1 l hl)
        (safe_eval hcontext hliteral right h.2 r hr)
  | .chain op operands, h => by
      simp only [eval]
      exact safe_evalChain hcontext hliteral op Value.keyed_null operands h.2
  | .comparison first rest, h => by
      simp only [eval]
      exact safe_bind fun v _ => safe_evalComparisons context v rest
  | .subscript target index, h => by
      simp only [eval]
      refine safe_bind fun t ht => safe_bind fun i _ => ?_
      exact Value.safe_subscript (safe_eval hcontext hliteral target h.1 t ht) i
  | .member target field, h => by
      simp only [eval]
      refine safe_bind fun t ht => ?_
      exact Value.safe_member (safe_eval hcontext hliteral target h.1 t ht) field
  | .call function arguments, h => by
      simp only [eval]
      exact safe_bind fun vs hvs =>
        Value.safe_callFunction function (keyed_evalAll hcontext hliteral arguments h.2 hvs)
  | .method target function arguments, h => by
      simp only [eval]
      refine safe_bind fun t ht => safe_bind fun vs hvs => ?_
      exact Value.safe_callMethod (safe_eval hcontext hliteral target h.1 t ht) function
        (keyed_evalAll hcontext hliteral arguments h.2.2 hvs)

theorem keyed_evalAll (hcontext : context.Keyed) (hliteral : ∀ v, literal v → v.Keyed) :
    ∀ es : List Expr, AllWellFormed literal es →
      ∀ {vs}, evalAll context es = .ok vs → ∀ v ∈ vs, v.Keyed
  | [], _, vs, hvs => by
      simp only [evalAll, Except.ok.injEq] at hvs
      simp [← hvs]
  | e :: rest, h, vs, hvs => by
      simp only [evalAll] at hvs
      obtain ⟨v, hv, hrest⟩ := Condition.exists_of_bind_eq_ok hvs
      obtain ⟨ws, hws, hcons⟩ := Condition.exists_of_bind_eq_ok hrest
      cases hcons
      exact List.forall_mem_cons.2 ⟨safe_eval hcontext hliteral e h.1 v hv,
        keyed_evalAll hcontext hliteral rest h.2 hws⟩

theorem safe_evalChain (hcontext : context.Keyed) (hliteral : ∀ v, literal v → v.Keyed)
    (op : Connective) : ∀ {last : Value}, last.Keyed → ∀ es, AllWellFormed literal es →
      Safe (evalChain context op last es)
  | last, hlast, [], _ => by
      simp only [evalChain]
      exact safe_ok hlast
  | last, _, e :: rest, h => by
      simp only [evalChain]
      refine safe_bind fun v hv => ?_
      have hkeyed : v.Keyed := safe_eval hcontext hliteral e h.1 v hv
      split
      · exact safe_ok hkeyed
      · exact safe_evalChain hcontext hliteral op hkeyed rest h.2

end

end

end Expr

/-- **Conditions compute keyed values** from keyed bindings. -/
theorem Condition.keyed_of_eval {source : String} {e : Expr} {context : Context} {v : Value}
    (hparse : parse source = .ok e) (hcontext : context.Keyed) (hv : e.eval context = .ok v) :
    v.Keyed :=
  Expr.safe_eval hcontext (fun _ => Value.keyed_of_isLiteral) e
    (wellFormed_of_parse hparse) v hv

end FormValidation
