import FormValidation.Source.Generation
import FormValidation.Validator.Field

/-!
# Compiled validators

A group of rules is compiled once for each generation of the document that it stands in. The cache
keeps the validators of the newest generation that it was asked for: a newer one drops all that is
kept, and for an older one validators are compiled and not kept (`CompiledCache.answer`).

What is kept is seen through `form?` and `field?`; keeping a validator changes the answer at its own
key and at no other (`form?_keepForm`, `field?_keepField`).
-/

namespace FormValidation

/-- Compiled validators of one generation. -/
structure CompiledCache where
  generation : Generation
  /-- The validators of whole forms, by form. -/
  forms : KeyMap FormValidator
  /-- The validators of fields, by form and field. -/
  fields : KeyMap (KeyMap FieldValidator)

/-- What a cache answers: the validator, the cache from now on, whether the validator was compiled
for this answer, and the events of compiling it. -/
structure CacheAnswer (α : Type) where
  validator : α
  cache : CompiledCache
  compiled : Bool
  events : List Diagnostic

namespace CompiledCache

/-- The cache before anything was asked for. -/
def empty : CompiledCache := ⟨0, ∅, ∅⟩

instance : Inhabited CompiledCache := ⟨empty⟩

/-- The cache without its validators. -/
def clear (c : CompiledCache) : CompiledCache := { c with forms := ∅, fields := ∅ }

/-- The forms and fields of the validators of fields that are kept. -/
def fieldKeys (c : CompiledCache) : List (String × String) :=
  c.fields.entries.flatMap fun e => e.2.keys.map fun field => (e.1, field)

/-- How many validators are kept. -/
def size (c : CompiledCache) : Nat := c.forms.size + c.fieldKeys.length

/-- Whether no validator is kept. -/
def isEmpty (c : CompiledCache) : Bool := c.size = 0

/-- The validator of a form that is kept. -/
def form? (c : CompiledCache) (form : String) : Option FormValidator := c.forms.find? form

/-- The validator of a field that is kept. -/
def field? (c : CompiledCache) (form field : String) : Option FieldValidator :=
  (c.fields.find? form).bind fun fields => fields.find? field

/-- Keeps the validator of a form. -/
def keepForm (c : CompiledCache) (form : String) (v : FormValidator) : CompiledCache :=
  { c with forms := c.forms.insert form v }

/-- Keeps the validator of a field. -/
def keepField (c : CompiledCache) (form field : String) (v : FieldValidator) : CompiledCache :=
  let fields := (c.fields.find? form).getD ∅
  { c with fields := c.fields.insert form (fields.insert field v) }

/-- The cache for a generation, unless that is older than what is kept. -/
def advance? (c : CompiledCache) (g : Generation) : Option CompiledCache :=
  if g < c.generation then none
  else if c.generation < g then some { c.clear with generation := g }
  else some c

/-- The answer to a request: what is kept if it is of the right generation, and what is compiled
otherwise. -/
def answer {α : Type} (c : CompiledCache) (g : Generation) (kept : Option α)
    (keep : CompiledCache → α → CompiledCache) (compile : Unit → α × List Diagnostic) :
    CacheAnswer α :=
  match kept, decide (c.generation = g) with
  | some v, true => ⟨v, c, false, []⟩
  | _, _ =>
    let made := compile ()
    match c.advance? g with
    | none => ⟨made.1, c, true, made.2⟩
    | some c => ⟨made.1, keep c made.1, true, made.2⟩

/-- The validator of a form at a generation. -/
def formValidator (c : CompiledCache) (g : Generation) (form : String)
    (compile : Unit → FormValidator × List Diagnostic) : CacheAnswer FormValidator :=
  c.answer g (c.form? form) (fun c v => c.keepForm form v) compile

/-- The validator of a field at a generation. -/
def fieldValidator (c : CompiledCache) (g : Generation) (form field : String)
    (compile : Unit → FieldValidator × List Diagnostic) : CacheAnswer FieldValidator :=
  c.answer g (c.field? form field) (fun c v => c.keepField form field v) compile

/-! ## What is kept -/

@[simp] theorem form?_clear (c : CompiledCache) (form : String) : c.clear.form? form = none := rfl

@[simp] theorem field?_clear (c : CompiledCache) (form field : String) :
    c.clear.field? form field = none := rfl

theorem form?_keepForm (c : CompiledCache) (form other : String) (v : FormValidator) :
    (c.keepForm form v).form? other = if form = other then some v else c.form? other :=
  KeyMap.find?_insert c.forms form other v

@[simp] theorem field?_keepForm (c : CompiledCache) (form : String) (v : FormValidator)
    (other field : String) : (c.keepForm form v).field? other field = c.field? other field := rfl

@[simp] theorem form?_keepField (c : CompiledCache) (form field : String) (v : FieldValidator)
    (other : String) : (c.keepField form field v).form? other = c.form? other := rfl

theorem field?_keepField (c : CompiledCache) (form field : String) (v : FieldValidator)
    (form' field' : String) :
    (c.keepField form field v).field? form' field' =
      if form = form' ∧ field = field' then some v else c.field? form' field' := by
  simp only [field?, keepField, KeyMap.find?_insert]
  by_cases hform : form = form'
  · subst hform
    cases hfields : c.fields.find? form with
    | none =>
      simp only [if_true, true_and, Option.bind_some, Option.bind_none, Option.getD_none,
        KeyMap.find?_insert]
      rfl
    | some fields =>
      simp only [if_true, true_and, Option.bind_some, Option.getD_some, KeyMap.find?_insert]
  · simp [hform]

@[simp] theorem generation_keepForm (c : CompiledCache) (form : String) (v : FormValidator) :
    (c.keepForm form v).generation = c.generation := rfl

@[simp] theorem generation_keepField (c : CompiledCache) (form field : String)
    (v : FieldValidator) : (c.keepField form field v).generation = c.generation := rfl

/-- Only what is older than the cache is refused. -/
theorem advance?_eq_none_iff {c : CompiledCache} {g : Generation} :
    c.advance? g = none ↔ g < c.generation := by
  rw [advance?]
  split
  next h => exact ⟨fun _ => h, fun _ => rfl⟩
  next h => split <;> exact ⟨nofun, fun hlt => absurd hlt h⟩

/-- A cache that goes along with a generation is of that generation. -/
theorem generation_of_advance? {c d : CompiledCache} {g : Generation} (h : c.advance? g = some d) :
    d.generation = g := by
  rw [advance?] at h
  split at h
  · cases h
  · split at h
    next => cases h; rfl
    next hlt hgt => cases h; exact Nat.le_antisymm (Nat.not_lt.1 hlt) (Nat.not_lt.1 hgt)

/-! ## What is answered -/

section

variable {α : Type} {c d : CompiledCache} {g : Generation} {kept : Option α}
  {keep : CompiledCache → α → CompiledCache} {compile : Unit → α × List Diagnostic}

/-- What is kept at the generation is the answer. -/
theorem answer_of_kept {v : α} (hg : c.generation = g) :
    c.answer g (some v) keep compile = ⟨v, c, false, []⟩ := by
  unfold answer
  rw [decide_eq_true hg]

/-- For an older generation the answer is compiled, and the cache stays as it is. -/
theorem answer_of_lt (h : g < c.generation) :
    c.answer g kept keep compile = ⟨(compile ()).1, c, true, (compile ()).2⟩ := by
  unfold answer
  rw [decide_eq_false (Nat.ne_of_gt h), advance?_eq_none_iff.2 h]
  cases kept <;> rfl

/-- What is not kept at the generation is compiled, and kept in a cache of the generation. -/
theorem answer_of_advance? (hd : c.advance? g = some d) (hnew : c.generation = g → kept = none) :
    c.answer g kept keep compile =
      ⟨(compile ()).1, keep d (compile ()).1, true, (compile ()).2⟩ := by
  unfold answer
  split
  next v hg =>
    have hno := hnew (of_decide_eq_true hg)
    cases hno
  next => rw [hd]

/-- What holds of the answer in each of the three cases holds of the answer. -/
theorem answer_induction {p : CacheAnswer α → Prop}
    (hkept : ∀ v, c.generation = g → kept = some v → p ⟨v, c, false, []⟩)
    (holder : g < c.generation → p ⟨(compile ()).1, c, true, (compile ()).2⟩)
    (hmade : ∀ d, c.advance? g = some d →
      p ⟨(compile ()).1, keep d (compile ()).1, true, (compile ()).2⟩) :
    p (c.answer g kept keep compile) := by
  cases hd : c.advance? g with
  | none =>
    have hlt := advance?_eq_none_iff.1 hd
    rw [answer_of_lt hlt]
    exact holder hlt
  | some d =>
    by_cases hg : c.generation = g
    · cases hk : kept with
      | none =>
        rw [answer_of_advance? hd fun _ => rfl]
        exact hmade d hd
      | some v =>
        rw [answer_of_kept hg]
        exact hkept v hg hk
    · rw [answer_of_advance? hd fun heq => absurd heq hg]
      exact hmade d hd

end

end CompiledCache

end FormValidation
