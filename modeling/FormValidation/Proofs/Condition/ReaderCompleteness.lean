import FormValidation.Proofs.Condition.ReaderSoundness

/-!
# What the grammar derives is read

A reader takes a phrase of the grammar from the front of a list of tokens whole, if what is behind
it cannot continue it and the cost of the phrase is within the levels given; at a greater cost it
says that this is too deep.  Both are one statement, `Reaches`, and what follows from a derivation
is `Phrase.IsRead`, with one lemma for every rule of the grammar and `Derives.isRead` to put them
together.

The reader of a chain does not stop where a shorter chain ends.  For sums, products and accesses
`IsRead` therefore says how the reader stands behind the phrase: with the tree so far, and with as
many levels less as the chain has links.
-/

namespace FormValidation.Condition

/-! ## Outcomes within a budget -/

/-- With enough levels for a cost the outcome is a given one, and otherwise something is too
deep. -/
def Reaches {α : Type} (c left : Nat) (outcome expected : Except Fault α) : Prop :=
  if c ≤ left then outcome = expected else ∃ position, outcome = .error (.tooDeep position)

/-- One level deeper, if there is one. -/
def deeper {α : Type} (position : Nat) (f : Nat → Except Fault α) : Nat → Except Fault α
  | 0 => .error (.tooDeep position)
  | left + 1 => f left

section

variable {α β : Type} {c c' left : Nat} {x y : Except Fault α}

lemma Reaches.refl (left : Nat) (x : Except Fault α) : Reaches 0 left x x := by
  rw [Reaches, if_pos (Nat.zero_le left)]

lemma Reaches.bind {a : α} {f : α → Except Fault β} {z : Except Fault β}
    (h : Reaches c left x (.ok a)) (h' : Reaches c' left (f a) z) :
    Reaches (max c c') left (x >>= f) z := by
  unfold Reaches at *
  by_cases hc : c ≤ left
  · rw [if_pos hc] at h
    subst h
    by_cases hc' : c' ≤ left
    · rw [if_pos hc'] at h'
      rw [if_pos (Nat.max_le.2 ⟨hc, hc'⟩)]
      exact h'
    · rw [if_neg hc'] at h'
      rw [if_neg (by omega)]
      exact h'
  · rw [if_neg hc] at h
    rw [if_neg (by omega)]
    obtain ⟨position, rfl⟩ := h
    exact ⟨position, rfl⟩

/-- What follows for free does not add to the cost. -/
lemma Reaches.andThen {a : α} {f : α → Except Fault β} {z : Except Fault β}
    (h : Reaches c left x (.ok a)) (hf : f a = z) : Reaches c left (x >>= f) z := by
  subst hf
  have hbind := h.bind (Reaches.refl left (f a))
  rwa [Nat.max_zero] at hbind

lemma Reaches.deeper {position : Nat} {f : Nat → Except Fault α}
    (h : ∀ left, Reaches c left (f left) y) (left : Nat) :
    Reaches (c + 1) left (deeper position f left) y := by
  cases left with
  | zero => exact (if_neg (by omega)).mpr ⟨position, rfl⟩
  | succ left =>
      have hleft := h left
      unfold Reaches at *
      simp only [Nat.add_le_add_iff_right]
      exact hleft

/-- One more link of a chain, which is one level deeper than the links before it. -/
lemma Reaches.link {k position : Nat} {a : α} {part : Nat → Except Fault α}
    {rest : Nat → α → Except Fault β} {x : Except Fault β}
    (h : Reaches c left x
      (Condition.deeper position (fun left => part left >>= rest left) (left - k)))
    (hpart : ∀ left, Reaches c' left (part left) (.ok a)) :
    Reaches (max c (k + 1 + c')) left x (rest (left - (k + 1)) a) := by
  unfold Reaches at h
  by_cases hc : c ≤ left
  · rw [if_pos hc] at h
    rw [h]
    by_cases hk : k + 1 ≤ left
    · obtain ⟨spare, rfl⟩ := Nat.exists_eq_add_of_le hk
      have hpart := hpart spare
      unfold Reaches at hpart ⊢
      rw [show k + 1 + spare - k = spare + 1 by omega,
        show k + 1 + spare - (k + 1) = spare by omega]
      by_cases hc' : c' ≤ spare
      · rw [if_pos hc'] at hpart
        rw [if_pos (by omega), Condition.deeper, hpart]
        rfl
      · rw [if_neg hc'] at hpart
        obtain ⟨place, hpart⟩ := hpart
        rw [if_neg (by omega), Condition.deeper, hpart]
        exact ⟨place, rfl⟩
    · rw [show left - k = 0 by omega]
      exact (if_neg (by omega)).mpr ⟨position, rfl⟩
  · rw [if_neg hc] at h
    exact (if_neg (by omega)).mpr h

end

/-! ## Where phrases end -/

/-- What is behind a phrase cannot continue it from the level on. -/
def Stops (level : Nat) (rest : List Placed) : Prop :=
  ∀ t more, rest = t :: more → level ≤ t.token.grip

lemma stops_nil (level : Nat) : Stops level [] := by
  rintro t more ⟨⟩

lemma stops_cons {level : Nat} {t : Placed} {rest : List Placed} (h : level ≤ t.token.grip) :
    Stops level (t :: rest) := by
  rintro _ _ ⟨⟩
  exact h

lemma Stops.mono {level lower : Nat} {rest : List Placed} (h : Stops level rest)
    (hle : lower ≤ level) : Stops lower rest :=
  fun t more hrest => Nat.le_trans hle (h t more hrest)

lemma grip_of_additive? {t : Token} {op : Arithmetic} (h : additive? t = some op) : t.grip = 3 := by
  cases t <;> first | rfl | cases h

lemma grip_of_multiplicative? {t : Token} {op : Arithmetic} (h : multiplicative? t = some op) :
    t.grip = 2 := by
  cases t <;> first | rfl | cases h

lemma comparisonOperator?_of_stops {rest : List Placed} (h : Stops 5 rest) :
    comparisonOperator? rest = none := by
  cases rest with
  | nil => rfl
  | cons t more =>
      obtain ⟨token, position⟩ := t
      have hgrip : 5 ≤ token.grip := h _ _ rfl
      cases token <;> first | rfl | exact absurd hgrip (by decide)

lemma expectToken_cons (endAt : Nat) (token : Token) (expected : Expected) (position : Nat)
    (rest : List Placed) :
    expectToken endAt token expected (⟨token, position⟩ :: rest) = .ok rest := if_pos rfl

/-! ## One step of a reader -/

section

variable (endAt left : Nat)

lemma negation_not (position : Nat) (rest : List Placed) :
    negation endAt left (⟨.not, position⟩ :: rest) =
      deeper position (fun left => negation endAt left rest >>= fun r => .ok (.not r.1, r.2))
        left := by
  cases left <;> rw [negation] <;> rfl

lemma negation_of_begins {ps rest : List Placed} (h : Begins 1 (ps.map (·.token))) :
    negation endAt left (ps ++ rest) = comparison endAt left (ps ++ rest) := by
  obtain ⟨t, more, hts, ht⟩ := h
  obtain ⟨p, ps, rfl, rfl, rfl⟩ := List.map_eq_cons_iff.1 hts
  obtain ⟨token, position⟩ := p
  rw [List.cons_append, negation]
  rintro place more ⟨⟩
  exact absurd ht (by decide : ¬ 2 ≤ 1)

lemma sumRest_stop {first : Expr} {rest : List Placed} (h : Stops 4 rest) :
    sumRest endAt left first rest = .ok (first, rest) := by
  cases rest with
  | nil => rw [sumRest]
  | cons t more =>
      rw [sumRest]
      cases hop : additive? t.token with
      | none => rfl
      | some op =>
          have hgrip := h t more rfl
          rw [grip_of_additive? hop] at hgrip
          exact absurd hgrip (by decide)

lemma sumRest_link {first : Expr} {t : Placed} {op : Arithmetic} (h : additive? t.token = some op)
    (rest : List Placed) :
    sumRest endAt left first (t :: rest) =
      deeper t.position (fun left => product endAt left rest >>= fun r =>
        sumRest endAt left (.arithmetic op first r.1) r.2) left := by
  cases left <;> rw [sumRest, h] <;> rfl

lemma productRest_stop {first : Expr} {rest : List Placed} (h : Stops 3 rest) :
    productRest endAt left first rest = .ok (first, rest) := by
  cases rest with
  | nil => rw [productRest]
  | cons t more =>
      rw [productRest]
      cases hop : multiplicative? t.token with
      | none => rfl
      | some op =>
          have hgrip := h t more rfl
          rw [grip_of_multiplicative? hop] at hgrip
          exact absurd hgrip (by decide)

lemma productRest_link {first : Expr} {t : Placed} {op : Arithmetic}
    (h : multiplicative? t.token = some op) (rest : List Placed) :
    productRest endAt left first (t :: rest) =
      deeper t.position (fun left => signed endAt left rest >>= fun r =>
        productRest endAt left (.arithmetic op first r.1) r.2) left := by
  cases left <;> rw [productRest, h] <;> rfl

lemma signed_minus (position : Nat) (rest : List Placed) :
    signed endAt left (⟨.minus, position⟩ :: rest) =
      deeper position (fun left => signed endAt left rest >>= fun r => .ok (.neg r.1, r.2))
        left := by
  cases left <;> rw [signed] <;> rfl

lemma signed_plus (position : Nat) (rest : List Placed) :
    signed endAt left (⟨.plus, position⟩ :: rest) =
      deeper position (fun left => signed endAt left rest) left := by
  cases left <;> rw [signed] <;> rfl

lemma signed_of_begins {ps rest : List Placed} (h : Begins 0 (ps.map (·.token))) :
    signed endAt left (ps ++ rest) =
      primary endAt left (ps ++ rest) >>= fun r => accesses endAt left r.1 r.2 := by
  obtain ⟨t, more, hts, ht⟩ := h
  obtain ⟨p, ps, rfl, rfl, rfl⟩ := List.map_eq_cons_iff.1 hts
  obtain ⟨token, position⟩ := p
  rw [List.cons_append, signed]
  · rintro place more ⟨⟩
    exact absurd ht (by decide : ¬ 1 ≤ 0)
  · rintro place more ⟨⟩
    exact absurd ht (by decide : ¬ 1 ≤ 0)

lemma accesses_stop {target : Expr} {rest : List Placed} (h : Stops 2 rest) :
    accesses endAt left target rest = .ok (target, rest) := by
  cases rest with
  | nil => rw [accesses] <;> simp
  | cons t more =>
      obtain ⟨token, position⟩ := t
      have hgrip : 2 ≤ token.grip := h _ _ rfl
      rw [accesses]
      · rintro place more ⟨⟩
        exact absurd hgrip (by decide)
      · rintro place more ⟨⟩
        exact absurd hgrip (by decide)

lemma accesses_subscript {target : Expr} (position : Nat) (rest : List Placed) :
    accesses endAt left target (⟨.openBracket, position⟩ :: rest) =
      deeper position (fun left =>
        deeper position (fun left => disjunction endAt left rest >>= fun r =>
          expectToken endAt .closeBracket .closeIndex r.2 >>= fun rest => .ok (r.1, rest)) left >>=
        fun r => accesses endAt left (.subscript target r.1) r.2) left := by
  match left with
  | 0 => rw [accesses]; rfl
  | 1 => rw [accesses]; rfl
  | left + 2 =>
      rw [accesses, deeper, deeper, bind_assoc]
      refine bind_congr fun r => ?_
      rw [bind_assoc]
      rfl

lemma accesses_member {target : Expr} {name : String} {nameAt : Nat} (position : Nat)
    {rest : List Placed} (h : Stops 1 rest) :
    accesses endAt left target (⟨.dot, position⟩ :: ⟨.ident name, nameAt⟩ :: rest) =
      deeper position (fun left => accesses endAt left (.member target name) rest) left := by
  cases left with
  | zero => rw [accesses]; rfl
  | succ left =>
      rw [accesses, deeper]
      rintro place more rfl
      exact absurd (h _ _ rfl) (by decide : ¬ 1 ≤ 0)

lemma accesses_method {target : Expr} {name : String} {nameAt parenAt : Nat} (position : Nat)
    (rest : List Placed) :
    accesses endAt left target
        (⟨.dot, position⟩ :: ⟨.ident name, nameAt⟩ :: ⟨.openParen, parenAt⟩ :: rest) =
      deeper position (fun left =>
        deeper position (fun left => itemsUntil endAt (fun ts => disjunction endAt left ts)
          .closeParen .closeArguments rest) left >>=
        fun r => accesses endAt left (.method target name r.1) r.2) left := by
  match left with
  | 0 => rw [accesses]; rfl
  | 1 => rw [accesses]; rfl
  | left + 2 => rw [accesses]; rfl

lemma primary_name {name : String} (position : Nat) {rest : List Placed} (h : Stops 1 rest) :
    primary endAt left (⟨.ident name, position⟩ :: rest) = .ok (.name name, rest) := by
  rw [primary]
  rintro place more rfl
  exact absurd (h _ _ rfl) (by decide : ¬ 1 ≤ 0)

lemma primary_call {name : String} (position parenAt : Nat) (rest : List Placed) :
    primary endAt left (⟨.ident name, position⟩ :: ⟨.openParen, parenAt⟩ :: rest) =
      deeper position (fun left =>
        itemsUntil endAt (fun ts => disjunction endAt left ts) .closeParen .closeArguments rest >>=
          fun r => .ok (.call name r.1, r.2)) left := by
  cases left <;> rw [primary] <;> rfl

lemma primary_group (position : Nat) (rest : List Placed) :
    primary endAt left (⟨.openParen, position⟩ :: rest) =
      deeper position (fun left => disjunction endAt left rest >>= fun r =>
        expectToken endAt .closeParen .closeGroup r.2 >>= fun rest => .ok (r.1, rest)) left := by
  cases left <;> rw [primary] <;> rfl

lemma primary_list (position : Nat) (rest : List Placed) :
    primary endAt left (⟨.openBracket, position⟩ :: rest) =
      deeper position (fun left =>
        itemsUntil endAt (fun ts => disjunction endAt left ts) .closeBracket .closeItems rest >>=
          fun r => .ok (.list r.1, r.2)) left := by
  cases left <;> rw [primary] <;> rfl

lemma primary_literal {t : Placed} {v : Value} (h : literalValue? t.token = some v)
    (rest : List Placed) : primary endAt left (t :: rest) = .ok (.literal v, rest) := by
  obtain ⟨token, position⟩ := t
  have hliteral : literal? ⟨token, position⟩ = some (.ok (.literal v)) := by
    cases token with
    | int digits =>
        obtain ⟨n, hn, rfl⟩ := Option.map_eq_some_iff.1 h
        simp [literal?, hn]
    | float digits =>
        obtain ⟨d, hd, rfl⟩ := Option.map_eq_some_iff.1 h
        simp [literal?, hd]
    | text | true | false | none => cases h; rfl
    | _ => cases h
  cases token with
  | int | float | text | true | false | none => rw [primary, hliteral] <;> first | rfl | simp
  | _ => cases h

end

/-! ## What it means to be read -/

/-- The reader of the operands of a connective. -/
def operandReader (endAt left : Nat) : Connective → Reader Expr
  | .or => fun ts => conjunction endAt left ts
  | .and => fun ts => negation endAt left ts

/-- A token closes a list of items. -/
def Closes (close : Token) : Prop := close = .closeParen ∨ close = .closeBracket

/-- What a phrase in the given tokens, of the given cost, means for its reader. -/
def Phrase.IsRead (endAt : Nat) (ps : List Placed) (c : Nat) : Phrase → Prop
  | .disjunction e => ∀ left rest, Stops 7 rest →
      Reaches c left (Condition.disjunction endAt left (ps ++ rest)) (.ok (e, rest))
  | .conjunction e => ∀ left rest, Stops 6 rest →
      Reaches c left (Condition.conjunction endAt left (ps ++ rest)) (.ok (e, rest))
  | .negation e => ∀ left rest, Stops 5 rest →
      Reaches c left (Condition.negation endAt left (ps ++ rest)) (.ok (e, rest))
  | .comparison e => ∀ left rest, Stops 5 rest →
      Reaches c left (Condition.comparison endAt left (ps ++ rest)) (.ok (e, rest))
  | .sum e k => ∀ left rest, Stops 3 rest →
      Reaches c left (Condition.sum endAt left (ps ++ rest)) (sumRest endAt (left - k) e rest)
  | .product e k => ∀ left rest, Stops 2 rest →
      Reaches c left (Condition.product endAt left (ps ++ rest))
        (productRest endAt (left - k) e rest)
  | .signed e => ∀ left rest, Stops 2 rest →
      Reaches c left (Condition.signed endAt left (ps ++ rest)) (.ok (e, rest))
  | .access e k => ∀ left rest, Stops 1 rest →
      Reaches c left (Condition.signed endAt left (ps ++ rest)) (accesses endAt (left - k) e rest)
  | .primary e => ∀ left rest, Stops 1 rest →
      Reaches c left (Condition.primary endAt left (ps ++ rest)) (.ok (e, rest))
  | .operands op es => ∀ left rest fuel, ps.length ≤ fuel →
      Stops ((connectiveToken op).grip + 1) rest →
      Reaches c left
        (separated (operandReader endAt left op) (connectiveToken op) fuel (ps ++ rest))
        (.ok (es, rest))
  | .comparisons more => ∀ left rest fuel, ps.length ≤ fuel → Stops 5 rest →
      Reaches c left
        (Condition.comparisons (fun ts => Condition.sum endAt left ts) fuel (ps ++ rest))
        (.ok (more, rest))
  | .sequence es => ∀ left rest fuel close expected position, ps.length ≤ fuel → Closes close →
      Reaches c left
        (itemsFrom endAt (fun ts => Condition.disjunction endAt left ts) close expected fuel
          (ps ++ ⟨close, position⟩ :: rest))
        (.ok (es, rest))
  | .items es => ∀ left rest close expected position, Closes close →
      Reaches c left
        (itemsUntil endAt (fun ts => Condition.disjunction endAt left ts) close expected
          (ps ++ ⟨close, position⟩ :: rest))
        (.ok (es, rest))

section

variable {endAt c c' k k' : Nat} {ps ps' : List Placed} {e e' : Expr} {es : List Expr}

/-! ## Connectives -/

lemma isRead_operand_iff {op : Connective} :
    (Phrase.operand op e).IsRead endAt ps c ↔
      ∀ left rest, Stops (connectiveToken op).grip rest →
        Reaches c left (operandReader endAt left op (ps ++ rest)) (.ok (e, rest)) := by
  cases op <;> rfl

lemma isRead_operand {op : Connective} (h : (Phrase.operand op e).IsRead endAt ps c) :
    (Phrase.operands op [e]).IsRead endAt ps c := by
  intro left rest fuel _ hstop
  have hread := isRead_operand_iff.1 h left rest (hstop.mono (Nat.le_succ _))
  cases fuel with
  | zero => exact hread.andThen rfl
  | succ fuel =>
      rw [separated]
      refine hread.andThen ?_
      cases rest with
      | nil => rfl
      | cons t more =>
          have hne : t.token ≠ connectiveToken op := by
            intro heq
            have hgrip := hstop t more rfl
            rw [heq] at hgrip
            omega
          exact if_neg hne

lemma isRead_operands {op : Connective} {t : Placed} (h : (Phrase.operand op e).IsRead endAt ps c)
    (ht : t.token = connectiveToken op) (h' : (Phrase.operands op es).IsRead endAt ps' c') :
    (Phrase.operands op (e :: es)).IsRead endAt (ps ++ t :: ps') (max c c') := by
  intro left rest fuel hfuel hstop
  rw [List.length_append, List.length_cons] at hfuel
  obtain ⟨fuel, rfl⟩ : ∃ more, fuel = more + 1 := ⟨fuel - 1, by omega⟩
  rw [List.append_assoc, List.cons_append, separated]
  have hread := isRead_operand_iff.1 h left (t :: (ps' ++ rest))
    (stops_cons (Nat.le_of_eq (by rw [ht])))
  refine hread.bind ?_
  show Reaches c' left (if t.token = connectiveToken op then _ else _) _
  rw [if_pos ht]
  exact (h' left rest fuel (by omega) hstop).andThen rfl

lemma isRead_disjunction (h : (Phrase.operands .or es).IsRead endAt ps c) :
    (Phrase.disjunction (ofChain .or es)).IsRead endAt ps c := by
  intro left rest hstop
  rw [disjunction]
  exact Reaches.andThen (h left rest _ (by simp) hstop) rfl

lemma isRead_conjunction (h : (Phrase.operands .and es).IsRead endAt ps c) :
    (Phrase.conjunction (ofChain .and es)).IsRead endAt ps c := by
  intro left rest hstop
  rw [conjunction]
  exact Reaches.andThen (h left rest _ (by simp) hstop) rfl

lemma isRead_not {position : Nat} (h : (Phrase.negation e).IsRead endAt ps c) :
    (Phrase.negation (.not e)).IsRead endAt (⟨.not, position⟩ :: ps) (c + 1) := by
  intro left rest hstop
  rw [List.cons_append, negation_not]
  exact Reaches.deeper (fun left => (h left rest hstop).andThen rfl) left

lemma isRead_affirmed (hbegins : Begins 1 (ps.map (·.token)))
    (h : (Phrase.comparison e).IsRead endAt ps c) : (Phrase.negation e).IsRead endAt ps c := by
  intro left rest hstop
  rw [negation_of_begins endAt left hbegins]
  exact h left rest hstop

/-! ## Arithmetic -/

lemma isRead_factor (h : (Phrase.signed e).IsRead endAt ps c) :
    (Phrase.product e 0).IsRead endAt ps c := by
  intro left rest hstop
  rw [product]
  exact (h left rest hstop).andThen rfl

lemma isRead_product {op : Arithmetic} {t : Placed} (h : (Phrase.product e k).IsRead endAt ps c)
    (ht : multiplicative? t.token = some op) (h' : (Phrase.signed e').IsRead endAt ps' c') :
    (Phrase.product (.arithmetic op e e') (k + 1)).IsRead endAt (ps ++ t :: ps')
      (max c (k + 1 + c')) := by
  intro left rest hstop
  have hread := h left (t :: (ps' ++ rest))
    (stops_cons (Nat.le_of_eq (grip_of_multiplicative? ht).symm))
  rw [productRest_link endAt _ ht] at hread
  rw [List.append_assoc, List.cons_append]
  exact hread.link fun left => h' left rest hstop

/-- A product of which nothing is left to read. -/
lemma Phrase.IsRead.product_ok (h : (Phrase.product e k).IsRead endAt ps c) (left : Nat)
    {rest : List Placed} (hstop : Stops 3 rest) :
    Reaches c left (Condition.product endAt left (ps ++ rest)) (.ok (e, rest)) := by
  have hread := h left rest (hstop.mono (by omega))
  rwa [productRest_stop endAt _ hstop] at hread

lemma isRead_summand (h : (Phrase.product e k).IsRead endAt ps c) :
    (Phrase.sum e 0).IsRead endAt ps c := by
  intro left rest hstop
  rw [sum]
  exact (h.product_ok left hstop).andThen rfl

lemma isRead_sum {op : Arithmetic} {t : Placed} (h : (Phrase.sum e k).IsRead endAt ps c)
    (ht : additive? t.token = some op) (h' : (Phrase.product e' k').IsRead endAt ps' c') :
    (Phrase.sum (.arithmetic op e e') (k + 1)).IsRead endAt (ps ++ t :: ps')
      (max c (k + 1 + c')) := by
  intro left rest hstop
  have hread := h left (t :: (ps' ++ rest))
    (stops_cons (Nat.le_of_eq (grip_of_additive? ht).symm))
  rw [sumRest_link endAt _ ht] at hread
  rw [List.append_assoc, List.cons_append]
  exact hread.link fun left => h'.product_ok left hstop

/-- A sum of which nothing is left to read. -/
lemma Phrase.IsRead.sum_ok (h : (Phrase.sum e k).IsRead endAt ps c) (left : Nat)
    {rest : List Placed} (hstop : Stops 4 rest) :
    Reaches c left (Condition.sum endAt left (ps ++ rest)) (.ok (e, rest)) := by
  have hread := h left rest (hstop.mono (by omega))
  rwa [sumRest_stop endAt _ hstop] at hread

lemma isRead_minus {position : Nat} (h : (Phrase.signed e).IsRead endAt ps c) :
    (Phrase.signed (.neg e)).IsRead endAt (⟨.minus, position⟩ :: ps) (c + 1) := by
  intro left rest hstop
  rw [List.cons_append, signed_minus]
  exact Reaches.deeper (fun left => (h left rest hstop).andThen rfl) left

lemma isRead_plus {position : Nat} (h : (Phrase.signed e).IsRead endAt ps c) :
    (Phrase.signed e).IsRead endAt (⟨.plus, position⟩ :: ps) (c + 1) := by
  intro left rest hstop
  rw [List.cons_append, signed_plus]
  exact Reaches.deeper (fun left => h left rest hstop) left

lemma isRead_unsigned (h : (Phrase.access e k).IsRead endAt ps c) :
    (Phrase.signed e).IsRead endAt ps c := by
  intro left rest hstop
  have hread := h left rest (hstop.mono (by omega))
  rwa [accesses_stop endAt _ hstop] at hread

/-! ## Comparisons -/

lemma isRead_uncompared : (Phrase.comparisons []).IsRead endAt [] 0 := by
  intro left rest fuel _ hstop
  cases fuel with
  | zero => exact .refl left _
  | succ fuel =>
      rw [List.nil_append, comparisons, comparisonOperator?_of_stops hstop]
      exact .refl left _

/-- The first token of an operator continues a sum to a comparison. -/
lemma exists_comparisonTokens_eq (op : Comparison) :
    ∃ t more, comparisonTokens op = t :: more ∧ t.grip = 4 := by
  cases op <;> exact ⟨_, _, rfl, rfl⟩

/-- An operator is read whole: no operand begins with what would make it longer. -/
lemma comparisonOperator?_append {op : Comparison} {qs : List Placed}
    (hqs : qs.map (·.token) = comparisonTokens op) (hbegins : Begins 1 (ps.map (·.token)))
    (rest : List Placed) : comparisonOperator? (qs ++ (ps ++ rest)) = some (op, ps ++ rest) := by
  cases op <;> simp only [comparisonTokens, List.map_eq_cons_iff, List.map_eq_nil_iff] at hqs
  case same =>
    obtain ⟨⟨_, place⟩, _, rfl, rfl, rfl⟩ := hqs
    obtain ⟨t, more, hts, ht⟩ := hbegins
    obtain ⟨p, ps, rfl, rfl, rfl⟩ := List.map_eq_cons_iff.1 hts
    rw [List.cons_append, List.nil_append, List.cons_append, comparisonOperator?]
    rintro position behind ⟨⟩
    exact absurd ht (by decide : ¬ 2 ≤ 1)
  case notIn | notSame =>
    obtain ⟨⟨_, place⟩, _, rfl, rfl, ⟨_, place'⟩, _, rfl, rfl, rfl⟩ := hqs
    rfl
  all_goals
    obtain ⟨⟨_, place⟩, _, rfl, rfl, rfl⟩ := hqs
    rfl

lemma isRead_compared {op : Comparison} {qs : List Placed} {more : List (Comparison × Expr)}
    (hqs : qs.map (·.token) = comparisonTokens op) (hbegins : Begins 1 (ps.map (·.token)))
    (h : (Phrase.sum e k).IsRead endAt ps c)
    (hstops : ∀ rest, Stops 5 rest → Stops 4 (ps' ++ rest))
    (h' : (Phrase.comparisons more).IsRead endAt ps' c') :
    (Phrase.comparisons ((op, e) :: more)).IsRead endAt (qs ++ (ps ++ ps')) (max c c') := by
  intro left rest fuel hfuel hstop
  have hoperator : 1 ≤ qs.length := by
    obtain ⟨t, behind, htokens, -⟩ := exists_comparisonTokens_eq op
    have hlength := congrArg List.length (hqs.trans htokens)
    rw [List.length_map, List.length_cons] at hlength
    omega
  rw [List.length_append, List.length_append] at hfuel
  obtain ⟨fuel, rfl⟩ : ∃ more, fuel = more + 1 := ⟨fuel - 1, by omega⟩
  rw [List.append_assoc, List.append_assoc, comparisons, comparisonOperator?_append hqs hbegins]
  refine (h.sum_ok left (hstops rest hstop)).bind ?_
  exact (h' left rest fuel (by omega) hstop).andThen rfl

/-- What follows an operand of a comparison is another operator, or ends the comparison. -/
lemma stops_of_comparisons {more : List (Comparison × Expr)}
    (h : Derives (.comparisons more) (ps.map (·.token)) c) {rest : List Placed}
    (hstop : Stops 5 rest) : Stops 4 (ps ++ rest) := by
  generalize hts : ps.map (·.token) = ts at h
  cases h with
  | uncompared =>
      rw [List.map_eq_nil_iff.1 hts]
      exact hstop.mono (by omega)
  | @compared op e k more ts ts' c c' h h' =>
      obtain ⟨t, behind, htokens, hgrip⟩ := exists_comparisonTokens_eq op
      rw [htokens, List.cons_append] at hts
      obtain ⟨p, ps, rfl, rfl, -⟩ := List.map_eq_cons_iff.1 hts
      exact stops_cons (Nat.le_of_eq hgrip.symm)

lemma isRead_comparison {more : List (Comparison × Expr)} (h : (Phrase.sum e k).IsRead endAt ps c)
    (hstops : ∀ rest, Stops 5 rest → Stops 4 (ps' ++ rest))
    (h' : (Phrase.comparisons more).IsRead endAt ps' c') :
    (Phrase.comparison (if more.isEmpty then e else .comparison e more)).IsRead endAt (ps ++ ps')
      (max c c') := by
  intro left rest hstop
  rw [List.append_assoc, comparison]
  refine (h.sum_ok left (hstops rest hstop)).bind ?_
  exact (h' left rest _ (by simp) hstop).andThen rfl

/-! ## Accesses -/

lemma isRead_target (hbegins : Begins 0 (ps.map (·.token)))
    (h : (Phrase.primary e).IsRead endAt ps c) : (Phrase.access e 0).IsRead endAt ps c := by
  intro left rest hstop
  rw [signed_of_begins endAt left hbegins]
  exact (h left rest hstop).andThen rfl

lemma isRead_subscript {index : Expr} {position close : Nat}
    (h : (Phrase.access e k).IsRead endAt ps c)
    (h' : (Phrase.disjunction index).IsRead endAt ps' c') :
    (Phrase.access (.subscript e index) (k + 1)).IsRead endAt
      (ps ++ ⟨.openBracket, position⟩ :: (ps' ++ [⟨.closeBracket, close⟩]))
      (max c (k + 1 + (c' + 1))) := by
  intro left rest hstop
  have hread := h left (⟨.openBracket, position⟩ :: (ps' ++ ⟨.closeBracket, close⟩ :: rest))
    (stops_cons (Nat.le_refl 1))
  rw [accesses_subscript] at hread
  rw [List.append_assoc, List.cons_append, List.append_assoc, List.cons_append, List.nil_append]
  have hindex : ∀ left, Reaches c' left
      (disjunction endAt left (ps' ++ ⟨.closeBracket, close⟩ :: rest) >>= fun r =>
        expectToken endAt .closeBracket .closeIndex r.2 >>= fun rest => .ok (r.1, rest))
      (.ok (index, rest)) := fun left =>
    (h' left (⟨.closeBracket, close⟩ :: rest) (stops_cons (Nat.le_refl 7))).andThen rfl
  exact hread.link (Reaches.deeper hindex)

lemma isRead_member {name : String} {position nameAt : Nat}
    (h : (Phrase.access e k).IsRead endAt ps c) :
    (Phrase.access (.member e name) (k + 1)).IsRead endAt
      (ps ++ [⟨.dot, position⟩, ⟨.ident name, nameAt⟩]) (max c (k + 1)) := by
  intro left rest hstop
  have hread := h left (⟨.dot, position⟩ :: ⟨.ident name, nameAt⟩ :: rest)
    (stops_cons (Nat.le_refl 1))
  rw [accesses_member endAt _ _ hstop] at hread
  rw [List.append_assoc, List.cons_append, List.cons_append, List.nil_append]
  -- Nothing else is read for this link, which is therefore one with an empty part.
  have hlink : Reaches c left _ (deeper position (fun left =>
      (Except.ok () : Except Fault Unit) >>= fun _ =>
        accesses endAt left (.member e name) rest) (left - k)) := hread
  exact hlink.link fun left => .refl left _

lemma isRead_method {name : String} {position nameAt parenAt close : Nat}
    (h : (Phrase.access e k).IsRead endAt ps c) (h' : (Phrase.items es).IsRead endAt ps' c') :
    (Phrase.access (.method e name es) (k + 1)).IsRead endAt
      (ps ++ ⟨.dot, position⟩ :: ⟨.ident name, nameAt⟩ :: ⟨.openParen, parenAt⟩ ::
        (ps' ++ [⟨.closeParen, close⟩]))
      (max c (k + 1 + (c' + 1))) := by
  intro left rest hstop
  have hread := h left (⟨.dot, position⟩ :: ⟨.ident name, nameAt⟩ :: ⟨.openParen, parenAt⟩ ::
    (ps' ++ ⟨.closeParen, close⟩ :: rest)) (stops_cons (Nat.le_refl 1))
  rw [accesses_method] at hread
  rw [List.append_assoc, List.cons_append, List.cons_append, List.cons_append, List.append_assoc,
    List.cons_append, List.nil_append]
  exact hread.link fun left =>
    Reaches.deeper (fun left => h' left rest .closeParen .closeArguments close (.inl rfl)) left

/-! ## Operands -/

lemma isRead_literal {t : Placed} {v : Value} (h : literalValue? t.token = some v) :
    (Phrase.primary (.literal v)).IsRead endAt [t] 0 := by
  intro left rest _
  rw [List.cons_append, List.nil_append, primary_literal endAt left h]
  exact .refl left _

lemma isRead_name {x : String} {position : Nat} :
    (Phrase.primary (.name x)).IsRead endAt [⟨.ident x, position⟩] 0 := by
  intro left rest hstop
  rw [List.cons_append, List.nil_append, primary_name endAt left position hstop]
  exact .refl left _

lemma isRead_call {name : String} {position parenAt close : Nat}
    (h : (Phrase.items es).IsRead endAt ps c) :
    (Phrase.primary (.call name es)).IsRead endAt
      (⟨.ident name, position⟩ :: ⟨.openParen, parenAt⟩ :: (ps ++ [⟨.closeParen, close⟩]))
      (c + 1) := by
  intro left rest _
  rw [List.cons_append, List.cons_append, List.append_assoc, List.cons_append, List.nil_append,
    primary_call]
  exact Reaches.deeper (fun left =>
    (h left rest .closeParen .closeArguments close (.inl rfl)).andThen rfl) left

lemma isRead_group {position close : Nat} (h : (Phrase.disjunction e).IsRead endAt ps c) :
    (Phrase.primary e).IsRead endAt (⟨.openParen, position⟩ :: (ps ++ [⟨.closeParen, close⟩]))
      (c + 1) := by
  intro left rest _
  rw [List.cons_append, List.append_assoc, List.cons_append, List.nil_append, primary_group]
  exact Reaches.deeper (fun left =>
    (h left (⟨.closeParen, close⟩ :: rest) (stops_cons (Nat.le_refl 7))).andThen rfl) left

lemma isRead_list {position close : Nat} (h : (Phrase.items es).IsRead endAt ps c) :
    (Phrase.primary (.list es)).IsRead endAt
      (⟨.openBracket, position⟩ :: (ps ++ [⟨.closeBracket, close⟩])) (c + 1) := by
  intro left rest _
  rw [List.cons_append, List.append_assoc, List.cons_append, List.nil_append, primary_list]
  exact Reaches.deeper (fun left =>
    (h left rest .closeBracket .closeItems close (.inr rfl)).andThen rfl) left

/-! ## Items -/

lemma Closes.stops {close : Token} (h : Closes close) (position : Nat) (rest : List Placed) :
    Stops 7 (⟨close, position⟩ :: rest) := by
  rcases h with rfl | rfl <;> exact stops_cons (Nat.le_refl 7)

/-- No item begins with a closing token. -/
lemma Closes.ne_of_opening {close t : Token} (h : Closes close) (ht : t.opening ≤ 2) :
    t ≠ close := by
  rintro rfl
  rcases h with rfl | rfl <;> exact absurd ht (by decide)

lemma isRead_noItems : (Phrase.items []).IsRead endAt [] 0 := by
  intro left rest close expected position _
  rw [List.nil_append, itemsUntil, if_pos rfl]
  exact .refl left _

lemma isRead_items (hbegins : Begins 2 (ps.map (·.token)))
    (h : (Phrase.sequence es).IsRead endAt ps c) : (Phrase.items es).IsRead endAt ps c := by
  intro left rest close expected position hclose
  obtain ⟨t, more, hts, ht⟩ := hbegins
  obtain ⟨p, ps, rfl, rfl, rfl⟩ := List.map_eq_cons_iff.1 hts
  rw [List.cons_append, itemsUntil, if_neg (hclose.ne_of_opening ht), ← List.cons_append]
  exact h left rest _ close expected position (by simp) hclose

lemma isRead_item (h : (Phrase.disjunction e).IsRead endAt ps c) :
    (Phrase.sequence [e]).IsRead endAt ps c := by
  intro left rest fuel close expected position _ hclose
  have hread := h left _ (hclose.stops position rest)
  cases fuel with
  | zero =>
      refine hread.andThen ?_
      dsimp only
      rw [expectToken_cons]
      rfl
  | succ fuel =>
      rw [itemsFrom]
      refine hread.andThen ?_
      rcases hclose with rfl | rfl <;> rfl

lemma isRead_lastComma {comma : Nat} (h : (Phrase.disjunction e).IsRead endAt ps c) :
    (Phrase.sequence [e]).IsRead endAt (ps ++ [⟨.comma, comma⟩]) c := by
  intro left rest fuel close expected position hfuel _
  rw [List.length_append, List.length_singleton] at hfuel
  obtain ⟨fuel, rfl⟩ : ∃ more, fuel = more + 1 := ⟨fuel - 1, by omega⟩
  rw [List.append_assoc, List.cons_append, List.nil_append, itemsFrom]
  have hread := h left (⟨.comma, comma⟩ :: ⟨close, position⟩ :: rest) (stops_cons (Nat.le_refl 7))
  exact hread.andThen (if_pos rfl)

lemma isRead_sequence {comma : Nat} (h : (Phrase.disjunction e).IsRead endAt ps c)
    (hbegins : Begins 2 (ps'.map (·.token))) (h' : (Phrase.sequence es).IsRead endAt ps' c') :
    (Phrase.sequence (e :: es)).IsRead endAt (ps ++ ⟨.comma, comma⟩ :: ps') (max c c') := by
  intro left rest fuel close expected position hfuel hclose
  rw [List.length_append, List.length_cons] at hfuel
  obtain ⟨fuel, rfl⟩ : ∃ more, fuel = more + 1 := ⟨fuel - 1, by omega⟩
  rw [List.append_assoc, List.cons_append, itemsFrom]
  refine (h left (⟨.comma, comma⟩ :: (ps' ++ ⟨close, position⟩ :: rest))
    (stops_cons (Nat.le_refl 7))).bind ?_
  have hmore := h' left rest fuel close expected position (by omega) hclose
  obtain ⟨t, more, hts, ht⟩ := hbegins
  obtain ⟨p, ps', rfl, rfl, rfl⟩ := List.map_eq_cons_iff.1 hts
  rw [List.cons_append] at hmore ⊢
  show Reaches c' left (if p.token = close then _ else _) _
  rw [if_neg (hclose.ne_of_opening ht)]
  exact hmore.andThen rfl

end

/-! ## Derivations -/

lemma exists_of_map_eq_cons {ps : List Placed} {t : Token} {ts : List Token}
    (h : ps.map (·.token) = t :: ts) :
    ∃ position qs, ps = ⟨t, position⟩ :: qs ∧ qs.map (·.token) = ts := by
  obtain ⟨⟨_, position⟩, qs, rfl, rfl, hqs⟩ := List.map_eq_cons_iff.1 h
  exact ⟨position, qs, rfl, hqs⟩

lemma exists_of_map_eq_concat {ps : List Placed} {ts : List Token} {t : Token}
    (h : ps.map (·.token) = ts ++ [t]) :
    ∃ position qs, ps = qs ++ [⟨t, position⟩] ∧ qs.map (·.token) = ts := by
  obtain ⟨qs, last, rfl, hqs, hlast⟩ := List.map_eq_append_iff.1 h
  obtain ⟨⟨_, position⟩, rfl, rfl⟩ := List.map_eq_singleton_iff.1 hlast
  exact ⟨position, qs, rfl, hqs⟩

/-- **Every phrase is read**, whatever is behind it that cannot continue it. -/
theorem Derives.isRead {φ : Phrase} {ts : List Token} {c : Nat} (h : Derives φ ts c)
    (endAt : Nat) : ∀ ps : List Placed, ps.map (·.token) = ts → φ.IsRead endAt ps c := by
  induction h with
  | operand h ih => exact fun ps hps => isRead_operand (ih ps hps)
  | operands h h' ih ih' =>
      intro ps hps
      obtain ⟨front, back, rfl, hfront, hback⟩ := List.map_eq_append_iff.1 hps
      obtain ⟨position, more, rfl, hmore⟩ := exists_of_map_eq_cons hback
      exact isRead_operands (ih front hfront) rfl (ih' more hmore)
  | disjunction h ih => exact fun ps hps => isRead_disjunction (ih ps hps)
  | conjunction h ih => exact fun ps hps => isRead_conjunction (ih ps hps)
  | not h ih =>
      intro ps hps
      obtain ⟨position, more, rfl, hmore⟩ := exists_of_map_eq_cons hps
      exact isRead_not (ih more hmore)
  | affirmed h ih =>
      rintro ps rfl
      exact isRead_affirmed (h.begins 1 rfl) (ih ps rfl)
  | comparison h h' ih ih' =>
      intro ps hps
      obtain ⟨front, back, rfl, rfl, rfl⟩ := List.map_eq_append_iff.1 hps
      exact isRead_comparison (ih front rfl) (fun rest => stops_of_comparisons h') (ih' back rfl)
  | uncompared =>
      intro ps hps
      rw [List.map_eq_nil_iff.1 hps]
      exact isRead_uncompared
  | compared h h' ih ih' =>
      intro ps hps
      obtain ⟨operator, operands, rfl, hoperator, hoperands⟩ := List.map_eq_append_iff.1 hps
      obtain ⟨front, back, rfl, rfl, rfl⟩ := List.map_eq_append_iff.1 hoperands
      exact isRead_compared hoperator (h.begins 1 rfl) (ih front rfl)
        (fun rest => stops_of_comparisons h') (ih' back rfl)
  | summand h ih => exact fun ps hps => isRead_summand (ih ps hps)
  | sum h ht h' ih ih' =>
      intro ps hps
      obtain ⟨front, back, rfl, hfront, hback⟩ := List.map_eq_append_iff.1 hps
      obtain ⟨position, more, rfl, hmore⟩ := exists_of_map_eq_cons hback
      exact isRead_sum (ih front hfront) ht (ih' more hmore)
  | factor h ih => exact fun ps hps => isRead_factor (ih ps hps)
  | product h ht h' ih ih' =>
      intro ps hps
      obtain ⟨front, back, rfl, hfront, hback⟩ := List.map_eq_append_iff.1 hps
      obtain ⟨position, more, rfl, hmore⟩ := exists_of_map_eq_cons hback
      exact isRead_product (ih front hfront) ht (ih' more hmore)
  | minus h ih =>
      intro ps hps
      obtain ⟨position, more, rfl, hmore⟩ := exists_of_map_eq_cons hps
      exact isRead_minus (ih more hmore)
  | plus h ih =>
      intro ps hps
      obtain ⟨position, more, rfl, hmore⟩ := exists_of_map_eq_cons hps
      exact isRead_plus (ih more hmore)
  | unsigned h ih => exact fun ps hps => isRead_unsigned (ih ps hps)
  | target h ih =>
      rintro ps rfl
      exact isRead_target (h.begins 0 rfl) (ih ps rfl)
  | subscript h h' ih ih' =>
      intro ps hps
      obtain ⟨front, back, rfl, hfront, hback⟩ := List.map_eq_append_iff.1 hps
      obtain ⟨position, inside, rfl, hinside⟩ := exists_of_map_eq_cons hback
      obtain ⟨close, index, rfl, hindex⟩ := exists_of_map_eq_concat hinside
      exact isRead_subscript (ih front hfront) (ih' index hindex)
  | member h ih =>
      intro ps hps
      obtain ⟨front, back, rfl, hfront, hback⟩ := List.map_eq_append_iff.1 hps
      obtain ⟨position, named, rfl, hnamed⟩ := exists_of_map_eq_cons hback
      obtain ⟨nameAt, more, rfl, hmore⟩ := exists_of_map_eq_cons hnamed
      obtain rfl := List.map_eq_nil_iff.1 hmore
      exact isRead_member (ih front hfront)
  | method h h' ih ih' =>
      intro ps hps
      obtain ⟨front, back, rfl, hfront, hback⟩ := List.map_eq_append_iff.1 hps
      obtain ⟨position, named, rfl, hnamed⟩ := exists_of_map_eq_cons hback
      obtain ⟨nameAt, enclosed, rfl, henclosed⟩ := exists_of_map_eq_cons hnamed
      obtain ⟨parenAt, inside, rfl, hinside⟩ := exists_of_map_eq_cons henclosed
      obtain ⟨close, items, rfl, hitems⟩ := exists_of_map_eq_concat hinside
      exact isRead_method (ih front hfront) (ih' items hitems)
  | literal hv =>
      intro ps hps
      obtain ⟨t, rfl, rfl⟩ := List.map_eq_singleton_iff.1 hps
      exact isRead_literal hv
  | name =>
      intro ps hps
      obtain ⟨position, more, rfl, hmore⟩ := exists_of_map_eq_cons hps
      obtain rfl := List.map_eq_nil_iff.1 hmore
      exact isRead_name
  | call h ih =>
      intro ps hps
      obtain ⟨position, enclosed, rfl, henclosed⟩ := exists_of_map_eq_cons hps
      obtain ⟨parenAt, inside, rfl, hinside⟩ := exists_of_map_eq_cons henclosed
      obtain ⟨close, items, rfl, hitems⟩ := exists_of_map_eq_concat hinside
      exact isRead_call (ih items hitems)
  | group h ih =>
      intro ps hps
      obtain ⟨position, inside, rfl, hinside⟩ := exists_of_map_eq_cons hps
      obtain ⟨close, inner, rfl, hinner⟩ := exists_of_map_eq_concat hinside
      exact isRead_group (ih inner hinner)
  | list h ih =>
      intro ps hps
      obtain ⟨position, inside, rfl, hinside⟩ := exists_of_map_eq_cons hps
      obtain ⟨close, items, rfl, hitems⟩ := exists_of_map_eq_concat hinside
      exact isRead_list (ih items hitems)
  | noItems =>
      intro ps hps
      rw [List.map_eq_nil_iff.1 hps]
      exact isRead_noItems
  | items h ih =>
      rintro ps rfl
      exact isRead_items (h.begins 2 rfl) (ih ps rfl)
  | item h ih => exact fun ps hps => isRead_item (ih ps hps)
  | lastComma h ih =>
      intro ps hps
      obtain ⟨comma, front, rfl, hfront⟩ := exists_of_map_eq_concat hps
      exact isRead_lastComma (ih front hfront)
  | sequence h h' ih ih' =>
      intro ps hps
      obtain ⟨front, back, rfl, hfront, hback⟩ := List.map_eq_append_iff.1 hps
      obtain ⟨comma, more, rfl, rfl⟩ := exists_of_map_eq_cons hback
      exact isRead_sequence (ih front hfront) (h'.begins 2 rfl) (ih' more rfl)

end FormValidation.Condition
