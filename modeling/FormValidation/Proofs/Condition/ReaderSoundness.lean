import FormValidation.Proofs.Condition.Grammar

/-!
# What the reader reads

Whatever a reader takes from the front of a list of tokens is a phrase of the grammar, with the tree
that the reader gives and at a cost that is within the levels it was given.  `Reads` says so, and
there is one lemma for each reader, in the order of the readers themselves.

Chains lean to the left in the grammar and are read from the left with an accumulator.  The lemmas
for their rests (`sumRest_reads`, `productRest_reads`, `accesses_reads`) therefore start from a
derivation of what has been read already and carry it on (`Carries`); the invariant is that the
levels used up by links and the levels left make up the levels given.
-/

namespace FormValidation.Condition

/-- The tokens `ts` begin with a phrase of a cost within `left`, and `rest` is behind it. -/
def Reads (φ : Phrase) (left : Nat) (ts rest : List Placed) : Prop :=
  ∃ ps c, ts = ps ++ rest ∧ c ≤ left ∧ Derives φ (ps.map (·.token)) c

lemma exists_of_bind_eq_ok {α β : Type} {x : Except Fault α} {f : α → Except Fault β} {b : β}
    (h : x >>= f = .ok b) : ∃ a, x = .ok a ∧ f a = .ok b := by
  cases x with
  | error fault => cases h
  | ok a => exact ⟨a, rfl, h⟩

lemma eq_cons_of_expectToken {endAt : Nat} {token : Token} {expected : Expected}
    {ts rest : List Placed} (h : expectToken endAt token expected ts = .ok rest) :
    ∃ position, ts = ⟨token, position⟩ :: rest := by
  cases ts with
  | nil => cases h
  | cons t more =>
      rw [expectToken] at h
      split at h
      · rename_i htoken
        cases h
        subst htoken
        exact ⟨t.position, rfl⟩
      · cases h

/-- The tokens `ts` begin with the rest of a chain whose front is `ws`, at a cost within `left` for
the whole, and `rest` is behind it. -/
def Carries (φ : Nat → Phrase) (left : Nat) (ws : List Token) (ts rest : List Placed) : Prop :=
  ∃ links ps c, ts = ps ++ rest ∧ c ≤ left ∧ Derives (φ links) (ws ++ ps.map (·.token)) c

section

variable {φ : Nat → Phrase} {left links c : Nat} {ws : List Token} {ts rest : List Placed}

lemma Carries.stop (h : Derives (φ links) ws c) (hc : c ≤ left) : Carries φ left ws rest rest :=
  ⟨links, [], c, rfl, hc, by rwa [List.map_nil, List.append_nil]⟩

/-- What has been read of a chain may as well be counted to its front. -/
lemma Carries.front (qs : List Placed) (h : Carries φ left (ws ++ qs.map (·.token)) ts rest) :
    Carries φ left ws (qs ++ ts) rest := by
  obtain ⟨links, ps, c, rfl, hc, hderives⟩ := h
  refine ⟨links, qs ++ ps, c, (List.append_assoc qs ps rest).symm, hc, ?_⟩
  rwa [List.map_append, ← List.append_assoc]

lemma Carries.reads {qs : List Placed} (h : Carries φ left (qs.map (·.token)) ts rest) :
    ∃ links, Reads (φ links) left (qs ++ ts) rest := by
  obtain ⟨links, ps, c, rfl, hc, hderives⟩ := h
  refine ⟨links, qs ++ ps, c, (List.append_assoc qs ps rest).symm, hc, ?_⟩
  rwa [List.map_append]

end

/-! ## Chains and lists -/

lemma separated_reads (op : Connective) {left : Nat} {item : Reader Expr}
    (hitem : ∀ ts e rest, item ts = .ok (e, rest) → Reads (.operand op e) left ts rest) :
    ∀ {fuel ts es rest}, separated item (connectiveToken op) fuel ts = .ok (es, rest) →
      Reads (.operands op es) left ts rest := by
  intro fuel
  induction fuel with
  | zero =>
      intro ts es rest h
      obtain ⟨⟨e, more⟩, hread, hrest⟩ := exists_of_bind_eq_ok h
      cases hrest
      obtain ⟨ps, c, hts, hc, hderives⟩ := hitem ts e _ hread
      exact ⟨ps, c, hts, hc, .operand hderives⟩
  | succ fuel ih =>
      intro ts es rest h
      rw [separated] at h
      obtain ⟨⟨e, more⟩, hread, hrest⟩ := exists_of_bind_eq_ok h
      obtain ⟨ps, c, rfl, hc, hderives⟩ := hitem ts e _ hread
      cases more with
      | nil =>
          cases hrest
          exact ⟨ps, c, rfl, hc, .operand hderives⟩
      | cons t tail =>
          dsimp only at hrest
          split at hrest
          · rename_i hseparator
            obtain ⟨⟨es', more⟩, hmore, heq⟩ := exists_of_bind_eq_ok hrest
            cases heq
            obtain ⟨ps', c', rfl, hc', hderives'⟩ := ih hmore
            refine ⟨ps ++ t :: ps', max c c', by simp, by omega, ?_⟩
            rw [List.map_append, List.map_cons, hseparator]
            exact .operands hderives hderives'
          · cases hrest
            exact ⟨ps, c, rfl, hc, .operand hderives⟩

lemma chainOf_reads (op : Connective) {left : Nat} {item : Reader Expr} {ts rest : List Placed}
    {es : List Expr}
    (hitem : ∀ ts e rest, item ts = .ok (e, rest) → Reads (.operand op e) left ts rest)
    (h : chainOf item (connectiveToken op) ts = .ok (es, rest)) :
    Reads (.operands op es) left ts rest := separated_reads op hitem h

lemma eq_of_comparisonOperator? {ts rest : List Placed} {op : Comparison}
    (h : comparisonOperator? ts = some (op, rest)) :
    ∃ ps, ts = ps ++ rest ∧ ps.map (·.token) = comparisonTokens op := by
  unfold comparisonOperator? at h
  split at h <;> cases h <;> first | exact ⟨[_], rfl, rfl⟩ | exact ⟨[_, _], rfl, rfl⟩

lemma comparisons_reads {left : Nat} {operand : Reader Expr}
    (hoperand : ∀ ts e rest, operand ts = .ok (e, rest) → ∃ k, Reads (.sum e k) left ts rest) :
    ∀ {fuel ts more rest}, comparisons operand fuel ts = .ok (more, rest) →
      Reads (.comparisons more) left ts rest := by
  intro fuel
  induction fuel with
  | zero =>
      rintro ts more rest ⟨⟩
      exact ⟨[], 0, rfl, Nat.zero_le left, .uncompared⟩
  | succ fuel ih =>
      intro ts more rest h
      rw [comparisons] at h
      split at h
      · cases h
        exact ⟨[], 0, rfl, Nat.zero_le left, .uncompared⟩
      · rename_i op behind hop
        obtain ⟨⟨e, behind⟩, hread, h⟩ := exists_of_bind_eq_ok h
        obtain ⟨⟨more', behind'⟩, hmore, heq⟩ := exists_of_bind_eq_ok h
        cases heq
        obtain ⟨qs, rfl, hqs⟩ := eq_of_comparisonOperator? hop
        obtain ⟨k, ps, c, rfl, hc, hderives⟩ := hoperand _ e _ hread
        obtain ⟨ps', c', rfl, hc', hderives'⟩ := ih hmore
        refine ⟨qs ++ (ps ++ ps'), max c c', by simp, by omega, ?_⟩
        rw [List.map_append, List.map_append, hqs]
        exact .compared hderives hderives'

lemma itemsFrom_reads {endAt left : Nat} {item : Reader Expr} {close : Token}
    {expected : Expected}
    (hitem : ∀ ts e rest, item ts = .ok (e, rest) → Reads (.disjunction e) left ts rest) :
    ∀ {fuel ts es rest}, itemsFrom endAt item close expected fuel ts = .ok (es, rest) →
      ∃ position, Reads (.sequence es) left ts (⟨close, position⟩ :: rest) := by
  intro fuel
  induction fuel with
  | zero =>
      intro ts es rest h
      obtain ⟨⟨e, more⟩, hread, h⟩ := exists_of_bind_eq_ok h
      obtain ⟨behind, hclose, heq⟩ := exists_of_bind_eq_ok h
      cases heq
      obtain ⟨position, rfl⟩ := eq_cons_of_expectToken hclose
      obtain ⟨ps, c, hts, hc, hderives⟩ := hitem ts e _ hread
      exact ⟨position, ps, c, hts, hc, .item hderives⟩
  | succ fuel ih =>
      intro ts es rest h
      rw [itemsFrom] at h
      obtain ⟨⟨e, more⟩, hread, hrest⟩ := exists_of_bind_eq_ok h
      obtain ⟨ps, c, rfl, hc, hderives⟩ := hitem ts e _ hread
      dsimp only at hrest
      split at hrest
      · rename_i comma tail
        -- Behind the comma, either the closing token or further items follow.
        have hmore : ∀ es' behind,
            itemsFrom endAt item close expected fuel tail = .ok (es', behind) →
            ∃ position, Reads (.sequence (e :: es')) left (ps ++ ⟨.comma, comma⟩ :: tail)
              (⟨close, position⟩ :: behind) := by
          intro es' behind hread'
          obtain ⟨position, ps', c', rfl, hc', hderives'⟩ := ih hread'
          refine ⟨position, ps ++ ⟨.comma, comma⟩ :: ps', max c c', by simp, by omega, ?_⟩
          rw [List.map_append, List.map_cons]
          exact .sequence hderives hderives'
        split at hrest
        · split at hrest
          · rename_i t behind hclose
            cases hrest
            refine ⟨t.position, ps ++ [⟨.comma, comma⟩], c, ?_, hc, ?_⟩
            · rw [← hclose, List.append_assoc]
              rfl
            · rw [List.map_append]
              exact .lastComma hderives
          · obtain ⟨⟨es', behind⟩, hread', heq⟩ := exists_of_bind_eq_ok hrest
            cases heq
            exact hmore es' _ hread'
        · obtain ⟨⟨es', behind⟩, hread', heq⟩ := exists_of_bind_eq_ok hrest
          cases heq
          exact hmore es' _ hread'
      · obtain ⟨behind, hclose, heq⟩ := exists_of_bind_eq_ok hrest
        cases heq
        obtain ⟨position, rfl⟩ := eq_cons_of_expectToken hclose
        exact ⟨position, ps, c, rfl, hc, .item hderives⟩

lemma itemsUntil_reads {endAt left : Nat} {item : Reader Expr} {close : Token}
    {expected : Expected} {ts rest : List Placed} {es : List Expr}
    (hitem : ∀ ts e rest, item ts = .ok (e, rest) → Reads (.disjunction e) left ts rest)
    (h : itemsUntil endAt item close expected ts = .ok (es, rest)) :
    ∃ position, Reads (.items es) left ts (⟨close, position⟩ :: rest) := by
  have hsequence : ∀ fuel, itemsFrom endAt item close expected fuel ts = .ok (es, rest) →
      ∃ position, Reads (.items es) left ts (⟨close, position⟩ :: rest) := by
    intro fuel hread
    obtain ⟨position, ps, c, hts, hc, hderives⟩ := itemsFrom_reads hitem hread
    exact ⟨position, ps, c, hts, hc, .items hderives⟩
  cases ts with
  | nil => exact hsequence 0 h
  | cons t more =>
      rw [itemsUntil] at h
      split at h
      · rename_i hclose
        cases h
        subst hclose
        exact ⟨t.position, [], 0, rfl, Nat.zero_le left, .noItems⟩
      · exact hsequence _ h

/-! ## The literals -/

lemma literalValue?_of_literal? {t : Placed} {e : Expr} (h : literal? t = some (.ok e)) :
    ∃ v, literalValue? t.token = some v ∧ e = .literal v := by
  obtain ⟨token, position⟩ := t
  cases token with
  | int digits =>
      simp only [literal?] at h
      split at h
      · rename_i n hn
        cases h
        exact ⟨.int n, by simp [literalValue?, hn], rfl⟩
      · cases h
  | float digits =>
      simp only [literal?] at h
      split at h
      · rename_i d hd
        cases h
        exact ⟨.float d.toFloat, by simp [literalValue?, hd], rfl⟩
      · cases h
  | text | true | false | none => cases h; exact ⟨_, rfl, rfl⟩
  | _ => cases h

/-! ## The levels of the grammar -/

mutual

lemma disjunction_reads {endAt left : Nat} {ts rest : List Placed} {e : Expr}
    (h : disjunction endAt left ts = .ok (e, rest)) : Reads (.disjunction e) left ts rest := by
  rw [disjunction] at h
  obtain ⟨⟨es, behind⟩, hread, heq⟩ := exists_of_bind_eq_ok h
  cases heq
  obtain ⟨ps, c, hts, hc, hderives⟩ := chainOf_reads .or (fun _ _ _ => conjunction_reads) hread
  exact ⟨ps, c, hts, hc, .disjunction hderives⟩
termination_by 16 * left + 9

lemma conjunction_reads {endAt left : Nat} {ts rest : List Placed} {e : Expr}
    (h : conjunction endAt left ts = .ok (e, rest)) : Reads (.conjunction e) left ts rest := by
  rw [conjunction] at h
  obtain ⟨⟨es, behind⟩, hread, heq⟩ := exists_of_bind_eq_ok h
  cases heq
  obtain ⟨ps, c, hts, hc, hderives⟩ := chainOf_reads .and (fun _ _ _ => negation_reads) hread
  exact ⟨ps, c, hts, hc, .conjunction hderives⟩
termination_by 16 * left + 8

lemma negation_reads {endAt left : Nat} {ts rest : List Placed} {e : Expr}
    (h : negation endAt left ts = .ok (e, rest)) : Reads (.negation e) left ts rest := by
  unfold negation at h
  split at h
  · rename_i position more
    cases left with
    | zero => cases h
    | succ left =>
        obtain ⟨⟨operand, behind⟩, hread, heq⟩ := exists_of_bind_eq_ok h
        cases heq
        obtain ⟨ps, c, rfl, hc, hderives⟩ := negation_reads hread
        exact ⟨⟨.not, position⟩ :: ps, c + 1, rfl, by omega, .not hderives⟩
  · obtain ⟨ps, c, hts, hc, hderives⟩ := comparison_reads h
    exact ⟨ps, c, hts, hc, .affirmed hderives⟩
termination_by 16 * left + 7

lemma comparison_reads {endAt left : Nat} {ts rest : List Placed} {e : Expr}
    (h : comparison endAt left ts = .ok (e, rest)) : Reads (.comparison e) left ts rest := by
  rw [comparison] at h
  obtain ⟨⟨first, behind⟩, hfirst, h⟩ := exists_of_bind_eq_ok h
  obtain ⟨⟨more, behind'⟩, hmore, heq⟩ := exists_of_bind_eq_ok h
  cases heq
  obtain ⟨k, ps, c, rfl, hc, hderives⟩ := sum_reads hfirst
  obtain ⟨ps', c', rfl, hc', hderives'⟩ := comparisons_reads (fun _ _ _ => sum_reads) hmore
  refine ⟨ps ++ ps', max c c', by simp, by omega, ?_⟩
  rw [List.map_append]
  exact .comparison hderives hderives'
termination_by 16 * left + 6

lemma sum_reads {endAt left : Nat} {ts rest : List Placed} {e : Expr}
    (h : sum endAt left ts = .ok (e, rest)) : ∃ k, Reads (.sum e k) left ts rest := by
  rw [sum] at h
  obtain ⟨⟨first, behind⟩, hfirst, hrest⟩ := exists_of_bind_eq_ok h
  obtain ⟨k, ps, c, rfl, hc, hderives⟩ := product_reads hfirst
  exact (sumRest_reads hderives.summand hc hrest).reads
termination_by 16 * left + 5

/-- Carries on the derivation of a sum that has been read so far. -/
lemma sumRest_reads {endAt left k c : Nat} {first e : Expr} {ws : List Token}
    {ts rest : List Placed} (hfirst : Derives (.sum first k) ws c) (hc : c ≤ left + k)
    (h : sumRest endAt left first ts = .ok (e, rest)) : Carries (.sum e) (left + k) ws ts rest := by
  unfold sumRest at h
  split at h
  · cases h
    exact .stop hfirst hc
  · rename_i t more
    split at h
    · cases h
      exact .stop hfirst hc
    · rename_i op hop
      cases left with
      | zero => cases h
      | succ left =>
          obtain ⟨⟨second, behind⟩, hsecond, hrest⟩ := exists_of_bind_eq_ok h
          obtain ⟨k', ps, c', rfl, hc', hderives⟩ := product_reads hsecond
          have hmore := sumRest_reads (hfirst.sum hop hderives) (by omega) hrest
          rw [Nat.add_right_comm left 1 k, Nat.add_assoc left k 1]
          exact Carries.front (t :: ps) hmore
termination_by 16 * left + 4

lemma product_reads {endAt left : Nat} {ts rest : List Placed} {e : Expr}
    (h : product endAt left ts = .ok (e, rest)) : ∃ k, Reads (.product e k) left ts rest := by
  rw [product] at h
  obtain ⟨⟨first, behind⟩, hfirst, hrest⟩ := exists_of_bind_eq_ok h
  obtain ⟨ps, c, rfl, hc, hderives⟩ := signed_reads hfirst
  exact (productRest_reads hderives.factor hc hrest).reads
termination_by 16 * left + 3

/-- Carries on the derivation of a product that has been read so far. -/
lemma productRest_reads {endAt left k c : Nat} {first e : Expr} {ws : List Token}
    {ts rest : List Placed} (hfirst : Derives (.product first k) ws c) (hc : c ≤ left + k)
    (h : productRest endAt left first ts = .ok (e, rest)) :
    Carries (.product e) (left + k) ws ts rest := by
  unfold productRest at h
  split at h
  · cases h
    exact .stop hfirst hc
  · rename_i t more
    split at h
    · cases h
      exact .stop hfirst hc
    · rename_i op hop
      cases left with
      | zero => cases h
      | succ left =>
          obtain ⟨⟨second, behind⟩, hsecond, hrest⟩ := exists_of_bind_eq_ok h
          obtain ⟨ps, c', rfl, hc', hderives⟩ := signed_reads hsecond
          have hmore := productRest_reads (hfirst.product hop hderives) (by omega) hrest
          rw [Nat.add_right_comm left 1 k, Nat.add_assoc left k 1]
          exact Carries.front (t :: ps) hmore
termination_by 16 * left + 2

lemma signed_reads {endAt left : Nat} {ts rest : List Placed} {e : Expr}
    (h : signed endAt left ts = .ok (e, rest)) : Reads (.signed e) left ts rest := by
  unfold signed at h
  split at h
  · rename_i position more
    cases left with
    | zero => cases h
    | succ left =>
        obtain ⟨⟨operand, behind⟩, hread, heq⟩ := exists_of_bind_eq_ok h
        cases heq
        obtain ⟨ps, c, rfl, hc, hderives⟩ := signed_reads hread
        exact ⟨⟨.minus, position⟩ :: ps, c + 1, rfl, by omega, .minus hderives⟩
  · rename_i position more
    cases left with
    | zero => cases h
    | succ left =>
        obtain ⟨ps, c, rfl, hc, hderives⟩ := signed_reads h
        exact ⟨⟨.plus, position⟩ :: ps, c + 1, rfl, by omega, .plus hderives⟩
  · obtain ⟨⟨target, behind⟩, htarget, hrest⟩ := exists_of_bind_eq_ok h
    obtain ⟨ps, c, rfl, hc, hderives⟩ := primary_reads htarget
    obtain ⟨k, ps', c', hts, hc', hderives'⟩ := (accesses_reads hderives.target hc hrest).reads
    exact ⟨ps', c', hts, hc', .unsigned hderives'⟩
termination_by 16 * left + 2

/-- Carries on the derivation of an operand with the accesses that have been read so far. -/
lemma accesses_reads {endAt left k c : Nat} {target e : Expr} {ws : List Token}
    {ts rest : List Placed} (htarget : Derives (.access target k) ws c) (hc : c ≤ left + k)
    (h : accesses endAt left target ts = .ok (e, rest)) :
    Carries (.access e) (left + k) ws ts rest := by
  unfold accesses at h
  split at h
  · rename_i position more
    split at h
    · cases h
    · cases h
    · rename_i left
      obtain ⟨⟨index, behind⟩, hindex, h⟩ := exists_of_bind_eq_ok h
      obtain ⟨behind', hclose, hrest⟩ := exists_of_bind_eq_ok h
      obtain ⟨close, rfl⟩ := eq_cons_of_expectToken hclose
      obtain ⟨ps, c', rfl, hc', hderives⟩ := disjunction_reads hindex
      obtain ⟨k', ps', c'', rfl, hc'', hderives'⟩ :=
        accesses_reads (htarget.subscript hderives) (by omega) hrest
      refine ⟨k', ⟨.openBracket, position⟩ :: (ps ++ ⟨.closeBracket, close⟩ :: ps'), c'', by simp,
        by omega, ?_⟩
      simpa using hderives'
  · rename_i position more
    cases left with
    | zero => cases h
    | succ left =>
        dsimp only at h
        split at h
        · rename_i name nameAt parenAt more
          cases left with
          | zero => cases h
          | succ left =>
              obtain ⟨⟨es, behind⟩, hitems, hrest⟩ := exists_of_bind_eq_ok h
              obtain ⟨close, ps, c', rfl, hc', hderives⟩ :=
                itemsUntil_reads (fun _ _ _ => disjunction_reads) hitems
              obtain ⟨k', ps', c'', rfl, hc'', hderives'⟩ :=
                accesses_reads (htarget.method hderives) (by omega) hrest
              refine ⟨k', ⟨.dot, position⟩ :: ⟨.ident name, nameAt⟩ :: ⟨.openParen, parenAt⟩ ::
                (ps ++ ⟨.closeParen, close⟩ :: ps'), c'', by simp, by omega, ?_⟩
              simpa using hderives'
        · rename_i name nameAt more _
          obtain ⟨k', ps, c', rfl, hc', hderives⟩ :=
            accesses_reads htarget.member (by omega) h
          refine ⟨k', ⟨.dot, position⟩ :: ⟨.ident name, nameAt⟩ :: ps, c', rfl, by omega, ?_⟩
          simpa using hderives
        · cases h
  · cases h
    exact ⟨k, [], c, rfl, hc, by simpa using htarget⟩
termination_by 16 * left + 1

lemma primary_reads {endAt left : Nat} {ts rest : List Placed} {e : Expr}
    (h : primary endAt left ts = .ok (e, rest)) : Reads (.primary e) left ts rest := by
  unfold primary at h
  split at h
  · rename_i name nameAt parenAt more
    cases left with
    | zero => cases h
    | succ left =>
        obtain ⟨⟨es, behind⟩, hitems, heq⟩ := exists_of_bind_eq_ok h
        cases heq
        obtain ⟨close, ps, c, rfl, hc, hderives⟩ :=
          itemsUntil_reads (fun _ _ _ => disjunction_reads) hitems
        refine ⟨⟨.ident name, nameAt⟩ :: ⟨.openParen, parenAt⟩ :: (ps ++ [⟨.closeParen, close⟩]),
          c + 1, by simp, by omega, ?_⟩
        simpa using Derives.call hderives
  · rename_i name nameAt more _
    cases h
    exact ⟨[⟨.ident name, nameAt⟩], 0, rfl, Nat.zero_le left, .name⟩
  · rename_i position more
    cases left with
    | zero => cases h
    | succ left =>
        obtain ⟨⟨inner, behind⟩, hread, h⟩ := exists_of_bind_eq_ok h
        obtain ⟨behind', hclose, heq⟩ := exists_of_bind_eq_ok h
        cases heq
        obtain ⟨close, rfl⟩ := eq_cons_of_expectToken hclose
        obtain ⟨ps, c, rfl, hc, hderives⟩ := disjunction_reads hread
        refine ⟨⟨.openParen, position⟩ :: (ps ++ [⟨.closeParen, close⟩]), c + 1, by simp,
          by omega, ?_⟩
        simpa using Derives.group hderives
  · rename_i position more
    cases left with
    | zero => cases h
    | succ left =>
        obtain ⟨⟨es, behind⟩, hitems, heq⟩ := exists_of_bind_eq_ok h
        cases heq
        obtain ⟨close, ps, c, rfl, hc, hderives⟩ :=
          itemsUntil_reads (fun _ _ _ => disjunction_reads) hitems
        refine ⟨⟨.openBracket, position⟩ :: (ps ++ [⟨.closeBracket, close⟩]), c + 1, by simp,
          by omega, ?_⟩
        simpa using Derives.list hderives
  · rename_i t more _ _ _ _
    split at h
    · rename_i result hliteral
      cases result with
      | error fault => cases h
      | ok literal =>
          cases h
          obtain ⟨v, hv, rfl⟩ := literalValue?_of_literal? hliteral
          exact ⟨[t], 0, rfl, Nat.zero_le left, .literal hv⟩
    · cases h
  · cases h
termination_by 16 * left

end

end FormValidation.Condition
