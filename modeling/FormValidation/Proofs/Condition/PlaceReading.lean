import FormValidation.Proofs.Condition.OffsetReading

/-!
# Conditions by places and by lists

Reading a condition from an array of places gives what the readers of lists give.  The invariant is
that the number of the next place is at most the number of the end, so that there always is a place
to look at (`exists_sees`); while it holds, the tokens left to a reader of lists are those from the
next place on.  `Follows` relates the outcomes of a reader and of a walker, and also says of a fault
where it is; there is one lemma for each reader.
-/

namespace FormValidation.Condition

section

variable (endAt : Nat) (ts : List Placed)

/-- A fault of reading tokens, which points to one of them or to the end if to anything. -/
def Located (fault : Fault) : Prop :=
  fault.isParseFault = true ∧
    ∀ p, fault.position? = some p → p = endAt ∨ ∃ t ∈ ts, t.position = p

/-- The outcomes of reading from a list and from places agree. -/
inductive Follows {α : Type} : Except Fault (α × List Placed) → Except Halt (α × Nat) → Prop where
  | fault {fault : Fault} (h : Located endAt ts fault) :
      Follows (.error fault) (.error (.fault fault))
  | read (a : α) {index : Nat} (h : index ≤ ts.length) :
      Follows (.ok (a, ts.drop index)) (.ok (a, index))

/-- What is left and the next place, at a number: nothing and the end, or a token and its place. -/
inductive Sees (index : Nat) : List Placed → Place → Prop where
  | ending : Sees index [] ⟨none, endAt⟩
  | token {t : Placed} (ht : t ∈ ts) (hindex : index + 1 ≤ ts.length)
      (hadvance : Walk.advance (placesOf endAt ts) index = index + 1) :
      Sees index (t :: ts.drop (index + 1)) t.place

end

section

variable {endAt : Nat} {ts : List Placed} {index : Nat}

lemma place_token_iff {t : Placed} {token : Token} :
    t.place.token = some token ↔ t.token = token := Option.some_inj

lemma size_placesOf (endAt : Nat) (ts : List Placed) :
    (placesOf endAt ts).size = ts.length + 1 := by
  simp [placesOf]

lemma remaining_placesOf (endAt : Nat) (ts : List Placed) (index : Nat) :
    Walk.remaining (placesOf endAt ts) index = (ts.drop index).length := by
  rw [Walk.remaining, size_placesOf, List.length_drop, Nat.add_sub_cancel]

/-- **There is a place to look at**, up to the end. -/
lemma exists_sees (endAt : Nat) (h : index ≤ ts.length) :
    ∃ place, (placesOf endAt ts)[index]? = some place ∧
      Walk.current (placesOf endAt ts) index = .ok place ∧
      Sees endAt ts index (ts.drop index) place := by
  have hcurrent : ∀ {place : Place}, (placesOf endAt ts)[index]? = some place →
      Walk.current (placesOf endAt ts) index = .ok place := by
    intro place hplace
    rw [Walk.current, hplace]
  rcases Nat.eq_or_lt_of_le h with rfl | hlt
  · have hplace : (placesOf endAt ts)[ts.length]? = some ⟨none, endAt⟩ := by simp [placesOf]
    refine ⟨_, hplace, hcurrent hplace, ?_⟩
    rw [List.drop_length]
    exact .ending
  · have hplace : (placesOf endAt ts)[index]? = some ts[index].place := by
      rw [placesOf, List.getElem?_toArray, List.getElem?_append_left (by simpa using hlt)]
      simp [hlt]
    refine ⟨_, hplace, hcurrent hplace, ?_⟩
    rw [List.drop_eq_getElem_cons hlt]
    refine .token (List.getElem_mem hlt) hlt ?_
    rw [Walk.advance, size_placesOf, Nat.add_sub_cancel, if_pos hlt]

lemma ok_bind {ε α β : Type} (a : α) (f : α → Except ε β) : (.ok a >>= f) = f a := rfl

section

variable {rest : List Placed} {place : Place}

lemma Sees.located (h : Sees endAt ts index rest place) {fault : Fault}
    (hclass : fault.isParseFault = true) (hposition : fault.position? = some place.position) :
    Located endAt ts fault := by
  refine ⟨hclass, fun p hp => ?_⟩
  cases hposition.symm.trans hp
  cases h with
  | ending => exact .inl rfl
  | token ht => exact .inr ⟨_, ht, rfl⟩

lemma Sees.unexpected_eq (h : Sees endAt ts index rest place) (expected : Expected) :
    unexpected endAt expected rest = place.unexpected expected := by
  cases h <;> rfl

end

lemma Follows.bind {α β : Type} {r : Except Fault (α × List Placed)} {w : Except Halt (α × Nat)}
    {k : α × List Placed → Except Fault (β × List Placed)}
    {k' : α × Nat → Except Halt (β × Nat)} (h : Follows endAt ts r w)
    (hk : ∀ a i, i ≤ ts.length → Follows endAt ts (k (a, ts.drop i)) (k' (a, i))) :
    Follows endAt ts (r >>= k) (w >>= k') := by
  cases h with
  | fault h => exact .fault h
  | read a h => exact hk a _ h

lemma Follows.ite {α : Type} {p q : Prop} [Decidable p] [Decidable q]
    {r r' : Except Fault (α × List Placed)} {w w' : Except Halt (α × Nat)} (hpq : q ↔ p)
    (hpos : p → Follows endAt ts r w) (hneg : ¬p → Follows endAt ts r' w') :
    Follows endAt ts (if p then r else r') (if q then w else w') := by
  by_cases h : p
  · rw [if_pos h, if_pos (hpq.2 h)]
    exact hpos h
  · rw [if_neg h, if_neg (hpq.not.2 h)]
    exact hneg h

/-- Passing over a token, and what comes of going on behind it. -/
lemma Follows.expect {β : Type} {k : List Placed → Except Fault (β × List Placed)}
    {k' : Nat → Except Halt (β × Nat)} (token : Token) (expected : Expected)
    (h : index ≤ ts.length)
    (hk : ∀ i, i ≤ ts.length → Follows endAt ts (k (ts.drop i)) (k' i)) :
    Follows endAt ts (expectToken endAt token expected (ts.drop index) >>= k)
      (Walk.expect (placesOf endAt ts) token expected index >>= k') := by
  obtain ⟨place, -, hcurrent, hsees⟩ := exists_sees endAt h
  have hfault : Located endAt ts (place.unexpected expected) := hsees.located rfl rfl
  rw [← hsees.unexpected_eq] at hfault
  rw [Walk.expect, hcurrent, ok_bind, ← hsees.unexpected_eq]
  generalize ts.drop index = rest at hsees hfault ⊢
  cases hsees with
  | ending => exact .fault hfault
  | @token t ht hindex hadvance =>
    by_cases htoken : t.token = token
    · rw [expectToken, if_pos htoken, if_pos (place_token_iff.2 htoken), hadvance]
      exact hk _ hindex
    · rw [expectToken, if_neg htoken, if_neg (place_token_iff.not.2 htoken)]
      exact .fault hfault

/-! ## Chains and lists -/

section

variable {α : Type} {item : Reader α} {walk : Walker α}
  (hitem : ∀ i, i ≤ ts.length → Follows endAt ts (item (ts.drop i)) (walk i))
include hitem

lemma separated_follows (separator : Token) (fuel : Nat) (h : index ≤ ts.length) :
    Follows endAt ts (separated item separator fuel (ts.drop index))
      (Walk.separated (placesOf endAt ts) walk separator fuel index) := by
  induction fuel generalizing index with
  | zero => exact (hitem index h).bind fun a i hi => .read [a] hi
  | succ fuel ih =>
    refine (hitem index h).bind fun a i hi => ?_
    obtain ⟨place, -, hcurrent, hsees⟩ := exists_sees endAt hi
    have hstop : Follows endAt ts (.ok ([a], ts.drop i)) (.ok ([a], i)) := .read [a] hi
    dsimp only
    rw [hcurrent, ok_bind]
    generalize ts.drop i = rest at hsees hstop ⊢
    cases hsees with
    | ending => exact hstop
    | @token t ht hindex hadvance =>
      rw [hadvance]
      exact .ite place_token_iff
        (fun _ => (ih hindex).bind fun as j hj => .read (a :: as) hj) fun _ => hstop

lemma chainOf_follows (separator : Token) (h : index ≤ ts.length) :
    Follows endAt ts (chainOf item separator (ts.drop index))
      (Walk.chainOf (placesOf endAt ts) walk separator index) := by
  rw [chainOf, Walk.chainOf, remaining_placesOf]
  exact separated_follows hitem separator _ h

lemma itemsFrom_follows (close : Token) (expected : Expected) (fuel : Nat)
    (h : index ≤ ts.length) :
    Follows endAt ts (itemsFrom endAt item close expected fuel (ts.drop index))
      (Walk.itemsFrom (placesOf endAt ts) walk close expected fuel index) := by
  induction fuel generalizing index with
  | zero =>
    exact (hitem index h).bind fun a i hi => .expect close expected hi fun j hj => .read [a] hj
  | succ fuel ih =>
    refine (hitem index h).bind fun a i hi => ?_
    obtain ⟨place, -, hcurrent, hsees⟩ := exists_sees endAt hi
    have hclose : Follows endAt ts
        (expectToken endAt close expected (ts.drop i) >>= fun rest => .ok ([a], rest))
        (Walk.expect (placesOf endAt ts) close expected i >>= fun j => .ok ([a], j)) :=
      .expect close expected hi fun j hj => .read [a] hj
    dsimp only
    rw [hcurrent, ok_bind]
    generalize ts.drop i = rest at hsees hclose ⊢
    cases hsees with
    | ending => exact hclose
    | @token t ht hindex hadvance =>
      obtain ⟨token, position⟩ := t
      rw [hadvance]
      split
      · rename_i position tail heq
        cases heq
        rw [if_pos (place_token_iff.2 rfl)]
        obtain ⟨next, -, hnext, hsees⟩ := exists_sees endAt hindex
        have hmore := ih hindex
        rw [hnext, ok_bind]
        generalize ts.drop (i + 1) = rest at hsees hmore ⊢
        cases hsees with
        | ending => exact hmore.bind fun as j hj => .read (a :: as) hj
        | @token t ht hindex hadvance =>
          rw [hadvance]
          exact .ite place_token_iff (fun _ => .read [a] hindex)
            fun _ => hmore.bind fun as j hj => .read (a :: as) hj
      · rename_i hcomma
        rw [if_neg (place_token_iff.not.2 fun htoken => ?_)]
        · exact hclose
        · cases htoken
          exact hcomma _ _ rfl

lemma itemsUntil_follows (close : Token) (expected : Expected) (h : index ≤ ts.length) :
    Follows endAt ts (itemsUntil endAt item close expected (ts.drop index))
      (Walk.itemsUntil (placesOf endAt ts) walk close expected index) := by
  obtain ⟨place, -, hcurrent, hsees⟩ := exists_sees endAt h
  have hitems := itemsFrom_follows hitem close expected (ts.drop index).length h
  rw [Walk.itemsUntil, hcurrent, ok_bind, remaining_placesOf]
  generalize ts.drop index = rest at hsees hitems ⊢
  cases hsees with
  | ending => exact hitems
  | @token t ht hindex hadvance =>
    rw [hadvance]
    exact .ite place_token_iff (fun _ => .read [] hindex) fun _ => hitems

end

/-! ## Operators -/

lemma comparisonOperator?_eq (endAt : Nat) (h : index ≤ ts.length) :
    match comparisonOperator? (ts.drop index) with
    | none => Walk.comparisonOperator? (placesOf endAt ts) index = .ok none
    | some (op, rest) => ∃ i ≤ ts.length, rest = ts.drop i ∧
        Walk.comparisonOperator? (placesOf endAt ts) index = .ok (some (op, i)) := by
  obtain ⟨place, hplace, hcurrent, hsees⟩ := exists_sees endAt h
  rw [Walk.comparisonOperator?, hcurrent, ok_bind]
  generalize ts.drop index = rest at hsees ⊢
  cases hsees with
  | ending => rfl
  | @token t ht hindex hadvance =>
    obtain ⟨token, position⟩ := t
    obtain ⟨next, hnext, hcurrent', hsees⟩ := exists_sees endAt hindex
    rw [hadvance]
    cases token with
    | not =>
      have hat : Walk.isAt (placesOf endAt ts) .isIn (index + 1) =
          decide (next.token = some .isIn) := by
        rw [Walk.isAt, hnext, Option.any_some]
      dsimp only [Placed.place]
      rw [hat]
      generalize ts.drop (index + 1) = rest at hsees ⊢
      cases hsees with
      | ending => rfl
      | @token t ht hindex hadvance =>
        obtain ⟨token, position⟩ := t
        rw [hadvance]
        cases token with
        | isIn => exact ⟨_, hindex, rfl, rfl⟩
        | _ => rfl
    | same =>
      dsimp only [Placed.place]
      rw [hcurrent', ok_bind]
      generalize hrest : ts.drop (index + 1) = rest at hsees ⊢
      cases hsees with
      | ending => exact ⟨_, hindex, hrest.symm, rfl⟩
      | @token t ht hindex' hadvance =>
        obtain ⟨token, position⟩ := t
        rw [hadvance]
        cases token with
        | not => exact ⟨_, hindex', rfl, rfl⟩
        | _ => exact ⟨_, hindex, hrest.symm, rfl⟩
    | eq | notEq | lt | le | gt | ge | isIn => exact ⟨_, hindex, rfl, rfl⟩
    | _ => rfl

lemma comparisons_follows {operand : Reader Expr} {walk : Walker Expr}
    (hoperand : ∀ i, i ≤ ts.length → Follows endAt ts (operand (ts.drop i)) (walk i))
    (fuel : Nat) (h : index ≤ ts.length) :
    Follows endAt ts (comparisons operand fuel (ts.drop index))
      (Walk.comparisons (placesOf endAt ts) walk fuel index) := by
  induction fuel generalizing index with
  | zero => exact .read [] h
  | succ fuel ih =>
    have hoperator := comparisonOperator?_eq endAt h
    rw [comparisons, Walk.comparisons]
    cases hop : comparisonOperator? (ts.drop index) with
    | none =>
      rw [hop] at hoperator
      rw [hoperator, ok_bind]
      exact .read [] h
    | some found =>
      obtain ⟨op, rest⟩ := found
      rw [hop] at hoperator
      obtain ⟨i, hi, rfl, hwalk⟩ := hoperator
      rw [hwalk, ok_bind]
      refine (hoperand i hi).bind fun e j hj => ?_
      exact (ih hj).bind fun more k hk => .read ((op, e) :: more) hk

/-! ## The levels of the grammar -/

mutual

/-- **A condition** is read from places as it is from a list. -/
lemma disjunction_follows (left index : Nat) (h : index ≤ ts.length) :
    Follows endAt ts (disjunction endAt left (ts.drop index))
      (Walk.disjunction (placesOf endAt ts) left index) := by
  rw [disjunction, Walk.disjunction]
  refine .bind (chainOf_follows ?_ .or h) fun operands i hi => .read (ofChain .or operands) hi
  exact fun i hi => conjunction_follows left i hi
termination_by 16 * left + 9

lemma conjunction_follows (left index : Nat) (h : index ≤ ts.length) :
    Follows endAt ts (conjunction endAt left (ts.drop index))
      (Walk.conjunction (placesOf endAt ts) left index) := by
  rw [conjunction, Walk.conjunction]
  refine .bind (chainOf_follows ?_ .and h) fun operands i hi => .read (ofChain .and operands) hi
  exact fun i hi => negation_follows left i hi
termination_by 16 * left + 8

lemma negation_follows (left index : Nat) (h : index ≤ ts.length) :
    Follows endAt ts (negation endAt left (ts.drop index))
      (Walk.negation (placesOf endAt ts) left index) := by
  have hplain := comparison_follows left index h
  obtain ⟨place, -, hcurrent, hsees⟩ := exists_sees endAt h
  have hdeep : Located endAt ts (.tooDeep place.position) := hsees.located rfl rfl
  unfold negation Walk.negation
  rw [hcurrent, ok_bind]
  generalize ts.drop index = rest at hsees hplain ⊢
  cases hsees with
  | ending => exact hplain
  | @token t ht hindex hadvance =>
    obtain ⟨token, position⟩ := t
    rw [hadvance]
    split
    · rename_i heq
      cases heq
      rw [if_pos (place_token_iff.2 rfl)]
      cases left with
      | zero => exact .fault hdeep
      | succ left =>
        exact (negation_follows left _ hindex).bind fun e i hi => .read (Expr.not e) hi
    · rename_i hother
      rw [if_neg (place_token_iff.not.2 fun htoken => hother _ _ (by rw [← htoken]))]
      exact hplain
termination_by 16 * left + 7

lemma comparison_follows (left index : Nat) (h : index ≤ ts.length) :
    Follows endAt ts (comparison endAt left (ts.drop index))
      (Walk.comparison (placesOf endAt ts) left index) := by
  rw [comparison, Walk.comparison]
  refine (sum_follows left index h).bind fun first i hi => ?_
  dsimp only
  rw [remaining_placesOf]
  refine .bind (comparisons_follows ?_ _ hi) fun more j hj => .read _ hj
  exact fun k hk => sum_follows left k hk
termination_by 16 * left + 6

lemma sum_follows (left index : Nat) (h : index ≤ ts.length) :
    Follows endAt ts (sum endAt left (ts.drop index))
      (Walk.sum (placesOf endAt ts) left index) := by
  rw [sum, Walk.sum]
  exact (product_follows left index h).bind fun first i hi => sumRest_follows left first i hi
termination_by 16 * left + 5

lemma sumRest_follows (left : Nat) (first : Expr) (index : Nat) (h : index ≤ ts.length) :
    Follows endAt ts (sumRest endAt left first (ts.drop index))
      (Walk.sumRest (placesOf endAt ts) left first index) := by
  have hstop : Follows endAt ts (.ok (first, ts.drop index)) (.ok (first, index)) := .read first h
  obtain ⟨place, -, hcurrent, hsees⟩ := exists_sees endAt h
  have hdeep : Located endAt ts (.tooDeep place.position) := hsees.located rfl rfl
  unfold sumRest Walk.sumRest
  rw [hcurrent, ok_bind]
  generalize ts.drop index = rest at hsees hstop ⊢
  cases hsees with
  | ending => exact hstop
  | @token t ht hindex hadvance =>
    obtain ⟨token, position⟩ := t
    rw [hadvance]
    dsimp only [Placed.place, Option.bind_some]
    cases additive? token with
    | none => exact hstop
    | some op =>
      cases left with
      | zero => exact .fault hdeep
      | succ left =>
        exact (product_follows left _ hindex).bind fun second i hi => sumRest_follows left _ i hi
termination_by 16 * left + 4

lemma product_follows (left index : Nat) (h : index ≤ ts.length) :
    Follows endAt ts (product endAt left (ts.drop index))
      (Walk.product (placesOf endAt ts) left index) := by
  rw [product, Walk.product]
  exact (signed_follows left index h).bind fun first i hi => productRest_follows left first i hi
termination_by 16 * left + 3

lemma productRest_follows (left : Nat) (first : Expr) (index : Nat) (h : index ≤ ts.length) :
    Follows endAt ts (productRest endAt left first (ts.drop index))
      (Walk.productRest (placesOf endAt ts) left first index) := by
  have hstop : Follows endAt ts (.ok (first, ts.drop index)) (.ok (first, index)) := .read first h
  obtain ⟨place, -, hcurrent, hsees⟩ := exists_sees endAt h
  have hdeep : Located endAt ts (.tooDeep place.position) := hsees.located rfl rfl
  unfold productRest Walk.productRest
  rw [hcurrent, ok_bind]
  generalize ts.drop index = rest at hsees hstop ⊢
  cases hsees with
  | ending => exact hstop
  | @token t ht hindex hadvance =>
    obtain ⟨token, position⟩ := t
    rw [hadvance]
    dsimp only [Placed.place, Option.bind_some]
    cases multiplicative? token with
    | none => exact hstop
    | some op =>
      cases left with
      | zero => exact .fault hdeep
      | succ left =>
        exact (signed_follows left _ hindex).bind
          fun second i hi => productRest_follows left _ i hi
termination_by 16 * left + 2

lemma signed_follows (left index : Nat) (h : index ≤ ts.length) :
    Follows endAt ts (signed endAt left (ts.drop index))
      (Walk.signed (placesOf endAt ts) left index) := by
  have hplain : Follows endAt ts
      (do
        let (target, rest) ← primary endAt left (ts.drop index)
        accesses endAt left target rest)
      (do
        let (target, i) ← Walk.primary (placesOf endAt ts) left index
        Walk.accesses (placesOf endAt ts) left target i) :=
    (primary_follows left index h).bind fun target i hi => accesses_follows left target i hi
  obtain ⟨place, -, hcurrent, hsees⟩ := exists_sees endAt h
  have hdeep : Located endAt ts (.tooDeep place.position) := hsees.located rfl rfl
  unfold signed Walk.signed
  rw [hcurrent, ok_bind]
  generalize ts.drop index = rest at hsees hplain ⊢
  cases hsees with
  | ending => exact hplain
  | @token t ht hindex hadvance =>
    obtain ⟨token, position⟩ := t
    rw [hadvance]
    split
    · rename_i heq
      cases heq
      rw [if_pos (place_token_iff.2 rfl)]
      cases left with
      | zero => exact .fault hdeep
      | succ left => exact (signed_follows left _ hindex).bind fun e i hi => .read (Expr.neg e) hi
    · rename_i heq
      cases heq
      rw [if_neg (place_token_iff.not.2 fun heq => by cases heq), if_pos (place_token_iff.2 rfl)]
      cases left with
      | zero => exact .fault hdeep
      | succ left => exact signed_follows left _ hindex
    · rename_i hminus hplus
      rw [if_neg (place_token_iff.not.2 fun htoken => hminus _ _ (by rw [← htoken])),
        if_neg (place_token_iff.not.2 fun htoken => hplus _ _ (by rw [← htoken]))]
      exact hplain
termination_by 16 * left + 2

lemma accesses_follows (left : Nat) (target : Expr) (index : Nat) (h : index ≤ ts.length) :
    Follows endAt ts (accesses endAt left target (ts.drop index))
      (Walk.accesses (placesOf endAt ts) left target index) := by
  have hstop : Follows endAt ts (.ok (target, ts.drop index)) (.ok (target, index)) :=
    .read target h
  obtain ⟨place, -, hcurrent, hsees⟩ := exists_sees endAt h
  have hdeep : Located endAt ts (.tooDeep place.position) := hsees.located rfl rfl
  unfold accesses Walk.accesses
  rw [hcurrent, ok_bind]
  generalize ts.drop index = rest at hsees hstop ⊢
  cases hsees with
  | ending => exact hstop
  | @token t ht hindex hadvance =>
    obtain ⟨token, position⟩ := t
    rw [hadvance]
    split
    · rename_i heq
      cases heq
      rw [if_pos (place_token_iff.2 rfl)]
      split
      · exact .fault hdeep
      · exact .fault hdeep
      · rename_i left
        refine (disjunction_follows left _ hindex).bind fun inner i hi => ?_
        exact .expect .closeBracket .closeIndex hi
          fun j hj => accesses_follows (left + 1) (.subscript target inner) j hj
    · rename_i heq
      cases heq
      rw [if_neg (place_token_iff.not.2 fun heq => by cases heq), if_pos (place_token_iff.2 rfl)]
      cases left with
      | zero => exact .fault hdeep
      | succ left =>
        obtain ⟨next, -, hnext, hsees⟩ := exists_sees endAt hindex
        have hname : Located endAt ts (unexpected endAt .memberName (ts.drop (index + 1))) := by
          rw [hsees.unexpected_eq]
          exact hsees.located rfl rfl
        rw [Walk.expectName, hnext, ok_bind, ← hsees.unexpected_eq]
        dsimp only
        generalize ts.drop (index + 1) = rest at hsees hname ⊢
        cases hsees with
        | ending => exact .fault hname
        | @token t ht hindex hadvance =>
          obtain ⟨token, position'⟩ := t
          cases token with
          | ident name =>
            have hmember := accesses_follows left (.member target name) _ hindex
            obtain ⟨next, -, hnext, hsees⟩ := exists_sees endAt hindex
            dsimp only [Placed.place]
            rw [hadvance, ok_bind]
            dsimp only
            rw [hnext, ok_bind]
            generalize ts.drop (index + 1 + 1) = rest at hsees hmember ⊢
            cases hsees with
            | ending => exact hmember
            | @token t ht hindex hadvance =>
              obtain ⟨token, position'⟩ := t
              rw [hadvance]
              cases token with
              | openParen =>
                cases left with
                | zero => exact .fault hdeep
                | succ left =>
                  refine .bind (itemsUntil_follows ?_ .closeParen .closeArguments hindex)
                    fun arguments i hi =>
                      accesses_follows (left + 1) (.method target name arguments) i hi
                  exact fun i hi => disjunction_follows left i hi
              | _ => exact hmember
          | _ => exact .fault hname
    · rename_i hbracket hdot
      rw [if_neg (place_token_iff.not.2 fun htoken => hbracket _ _ (by rw [← htoken])),
        if_neg (place_token_iff.not.2 fun htoken => hdot _ _ (by rw [← htoken]))]
      exact hstop
termination_by 16 * left + 1

lemma primary_follows (left index : Nat) (h : index ≤ ts.length) :
    Follows endAt ts (primary endAt left (ts.drop index))
      (Walk.primary (placesOf endAt ts) left index) := by
  obtain ⟨place, -, hcurrent, hsees⟩ := exists_sees endAt h
  have hdeep : Located endAt ts (.tooDeep place.position) := hsees.located rfl rfl
  have hoperand : Located endAt ts (unexpected endAt .operand (ts.drop index)) := by
    rw [hsees.unexpected_eq]
    exact hsees.located rfl rfl
  have hinvalid : ∀ digits, Located endAt ts (.invalidNumber digits place.position) :=
    fun _ => hsees.located rfl rfl
  unfold primary Walk.primary
  rw [hcurrent, ok_bind, ← hsees.unexpected_eq]
  generalize ts.drop index = rest at hsees hoperand ⊢
  cases hsees with
  | ending => exact .fault hoperand
  | @token t ht hindex hadvance =>
    obtain ⟨token, position⟩ := t
    dsimp only [Placed.place] at hdeep hinvalid ⊢
    rw [hadvance]
    cases token with
    | ident name =>
      have hname : Follows endAt ts (.ok (Expr.name name, ts.drop (index + 1)))
        (.ok (Expr.name name, index + 1)) := .read _ hindex
      obtain ⟨next, -, hnext, hsees⟩ := exists_sees endAt hindex
      dsimp only
      rw [hnext, ok_bind]
      generalize ts.drop (index + 1) = rest at hsees hname ⊢
      cases hsees with
      | ending => exact hname
      | @token t ht hindex hadvance =>
        obtain ⟨token, position'⟩ := t
        rw [hadvance]
        cases token with
        | openParen =>
          cases left with
          | zero => exact .fault hdeep
          | succ left =>
            refine .bind (itemsUntil_follows ?_ .closeParen .closeArguments hindex)
              fun arguments i hi => .read (Expr.call name arguments) hi
            exact fun i hi => disjunction_follows left i hi
        | _ => exact hname
    | openParen =>
      cases left with
      | zero => exact .fault hdeep
      | succ left =>
        refine (disjunction_follows left _ hindex).bind fun e i hi => ?_
        exact .expect .closeParen .closeGroup hi fun j hj => .read e hj
    | openBracket =>
      cases left with
      | zero => exact .fault hdeep
      | succ left =>
        refine .bind (itemsUntil_follows ?_ .closeBracket .closeItems hindex)
          fun items i hi => .read (Expr.list items) hi
        exact fun i hi => disjunction_follows left i hi
    | int digits =>
      dsimp only [literal?]
      cases (Numeral.nat? digits.toList).bind fun n => int64? (n : Int) with
      | none => exact .fault (hinvalid digits)
      | some n => exact .read _ hindex
    | float digits =>
      dsimp only [literal?]
      cases Decimal.readUnsigned? digits.toList with
      | none => exact .fault (hinvalid digits)
      | some d => exact .read _ hindex
    | text | true | false | none => exact .read _ hindex
    | _ => exact .fault hoperand
termination_by 16 * left

end

end

end FormValidation.Condition
