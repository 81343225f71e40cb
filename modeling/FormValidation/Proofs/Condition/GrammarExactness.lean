import FormValidation.Proofs.Condition.ReaderCompleteness

/-!
# The reader and the grammar

The two halves put together: a list of tokens is read as a tree exactly if the grammar derives the
tree from the tokens at a cost within the limit of nesting, and what the grammar derives at a
greater cost is refused as too deep and for no other reason.

That no list of tokens has two derivations with different trees or costs needs no look at the rules.
The reader has one answer for each limit, and with a limit just high enough for the cheaper of two
derivations it cannot find the other one too deep (`Derives.unique`).  The main statement is
`ofTokens_exact`.
-/

namespace FormValidation.Condition

/-- **The grammar is unambiguous**, in its trees and in their costs. -/
theorem Derives.unique {e e' : Expr} {ts : List Token} {c c' : Nat}
    (h : Derives (.disjunction e) ts c) (h' : Derives (.disjunction e') ts c') :
    e = e' ∧ c = c' := by
  -- Where the tokens stand does not matter, so let them stand anywhere.
  have hplaced : (ts.map fun t => Placed.mk t 0).map (·.token) = ts := by
    rw [List.map_map]
    exact List.map_id ts
  have hread := h.isRead 0 _ hplaced
  have hread' := h'.isRead 0 _ hplaced
  have hno : ∀ {e e' : Expr} {c c' : Nat}, c < c' →
      (Phrase.disjunction e).IsRead 0 (ts.map fun t => Placed.mk t 0) c →
      (Phrase.disjunction e').IsRead 0 (ts.map fun t => Placed.mk t 0) c' → False := by
    intro e e' c c' hlt hcheap hdear
    have hok := hcheap c [] (stops_nil 7)
    have hdeep := hdear c [] (stops_nil 7)
    rw [Reaches, if_pos (Nat.le_refl c)] at hok
    rw [Reaches, if_neg (Nat.not_le.2 hlt), hok] at hdeep
    obtain ⟨position, hposition⟩ := hdeep
    cases hposition
  have hc : c = c' := by
    rcases Nat.lt_trichotomy c c' with hlt | heq | hgt
    · exact (hno hlt hread hread').elim
    · exact heq
    · exact (hno hgt hread' hread).elim
  subst hc
  have hok := hread c [] (stops_nil 7)
  have hok' := hread' c [] (stops_nil 7)
  rw [Reaches, if_pos (Nat.le_refl c)] at hok hok'
  rw [hok] at hok'
  cases hok'
  exact ⟨rfl, rfl⟩

lemma derives_of_ofTokens {endAt : Nat} {ts : List Placed} {e : Expr}
    (h : ofTokens endAt ts = .ok e) :
    ∃ c, c ≤ maxNesting ∧ Derives (.disjunction e) (ts.map (·.token)) c := by
  obtain ⟨⟨tree, rest⟩, hread, hrest⟩ := exists_of_bind_eq_ok h
  cases rest with
  | nil =>
      cases hrest
      obtain ⟨ps, c, rfl, hc, hderives⟩ := disjunction_reads hread
      rw [List.append_nil]
      exact ⟨c, hc, hderives⟩
  | cons t more => cases hrest

lemma reaches_ofTokens (endAt : Nat) {c : Nat} {ts : List Placed} {e : Expr}
    (h : Derives (.disjunction e) (ts.map (·.token)) c) :
    Reaches c maxNesting (ofTokens endAt ts) (.ok e) := by
  have hread := h.isRead endAt ts rfl maxNesting [] (stops_nil 7)
  rw [List.append_nil] at hread
  exact hread.andThen rfl

/-- **The reader accepts the grammar, and nothing else.**  A list of tokens is read as a tree
exactly if the grammar derives the tree from it at a cost of no more than the limit of nesting; if
it derives one at a greater cost then the list is refused as too deep; and there is never more than
one tree and one cost.  Literals of numbers that do not fit have no derivation. -/
theorem ofTokens_exact (endAt : Nat) (ts : List Placed) :
    (∀ e, ofTokens endAt ts = .ok e ↔
      ∃ c, c ≤ maxNesting ∧ Derives (.disjunction e) (ts.map (·.token)) c) ∧
    (∀ e c, Derives (.disjunction e) (ts.map (·.token)) c → maxNesting < c →
      ∃ position, ofTokens endAt ts = .error (.tooDeep position)) ∧
    (∀ e e' c c', Derives (.disjunction e) (ts.map (·.token)) c →
      Derives (.disjunction e') (ts.map (·.token)) c' → e = e' ∧ c = c') := by
  refine ⟨fun e => ⟨derives_of_ofTokens, ?_⟩, ?_, fun e e' c c' => Derives.unique⟩
  · rintro ⟨c, hc, hderives⟩
    have hreaches := reaches_ofTokens endAt hderives
    rwa [Reaches, if_pos hc] at hreaches
  · intro e c hderives hdeep
    have hreaches := reaches_ofTokens endAt hderives
    rwa [Reaches, if_neg (Nat.not_le.2 hdeep)] at hreaches

/-- The condition `not a is not -b` is derived at a cost of two, and so it is read. -/
theorem ofTokens_exact_negated :
    ofTokens 15
        [⟨.not, 0⟩, ⟨.ident "a", 4⟩, ⟨.same, 6⟩, ⟨.not, 9⟩, ⟨.minus, 13⟩, ⟨.ident "b", 14⟩] =
      .ok (.not (.comparison (.name "a") [(.notSame, .neg (.name "b"))])) := by
  have hname : ∀ x, Derives (.signed (.name x)) [.ident x] 0 := fun x => .unsigned (.target .name)
  have hcomparison : Derives (.comparison (.comparison (.name "a") [(.notSame, .neg (.name "b"))]))
      [.ident "a", .same, .not, .minus, .ident "b"] 1 :=
    .comparison (.summand (.factor (hname "a")))
      (.compared (.summand (.factor (.minus (hname "b")))) .uncompared)
  have hnegation : Derives
      (.operands .and [.not (.comparison (.name "a") [(.notSame, .neg (.name "b"))])])
      [.not, .ident "a", .same, .not, .minus, .ident "b"] 2 :=
    .operand (.not (.affirmed hcomparison))
  have hdisjunction : Derives
      (.operands .or [.not (.comparison (.name "a") [(.notSame, .neg (.name "b"))])])
      [.not, .ident "a", .same, .not, .minus, .ident "b"] 2 :=
    .operand (.conjunction hnegation)
  exact ((ofTokens_exact _ _).1 _).2 ⟨2, by decide, .disjunction hdisjunction⟩

end FormValidation.Condition
