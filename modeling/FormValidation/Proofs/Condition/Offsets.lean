import FormValidation.Condition.Scan
import FormValidation.Proofs.Condition.Spelling

/-!
# Offsets and characters

What the bytes at an offset say about the characters that begin there.  `At source offset cs` says
that a character begins at the offset, or that the text ends there, and that the text goes on with
the characters `cs`.  It is carried on from character to character (`At.next`) and over a run of
them (`At.behind`), and it holds wherever tokens and quoted texts are cut (`At.slice`).

A byte below 128 is a character.  All other characters are told by bytes that are at least 128
(`At.above`), so the byte at an offset and the character there pass the same tests, as long as a
test accepts nothing but ASCII characters (`Leads.test`).
-/

namespace FormValidation.Condition.Scan

/-- The text goes on with the characters `cs` at the offset. -/
def At (source : String) (offset : Nat) (cs : List Char) : Prop :=
  ∃ front : String, source = front ++ String.ofList cs ∧ offset = front.utf8ByteSize

/-- The byte is the first one of the character, as far as ASCII characters go. -/
inductive Leads (byte : UInt8) (c : Char) : Prop where
  | ascii (hbyte : byte = c.toUInt8) (hc : c.toNat < 128)
  | above (hbyte : 128 ≤ byte.toNat) (hc : 128 ≤ c.toNat)

section

variable {source : String} {offset : Nat} {c : Char} {cs : List Char}

/-! ## Places of characters -/

lemma at_zero (source : String) : At source 0 source.toList :=
  ⟨"", by rw [String.ofList_toList, String.empty_append], rfl⟩

lemma At.behind {ds : List Char} (h : At source offset (cs ++ ds)) :
    At source (offset + (String.ofList cs).utf8ByteSize) ds := by
  obtain ⟨front, rfl, rfl⟩ := h
  exact ⟨front ++ String.ofList cs, by rw [String.ofList_append, String.append_assoc],
    String.utf8ByteSize_append.symm⟩

lemma At.next (h : At source offset (c :: cs)) : At source (offset + c.utf8Size) cs := by
  have hbehind : At source (offset + (String.ofList [c]).utf8ByteSize) cs := At.behind h
  rwa [utf8ByteSize_ofList_cons, String.ofList_nil, String.utf8ByteSize_empty] at hbehind

lemma At.size_eq (h : At source offset cs) :
    source.utf8ByteSize = offset + (String.ofList cs).utf8ByteSize := by
  obtain ⟨front, rfl, rfl⟩ := h
  exact String.utf8ByteSize_append

lemma At.isValid (h : At source offset cs) : String.Pos.Raw.IsValid source ⟨offset⟩ := by
  obtain ⟨front, rfl, rfl⟩ := h
  exact String.Pos.Raw.isValid_iff_exists_append.2 ⟨front, _, rfl, rfl⟩

lemma extract_middle (front middle back : String) :
    (front ++ (middle ++ back)).toByteArray.extract front.utf8ByteSize
      (front.utf8ByteSize + middle.utf8ByteSize) = middle.toByteArray := by
  have hbehind := ByteArray.extract_append_size_add' (a := front.toByteArray)
    (b := (middle ++ back).toByteArray) (i := 0) (j := middle.utf8ByteSize)
    String.size_toByteArray.symm
  rw [String.toByteArray_append]
  refine hbehind.trans ?_
  rw [String.toByteArray_append, ByteArray.extract_append_eq_left String.size_toByteArray.symm]

/-- **A piece of the text** can be cut out wherever it begins and ends with characters. -/
lemma At.slice {ds : List Char} (h : At source offset (cs ++ ds)) :
    slice source offset (offset + (String.ofList cs).utf8ByteSize) = .ok (String.ofList cs) := by
  rw [Scan.slice, dif_pos ⟨h.isValid, h.behind.isValid, Nat.le_add_right _ _⟩]
  congr 1
  obtain ⟨front, hsource, rfl⟩ := h
  have hpiece := extract_middle front (String.ofList cs) (String.ofList ds)
  rw [← String.ofList_append, ← hsource] at hpiece
  exact String.toByteArray_inj.1 hpiece

/-! ## Bytes of characters -/

lemma At.byteAt?_nil (h : At source offset []) : byteAt? source offset = none := by
  have hsize : source.utf8ByteSize = offset := h.size_eq
  rw [byteAt?, getElem?_eq_none_iff, String.size_toByteArray, hsize]
  exact Nat.lt_irrefl offset

lemma At.byteAt?_add (h : At source offset (c :: cs)) {i : Nat} (hi : i < c.utf8Size) :
    byteAt? source (offset + i) = (String.utf8EncodeChar c)[i]? := by
  obtain ⟨front, rfl, rfl⟩ := h
  have hencoded : i < (String.utf8EncodeChar c).length := by rwa [String.length_utf8EncodeChar]
  have hfront : front.toByteArray.size = front.utf8ByteSize := String.size_toByteArray
  have hbytes : (front ++ String.ofList (c :: cs)).toByteArray =
      front.toByteArray ++ ((String.utf8EncodeChar c).toByteArray ++ cs.utf8Encode) := by
    rw [String.toByteArray_append, String.toByteArray_ofList, List.utf8Encode_cons,
      List.utf8Encode_singleton]
  have hbound : front.utf8ByteSize + i <
      (front.toByteArray ++ ((String.utf8EncodeChar c).toByteArray ++ cs.utf8Encode)).size := by
    rw [ByteArray.size_append, ByteArray.size_append, List.size_toByteArray, hfront]
    omega
  rw [byteAt?, hbytes, List.getElem?_eq_getElem hencoded, getElem?_eq_some_iff]
  refine ⟨hbound, ?_⟩
  rw [ByteArray.getElem_append_right (by omega)]
  simp only [hfront, Nat.add_sub_cancel_left]
  rw [ByteArray.getElem_append_left (by rwa [List.size_toByteArray]), List.getElem_toByteArray]

/-- All bytes of a character that is not ASCII are above those that are. -/
lemma le_of_mem_utf8EncodeChar {byte : UInt8} (hc : 128 ≤ c.toNat)
    (h : byte ∈ String.utf8EncodeChar c) : 128 ≤ byte.toNat := by
  have hval : c.toNat = c.val.toNat := rfl
  rw [String.utf8EncodeChar] at h
  split at h
  · omega
  · split at h
    · simp only [List.mem_cons, List.not_mem_nil, or_false] at h
      rcases h with rfl | rfl <;> rw [UInt8.toNat_ofNat'] <;> omega
    split at h <;> simp only [List.mem_cons, List.not_mem_nil, or_false] at h
    · rcases h with rfl | rfl | rfl <;> rw [UInt8.toNat_ofNat'] <;> omega
    · rcases h with rfl | rfl | rfl | rfl <;> rw [UInt8.toNat_ofNat'] <;> omega

/-- **The bytes of a character that is not ASCII** are all above the ASCII characters. -/
lemma At.above (h : At source offset (c :: cs)) (hc : 128 ≤ c.toNat) {i : Nat}
    (hi : i < c.utf8Size) :
    ∃ byte, byteAt? source (offset + i) = some byte ∧ 128 ≤ byte.toNat := by
  have hencoded : i < (String.utf8EncodeChar c).length := by rwa [String.length_utf8EncodeChar]
  exact ⟨_, (h.byteAt?_add hi).trans (List.getElem?_eq_getElem hencoded),
    le_of_mem_utf8EncodeChar hc (List.getElem_mem hencoded)⟩

lemma ne_of_le {d : Char} (hc : 128 ≤ c.toNat) (hd : d.toNat < 128) : c ≠ d := by
  rintro rfl
  omega

/-- Where nothing but ASCII characters has an image, what has one is ASCII. -/
lemma lt_of_eq_some {α : Type} {f : Char → Option α} (hf : ∀ d, 128 ≤ d.toNat → f d = none) {a : α}
    (h : f c = some a) : c.toNat < 128 := by
  by_contra hle
  rw [hf c (Nat.le_of_not_lt hle)] at h
  cases h

lemma utf8Size_of_lt (hc : c.toNat < 128) : c.utf8Size = 1 := by
  rw [Char.utf8Size_eq_one_iff, UInt32.le_iff_toNat_le]
  exact Nat.le_of_lt_succ hc

/-- **The byte at a character** leads it. -/
lemma At.leads (h : At source offset (c :: cs)) :
    ∃ byte, byteAt? source offset = some byte ∧ Leads byte c := by
  rcases Nat.lt_or_ge c.toNat 128 with hc | hc
  · have hsize := utf8Size_of_lt hc
    refine ⟨c.toUInt8, ?_, .ascii rfl hc⟩
    have hfirst := h.byteAt?_add (i := 0) c.utf8Size_pos
    rwa [String.utf8EncodeChar_eq_singleton hsize] at hfirst
  · obtain ⟨byte, hbyte, hle⟩ := h.above hc c.utf8Size_pos
    exact ⟨byte, hbyte, .above hle hc⟩

lemma At.byteAt?_ascii (h : At source offset (c :: cs)) (hc : c.toNat < 128) :
    byteAt? source offset = some c.toUInt8 := by
  obtain ⟨byte, hbyte, hleads⟩ := h.leads
  cases hleads with
  | ascii hfirst => rw [hbyte, hfirst]
  | above _ hle => omega

lemma At.next_ascii (h : At source offset (c :: cs)) (hc : c.toNat < 128) :
    At source (offset + 1) cs := by
  rw [← utf8Size_of_lt hc]
  exact h.next

end

/-! ## Tests of bytes -/

section

variable {byte : UInt8} {c : Char}

lemma ofUInt8_toUInt8 (hc : c.toNat < 128) : Char.ofUInt8 c.toUInt8 = c := by
  apply Char.ext
  apply UInt32.toNat_inj.1
  change c.toNat % 256 = c.toNat
  omega

/-- A test that treats all characters but ASCII alike has the same outcome for a character as for
the byte that leads it. -/
lemma Leads.test (h : Leads byte c) {α : Type} {f : Char → α} {other : α}
    (hother : ∀ d, 128 ≤ d.toNat → f d = other) : f (Char.ofUInt8 byte) = f c := by
  cases h with
  | ascii hbyte hc => rw [hbyte, ofUInt8_toUInt8 hc]
  | above hbyte hc => rw [hother (Char.ofUInt8 byte) hbyte, hother c hc]

lemma ofUInt8_eq_iff {d : Char} (hd : d.toNat < 128) :
    Char.ofUInt8 byte = d ↔ byte = d.toUInt8 := by
  refine ⟨fun hchar => ?_, fun hbyte => hbyte ▸ ofUInt8_toUInt8 hd⟩
  rw [← hchar]
  exact UInt8.toNat_inj.1 (Nat.mod_eq_of_lt byte.toNat_lt).symm

lemma Leads.eq_iff (h : Leads byte c) {d : Char} (hd : d.toNat < 128) :
    byte = d.toUInt8 ↔ c = d := by
  have htest := h.test (f := (· == d)) fun e he => beq_eq_false_iff_ne.2 (ne_of_le he hd)
  rw [← ofUInt8_eq_iff hd, ← beq_iff_eq, htest, beq_iff_eq]

end

end FormValidation.Condition.Scan
