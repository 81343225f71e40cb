/-!
# Generations

The documents that a source serves one after the other are counted, so that what was made from one
of them can be told from what was made from another. The count stays at the largest number of 64
bits once it has come there.
-/

namespace FormValidation

/-- The number of a document among those that a source has served. -/
abbrev Generation := Nat

/-- The largest number of a document. -/
def Generation.last : Generation := 0xffffffffffffffff

/-- The number of the next document. -/
def Generation.next (g : Generation) : Generation := min (g + 1) last

theorem Generation.next_eq {g : Generation} (h : g < last) : next g = g + 1 :=
  Nat.min_eq_left h

end FormValidation
