import FormValidation.Text.CaseTable

/-!
# Upper and lower case

Whole texts in upper or lower case by the full mappings of the tables, under which one letter may
become several. The only mapping that looks at its surroundings is that of the capital sigma,
which has a lower case of its own at the end of a word.
-/

namespace FormValidation.Text

/-- Whether a code point lies in one of the ranges. -/
def inRanges (ranges : List (Nat × Nat)) (n : Nat) : Bool :=
  ranges.any fun range => range.1 ≤ n && n ≤ range.2

/-- The letter that a run maps the code point to. -/
def CaseRun.image? (run : CaseRun) (n : Nat) : Option Char :=
  if run.first ≤ n ∧ n ≤ run.last ∧ (n - run.first) % run.step = 0 then
    some (Char.ofNat ((n : Int) + run.shift).toNat)
  else none

/-- The image of a letter under a table of sequences and a table of runs; a character in neither
stands for itself. -/
def mapLetter (sequences : List (Nat × List Nat)) (runs : List CaseRun) (c : Char) : List Char :=
  match sequences.lookup c.toNat with
  | some image => image.map Char.ofNat
  | none => [(runs.findSome? fun run => run.image? c.toNat).getD c]

/-- The upper case of a letter. -/
def upperLetter (c : Char) : List Char :=
  if c.toNat < 0x80 then [c.toUpper] else mapLetter upperSequences upperRuns c

/-- The lower case of a letter, wherever it stands. -/
def lowerLetter (c : Char) : List Char :=
  if c.toNat < 0x80 then [c.toLower] else mapLetter lowerSequences lowerRuns c

/-- Whether the first character that does not extend a word is a letter with a case. -/
def startsWithCased (cs : List Char) : Bool :=
  match cs.dropWhile fun c => inRanges ignorableRanges c.toNat with
  | c :: _ => inRanges casedRanges c.toNat
  | [] => false

/-- The lower case of a text, given the text before it in reverse. A capital sigma behind a
letter and not before one ends a word. -/
def lowerAfter : (before : List Char) → List Char → List Char
  | _, [] => []
  | before, c :: rest =>
    let image :=
      if c = 'Σ' then
        if startsWithCased before && !startsWithCased rest then ['ς'] else ['σ']
      else lowerLetter c
    image ++ lowerAfter (c :: before) rest

/-- The text in lower case. -/
def lower (cs : List Char) : List Char := lowerAfter [] cs

/-- The text in upper case. -/
def upper (cs : List Char) : List Char := cs.flatMap upperLetter

end FormValidation.Text
