import FormValidation.Source.Fault
import FormValidation.Text.Blank

/-!
# Paths

A path is a text in which slashes stand between the names of directories and, at its end, a file.
Empty parts and single dots mean nothing, and two dots lead back up. Lengths are counted in bytes.
-/

namespace FormValidation

/-- The parts of a text between slashes. -/
def splitSlash : List Char → List (List Char)
  | [] => [[]]
  | c :: rest =>
    if c = '/' then [] :: splitSlash rest
    else match splitSlash rest with
      | part :: parts => (c :: part) :: parts
      | [] => [[c]]

/-- The place of a file. -/
structure SourcePath where
  text : String
  deriving DecidableEq

namespace SourcePath

/-- The longest path. -/
def maxLength : Nat := 4096

/-- The longest name in a path. -/
def maxComponentLength : Nat := 255

/-- The parts between slashes. -/
def parts (p : SourcePath) : List String := (splitSlash p.text.toList).map String.ofList

/-- The parts that mean something. -/
def components (p : SourcePath) : List String := p.parts.filter fun s => s ≠ "" ∧ s ≠ "."

/-- What follows the last dot of a name; a dot in front of a name does not count. -/
def extensionOf? (name : List Char) : Option (List Char) :=
  let ending := name.reverse.takeWhile (· ≠ '.')
  let stem := (name.reverse.dropWhile (· ≠ '.')).drop 1
  if stem.isEmpty then none else some ending.reverse

/-- The extension of the last component. -/
def extension? (p : SourcePath) : Option (List Char) :=
  match p.components.getLast? with
  | none => none
  | some name => if name = ".." then none else extensionOf? name.toList

/-- The path that leads on from a directory to a relative one. -/
def join (directory : String) (relative : String) : SourcePath :=
  match directory.toList.getLast? with
  | none => ⟨relative⟩
  | some '/' => ⟨directory ++ relative⟩
  | some _ => ⟨directory ++ "/" ++ relative⟩

/-- Whether a path is one: not blank, and neither it nor a part of it is too long. -/
def check (p : SourcePath) : Except SourceFault Unit :=
  if p.text.toList.all Text.isBlank then .error .blankPath
  else if maxLength < p.text.utf8ByteSize then .error .longPath
  else if p.parts.any fun s => maxComponentLength < s.utf8ByteSize then .error .longComponent
  else .ok ()

end SourcePath

end FormValidation
