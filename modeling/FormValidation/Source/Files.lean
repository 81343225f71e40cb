import FormValidation.KeyMap
import FormValidation.Source.Path
import FormValidation.Source.State

/-!
# File trees

Directories and files under one directory, by their paths from there. `FileTree.sourceAt` follows
a path and gives the state of a source at its end. The tree is all that is known: directories above
it can be passed through, and nothing else lies in them.
-/

namespace FormValidation

/-- A file or a directory. -/
inductive FileNode where
  | directory
  | file (content : ByteArray) (stamp : Int)

/-- The files and directories under one directory, each under its parts joined by slashes. -/
structure FileTree where
  nodes : KeyMap FileNode

namespace FileTree

/-- The directory without files. -/
def empty : FileTree := ⟨∅⟩

instance : Inhabited FileTree := ⟨empty⟩

/-! ## Following paths -/

/-- Where a walk through directories has come to. -/
inductive Place where
  /-- Inside the tree, at the end of the given parts. -/
  | inside (parts : List String)
  /-- In a directory above the tree. -/
  | above
  /-- Beside the tree. -/
  | beside

/-- One step of a walk. -/
def Place.step (place : Place) (part : String) : Place :=
  match place with
  | .inside parts =>
    if part = ".." then
      if parts.isEmpty then .above else .inside parts.dropLast
    else .inside (parts ++ [part])
  | .above => if part = ".." then .above else .beside
  | .beside => .beside

/-- What stands at a place. -/
def nodeAt (t : FileTree) : Place → Option FileNode
  | .inside [] => some .directory
  | .inside parts => t.nodes.find? (String.intercalate "/" parts)
  | .above => some .directory
  | .beside => none

/-- The state of a source at the end of a walk. -/
def walk (t : FileTree) (place : Place) (parts : List String) : SourceState :=
  match parts with
  | [] =>
    match t.nodeAt place with
    | none => .absent
    | some .directory => .obstructed .notFile
    | some (.file content stamp) => .file ⟨stamp, content.size⟩ (.ok content)
  | part :: rest =>
    match t.nodeAt place with
    | none => .absent
    | some .directory =>
      t.walk (if part = "" ∨ part = "." then place else place.step part) rest
    | some (.file ..) => .obstructed (.failed "Not a directory (os error 20)")

/-- The state of the source at a path. -/
def sourceAt (t : FileTree) (p : SourcePath) : SourceState :=
  if p.text.toList.contains (Char.ofNat 0) then
    .obstructed (.failed "file name contained an unexpected NUL byte")
  else if SourcePath.maxLength ≤ p.text.utf8ByteSize then
    .obstructed (.failed "File name too long (os error 36)")
  else t.walk (if p.text.toList.head? = some '/' then .above else .inside []) p.parts

/-! ## Changes -/

/-- The parts of a path inside the tree, without those that mean nothing. -/
def insideParts (p : SourcePath) : List String :=
  p.components.foldl (fun parts part => if part = ".." then parts.dropLast else parts ++ [part]) []

/-- The tree with a directory at the end of the given parts, and those above it. -/
def makeDirectory (t : FileTree) (parts : List String) : FileTree :=
  ⟨(List.range parts.length).foldl
    (fun nodes n => nodes.insert (String.intercalate "/" (parts.take (n + 1))) .directory) t.nodes⟩

/-- The tree with a file, in place of any other at its path. -/
def write (t : FileTree) (p : SourcePath) (content : ByteArray) (stamp : Int) : FileTree :=
  let parts := insideParts p
  ⟨(t.makeDirectory parts.dropLast).nodes.insert (String.intercalate "/" parts)
    (.file content stamp)⟩

/-- The tree with a directory at a path. -/
def addDirectory (t : FileTree) (p : SourcePath) : FileTree := t.makeDirectory (insideParts p)

/-- The tree without what stands at a path. -/
def remove (t : FileTree) (p : SourcePath) : FileTree :=
  ⟨t.nodes.erase (String.intercalate "/" (insideParts p))⟩

end FileTree

end FormValidation
