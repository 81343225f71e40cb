import FormValidation.Source.Fault

/-!
# States of a source

What a store finds at the path of its source: nothing, something that cannot be inspected, or a
file. An observation is what can be seen without reading the file; of a file that is a version
marker, from which a store tells whether to read it again.
-/

namespace FormValidation

/-- The marker of a version of a file. -/
structure SourceVersion where
  /-- When the file was last written. -/
  stamp : Int
  /-- How many bytes it had. -/
  length : Nat
  deriving DecidableEq

/-- Why a source cannot be inspected. -/
inductive Obstacle where
  /-- There is something other than a file. -/
  | notFile
  /-- The inspection failed. -/
  | failed (reason : String)
  deriving DecidableEq

/-- The words for why the source at a path cannot be inspected. -/
def Obstacle.message (path : String) : Obstacle → String
  | .notFile => "config source " ++ path ++ " is not a file"
  | .failed reason => (SourceFault.unreadable (path ++ ": " ++ reason)).message

/-- What there is at the path of a source. -/
inductive SourceState where
  | absent
  | obstructed (obstacle : Obstacle)
  /-- A file, and its bytes or why they cannot be read. -/
  | file (version : SourceVersion) (content : Except String ByteArray)

/-- What can be seen of a source without reading it. -/
inductive Observation where
  | absent
  | obstructed (obstacle : Obstacle)
  | present (version : SourceVersion)
  deriving DecidableEq

namespace SourceState

/-- Looks at a source. -/
def observe : SourceState → Observation
  | .absent => .absent
  | .obstructed obstacle => .obstructed obstacle
  | .file version _ => .present version

end SourceState

/-- Whether a source cannot be inspected. -/
def Observation.isObstructed : Observation → Bool
  | .obstructed _ => true
  | _ => false

end FormValidation
