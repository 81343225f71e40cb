/-!
# Faults of rule sources

Why settings are refused, or the file that they lead to is. A fault is of one of three families,
which its message names in front: reading failed, the text is not in its format, or a limit is
exceeded.
-/

namespace FormValidation

/-- The largest limit that may be set for the size of a source. -/
def largestSource : Nat := 16 * 1024 * 1024

/-- Why settings or a source are refused. -/
inductive SourceFault where
  /-- The file could not be read. -/
  | unreadable (reason : String)
  /-- The text is not in its format, or not of the shape that is asked for. -/
  | unparsable
  /-- The limit for the size of a source is not one that may be set. -/
  | badLimit
  | blankPath
  | longPath
  | longComponent
  /-- The file is larger than the limit. -/
  | tooLarge
  | notUtf8
  deriving DecidableEq

namespace SourceFault

/-- The words for a limit that is exceeded; none for the other families. -/
def limitText? : SourceFault → Option String
  | .unreadable _ => none
  | .unparsable => none
  | .badLimit => some ("max_bytes must be between 1 and " ++ largestSource.repr)
  | .blankPath => some "config path must be non-empty"
  | .longPath => some "config path exceeds max length"
  | .longComponent => some "config path component too long"
  | .tooLarge => some "config file exceeds size limit"
  | .notUtf8 => some "config file must be utf-8"

/-- The words for a fault. -/
def message (f : SourceFault) : String :=
  match f with
  | .unreadable reason => "config io error: " ++ reason
  | .unparsable => "config parse error: the text is malformed"
  | f => "invalid config: " ++ f.limitText?.getD ""

end SourceFault

end FormValidation
