import FormValidation.Json.Reader
import FormValidation.Rule.Document
import FormValidation.Source.Path
import FormValidation.Toml.Reader

/-!
# Formats of rule sources

Documents are written in JSON, or in TOML if the path of the file says so.
-/

namespace FormValidation

/-- How a document is written. -/
inductive SourceFormat where
  | json
  | toml
  deriving DecidableEq

namespace SourceFormat

/-- The format of a file: TOML if that is its extension, in letters of either case. -/
def ofPath (p : SourcePath) : SourceFormat :=
  match p.extension? with
  | some ending => if ending.map Char.toLower = "toml".toList then .toml else .json
  | none => .json

/-- The value of a text in a format. -/
def value? : SourceFormat → List Char → Option Json
  | .json => Json.read?
  | .toml => Toml.read?

/-- Reads a document. -/
def document (format : SourceFormat) (content : String) : Except SourceFault Document :=
  match (format.value? content.toList).bind Document.ofJson? with
  | some d => .ok d
  | none => .error .unparsable

end SourceFormat

end FormValidation
