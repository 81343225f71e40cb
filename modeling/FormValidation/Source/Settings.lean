import FormValidation.Source.Format

/-!
# Settings

Where rules are read from, and how large the file may be. `Settings.resolve` finds the file: at the
path that is set, else at the one that the environment names, else at a fixed place under the base
directory.
-/

namespace FormValidation

/-- Where rules are read from. -/
structure Settings where
  path : Option String
  /-- The directory under which the file has its usual place. -/
  baseDirectory : Option String
  /-- How many bytes the file may have. -/
  maxBytes : Nat
  deriving DecidableEq

namespace Settings

/-- The size that a file may have if nothing else is set. -/
def defaultMaxBytes : Nat := 1024 * 1024

/-- The usual place of the file. -/
def usualPlace : String := "config/form_validation.json"

/-- The settings where nothing is set. -/
def default : Settings := ⟨none, none, defaultMaxBytes⟩

instance : Inhabited Settings := ⟨default⟩

/-- Whether a path that may be absent is one. -/
def checkPath : Option String → Except SourceFault Unit
  | some text => SourcePath.check ⟨text⟩
  | none => .ok ()

/-- Whether the limit and the paths are in bounds. -/
def check (s : Settings) : Except SourceFault Unit :=
  if s.maxBytes = 0 ∨ largestSource < s.maxBytes then .error .badLimit
  else do
    checkPath s.path
    checkPath s.baseDirectory

/-- The path that the environment names, if it names one. -/
def environmentPath (environment : Option String) : Option String :=
  environment.filter fun text => !text.toList.all Text.isBlank

/-- The path of the file. -/
def chosenPath (s : Settings) (environment : Option String) : SourcePath :=
  match s.path, environmentPath environment, s.baseDirectory with
  | some path, _, _ => ⟨path⟩
  | none, some path, _ => ⟨path⟩
  | none, none, some directory => .join directory usualPlace
  | none, none, none => ⟨usualPlace⟩

/-- The path of the file, if it is one. -/
def resolve (s : Settings) (environment : Option String) : Except SourceFault SourcePath := do
  let path := s.chosenPath environment
  path.check
  .ok path

/-! ## Reading settings -/

/-- Sets one member. -/
def readMember (s : Settings) (m : String × Json) : Option Settings :=
  match m with
  | ("path", .string text) => some { s with path := some text }
  | ("base_dir", .string text) => some { s with baseDirectory := some text }
  | ("max_bytes", .number (.integer n _)) =>
    if 0 ≤ n then some { s with maxBytes := n.toNat } else none
  | _ => none

/-- Reads settings from TOML; members that there are not, or of other types, are refused. -/
def ofToml (content : String) : Except SourceFault Settings :=
  match (Toml.read? content.toList).bind Json.object? with
  | none => .error .unparsable
  | some members =>
    match members.foldlM readMember default with
    | none => .error .unparsable
    | some s => do
      s.check
      .ok s

end Settings

end FormValidation
