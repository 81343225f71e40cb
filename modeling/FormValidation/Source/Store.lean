import FormValidation.Diagnostic
import FormValidation.Digest.Sha256
import FormValidation.Rule.Lint
import FormValidation.Source.Generation
import FormValidation.Source.Settings
import FormValidation.Source.State

/-!
# Stores

A store serves the document in a file, and reads the file again only when it has changed. Nothing
that goes wrong reaches those who ask: without a file the document is empty, and a file that cannot
be used leaves the last good document in place. What went wrong is reported, once for each version
of a file, and once whenever a source comes to be absent or obstructed.

`StoreState.fresh?` tells from an observation alone that nothing has changed; `Store.refresh` brings
the state in line with the source; `Store.load` and `Store.reload` are what the store offers.
-/

namespace FormValidation

/-- A document that is kept, and the file that it was read from. -/
structure KeptDocument where
  document : Document
  version : SourceVersion
  digest : Digest

/-- What a store remembers. -/
structure StoreState where
  /-- The last good document. -/
  kept : Option KeptDocument
  /-- How often the document that is served has changed. -/
  generation : Generation
  /-- The version of a file that could not be used. -/
  failed : Option SourceVersion
  /-- Whether it has been reported that the source is absent. -/
  absentReported : Bool
  /-- Whether it has been reported that the source is obstructed. -/
  obstructedReported : Bool

namespace StoreState

/-- The state before anything has been read. -/
def start : StoreState := ⟨none, 0, none, false, false⟩

/-- The document that is served. -/
def document (s : StoreState) : Document := (s.kept.map (·.document)).getD .empty

/-- The document to serve for an observation, if the observation shows nothing new. -/
def fresh? (s : StoreState) (seen : Observation) : Option Document :=
  match seen with
  | .obstructed _ => if s.obstructedReported then some s.document else none
  | .absent =>
    if s.obstructedReported then none
    else if s.kept.isNone ∧ s.absentReported then some .empty
    else none
  | .present version =>
    if s.obstructedReported then none
    else if s.kept.map (·.version) = some version ∨ s.failed = some version then some s.document
    else none

/-- The state that serves something else from now on. -/
def replace (s : StoreState) (kept : Option KeptDocument) : StoreState :=
  { s with kept, generation := Generation.next s.generation }

end StoreState

/-- What came of looking at a source: the new state, the document to serve, what was reported, and
whether the file was to be read. -/
structure StorePass where
  state : StoreState
  document : Document
  events : List Diagnostic
  hasRead : Bool

namespace StorePass

/-- Nothing has changed. -/
def unchanged (s : StoreState) (d : Document) : StorePass := ⟨s, d, [], false⟩

/-- The state and its own document, with what was reported. -/
def serve (s : StoreState) (events : List Diagnostic) (hasRead : Bool) : StorePass :=
  ⟨s, s.document, events, hasRead⟩

end StorePass

/-- Where the source of a store is and how it is read. -/
structure StoreSource where
  path : SourcePath
  format : SourceFormat
  maxBytes : Nat

/-- A store. -/
structure Store where
  source : StoreSource
  state : StoreState

namespace StoreSource

/-! ## Reading the file -/

/-- The bytes of a file and their digest, within the limit. -/
def bytes (p : StoreSource) (version : SourceVersion) (content : Except String ByteArray) :
    Except SourceFault (ByteArray × Digest) :=
  if p.maxBytes < version.length then .error .tooLarge
  else match content with
    | .error reason => .error (.unreadable reason)
    | .ok content =>
      if p.maxBytes < content.size then .error .tooLarge else .ok (content, Digest.of content)

/-- Reads a document from bytes. -/
def document (p : StoreSource) (content : ByteArray) : Except SourceFault Document :=
  match String.fromUTF8? content with
  | some text => p.format.document text
  | none => .error .notUtf8

/-! ## Reports -/

/-- The event that there is no file. -/
def absentEvent (p : StoreSource) : Diagnostic :=
  .general .sourceError ("config source " ++ p.path.text ++ " not found; no rules apply")

/-- The event that the source cannot be inspected. -/
def obstacleEvent (p : StoreSource) (obstacle : Obstacle) : Diagnostic :=
  .general .sourceError (obstacle.message p.path.text)

/-- The event that a version of the file cannot be used. -/
def faultEvent (p : StoreSource) (version : SourceVersion) (fault : SourceFault)
    (hasDocument : Bool) : Diagnostic :=
  .general .sourceError (p.path.text ++ " (" ++ version.length.repr ++ "): " ++ fault.message
    ++ (if hasDocument then "; keeping previous rules" else "; no rules apply"))

/-- The event that a document was loaded. -/
def loadedEvent (p : StoreSource) (d : Document) (generation : Generation) (digest : Digest) :
    Diagnostic :=
  .general .loaded ("loaded " ++ d.size.repr ++ " form(s) from " ++ p.path.text
    ++ " (generation " ++ generation.repr ++ ", sha256 " ++ digest.text ++ ")")

/-- The event of an issue in a document. -/
def lintEvent (i : Issue) : Diagnostic := .ofRule .lint i.form i.group i.index i.message

/-! ## Taking over a file -/

/-- Notes that a version of the file cannot be used. -/
def reject (p : StoreSource) (s : StoreState) (version : SourceVersion) (fault : SourceFault) :
    StorePass :=
  .serve { s with failed := some version } [p.faultEvent version fault s.kept.isSome] true

/-- Serves the document in the bytes of a file from now on. -/
def install (p : StoreSource) (s : StoreState) (version : SourceVersion) (content : ByteArray)
    (digest : Digest) : StorePass :=
  match p.document content with
  | .error fault => p.reject s version fault
  | .ok d =>
    let s := { s.replace (some ⟨d, version, digest⟩) with failed := none }
    .serve s (p.loadedEvent d s.generation digest :: d.lint.map lintEvent) true

/-- Takes over the bytes of a file; bytes that are known already only have a new version. -/
def adopt (p : StoreSource) (s : StoreState) (version : SourceVersion) (content : ByteArray)
    (digest : Digest) : StorePass :=
  match s.kept with
  | some kept =>
    if kept.digest = digest then
      .serve { s with kept := some { kept with version }, failed := none } [] true
    else p.install s version content digest
  | none => p.install s version content digest

/-! ## Refreshing -/

/-- Notes that there is no file. -/
def refreshAbsent (p : StoreSource) (s : StoreState) : StorePass :=
  let events := if s.absentReported then [] else [p.absentEvent]
  let s := if s.kept.isSome then s.replace none else s
  .serve { s with failed := none, absentReported := true } events false

/-- Notes that the source cannot be inspected. -/
def refreshObstructed (p : StoreSource) (s : StoreState) (obstacle : Obstacle) : StorePass :=
  let events := if s.obstructedReported then [] else [p.obstacleEvent obstacle]
  .serve { s with obstructedReported := true } events false

/-- Reads a file. -/
def refreshFile (p : StoreSource) (s : StoreState) (version : SourceVersion)
    (content : Except String ByteArray) : StorePass :=
  let s := { s with absentReported := false }
  match p.bytes version content with
  | .ok read => p.adopt s version read.1 read.2
  | .error fault => p.reject s version fault

/-- Brings a state in line with a source whatever has been seen of it before. -/
def refreshAll (p : StoreSource) (s : StoreState) : SourceState → StorePass
  | .absent => p.refreshAbsent s
  | .obstructed obstacle => p.refreshObstructed s obstacle
  | .file version content => p.refreshFile s version content

/-- Brings a state in line with a source; unless forced to, it does nothing if an observation shows
that nothing has changed. -/
def refresh (p : StoreSource) (s : StoreState) (now : SourceState) (force : Bool) : StorePass :=
  let seen := now.observe
  let s := if seen.isObstructed then s else { s with obstructedReported := false }
  if force then p.refreshAll s now
  else match s.fresh? seen with
    | some d => .unchanged s d
    | none => p.refreshAll s now

/-- The document to serve now. -/
def snapshot (p : StoreSource) (s : StoreState) (now : SourceState) : StorePass :=
  match s.fresh? now.observe with
  | some d => .unchanged s d
  | none => p.refresh s now false

end StoreSource

namespace Store

/-- A store for settings in an environment; nothing has been read yet. -/
def ofSettings (settings : Settings) (environment : Option String) : Except SourceFault Store := do
  settings.check
  let path ← settings.resolve environment
  .ok ⟨⟨path, .ofPath path, settings.maxBytes⟩, .start⟩

/-- The document to serve now; the file is read if it has changed. -/
def load (s : Store) (now : SourceState) : Store × StorePass :=
  let pass := s.source.snapshot s.state now
  ({ s with state := pass.state }, pass)

/-- The document to serve now; the file is read in any case. -/
def reload (s : Store) (now : SourceState) : Store × StorePass :=
  let pass := s.source.refresh s.state now true
  ({ s with state := pass.state }, pass)

/-- The version of the file that the document was read from. -/
def version? (s : Store) : Option SourceVersion := s.state.kept.map (·.version)

/-- The digest of the bytes that the document was read from. -/
def digest? (s : Store) : Option Digest := s.state.kept.map (·.digest)

end Store

end FormValidation
