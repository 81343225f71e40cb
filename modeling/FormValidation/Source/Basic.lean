import FormValidation.Source.Store

/-!
# Sources of rules

Where an engine takes its rules from: a document in memory, a document whose owner also sets its
generation, or the file of a store. What matters of a source is the document that it serves and the
generation of that document, which `RuleSource.look` gives together.
-/

namespace FormValidation

/-- A document in memory; every replacement begins a new generation. -/
structure MemorySource where
  document : Document
  generation : Generation

namespace MemorySource

/-- The source of an unset document. -/
def unset : MemorySource := ⟨.empty, 0⟩

/-- The source of a first document. -/
def of (d : Document) : MemorySource := ⟨d, 1⟩

/-- The source with another document. -/
def replace (m : MemorySource) (d : Document) : MemorySource := ⟨d, Generation.next m.generation⟩

end MemorySource

/-- A document whose owner sets the generation, and may replace the document without doing so. -/
structure ManualSource where
  document : Document
  generation : Generation

/-- A source of rules. -/
inductive RuleSource where
  | memory (m : MemorySource)
  | manual (m : ManualSource)
  | store (s : Store)

/-- What a source serves at some moment, and what was reported on the way. -/
structure Served where
  document : Document
  generation : Generation
  events : List Diagnostic

namespace RuleSource

/-- What a source serves, where `now` is the state of the file if it has one. -/
def look (s : RuleSource) (now : SourceState) : RuleSource × Served :=
  match s with
  | .memory m => (.memory m, ⟨m.document, m.generation, []⟩)
  | .manual m => (.manual m, ⟨m.document, m.generation, []⟩)
  | .store kept =>
    let pass := kept.load now
    (.store pass.1, ⟨pass.2.document, pass.2.state.generation, pass.2.events⟩)

end RuleSource

end FormValidation
