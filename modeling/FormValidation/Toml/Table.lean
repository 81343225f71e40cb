import FormValidation.Json.Basic

/-!
# TOML tables

The tables of a TOML document while it is read. A table remembers how it came about, for that
decides what may be added to it: a header may complete a table that so far only stood in the names
of others, and dotted keys may only add to tables that dotted keys have made. Nothing may be
defined twice.
-/

namespace FormValidation.Toml

/-- How a table came about. -/
inductive Origin where
  /-- It stands in the header of a table inside it. -/
  | implicit
  /-- It stands in a dotted key. -/
  | dotted
  /-- It has a header of its own. -/
  | header
  deriving DecidableEq

/-- What a key stands for. -/
inductive Node where
  | value (v : Json)
  | table (origin : Origin) (entries : List (String × Node))
  /-- Tables under one header, the last of them first. -/
  | tables (elements : List (List (String × Node)))

namespace Node

mutual

/-- The finished value of a node. -/
def toJson : Node → Json
  | .value v => v
  | .table _ entries => .object (entriesToJson entries)
  | .tables elements => .array (elementsToJson elements).reverse

/-- The finished values of the entries of a table. -/
def entriesToJson : List (String × Node) → List (String × Json)
  | [] => []
  | (key, node) :: rest => (key, toJson node) :: entriesToJson rest

/-- The finished values of several tables. -/
def elementsToJson : List (List (String × Node)) → List Json
  | [] => []
  | entries :: rest => .object (entriesToJson entries) :: elementsToJson rest

end

/-- Binds a dotted key, given as a path and a last part. A key without a path belongs to the table
at hand; a path must end in a table that dotted keys have made (`direct`). -/
def put (key : String) (v : Json) (direct : Bool) :
    (path : List String) → List (String × Node) → Option (List (String × Node))
  | [], entries =>
    if direct ∧ (Entries.find? key entries).isNone then
      some (Entries.insert key (.value v) entries)
    else none
  | part :: path, entries =>
    match Entries.find? part entries with
    | none =>
      (put key v true path []).map fun sub => Entries.insert part (.table .dotted sub) entries
    | some (.table origin sub) =>
      if origin = .header then none
      else (put key v (origin = .dotted) path sub).map fun sub =>
        Entries.insert part (.table origin sub) entries
    | some (.tables (element :: others)) =>
      (put key v false path element).map fun element =>
        Entries.insert part (.tables (element :: others)) entries
    | some _ => none

/-- Changes the table that the parts of a header lead to; tables that are missing on the way come
about implicitly, and of several tables under one header the last is meant. -/
def under (change : List (String × Node) → Option (List (String × Node))) :
    (path : List String) → List (String × Node) → Option (List (String × Node))
  | [], entries => change entries
  | part :: path, entries =>
    match Entries.find? part entries with
    | none =>
      (under change path []).map fun sub =>
        Entries.insert part (.table .implicit sub) entries
    | some (.table origin sub) =>
      (under change path sub).map fun sub => Entries.insert part (.table origin sub) entries
    | some (.tables (element :: others)) =>
      (under change path element).map fun element =>
        Entries.insert part (.tables (element :: others)) entries
    | some _ => none

/-- Gives a table its header. -/
def openTable (key : String) (entries : List (String × Node)) : Option (List (String × Node)) :=
  match Entries.find? key entries with
  | none => some (Entries.insert key (.table .header []) entries)
  | some (.table .implicit sub) => some (Entries.insert key (.table .header sub) entries)
  | some _ => none

/-- Adds a table to those under one header. -/
def openElement (key : String) (entries : List (String × Node)) :
    Option (List (String × Node)) :=
  match Entries.find? key entries with
  | none => some (Entries.insert key (.tables [[]]) entries)
  | some (.tables elements) => some (Entries.insert key (.tables ([] :: elements)) entries)
  | some _ => none

end Node

end FormValidation.Toml
