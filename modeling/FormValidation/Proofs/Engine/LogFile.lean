import FormValidation.Diagnostic
import FormValidation.Proofs.Json.TextRoundTrip
import Mathlib

/-!
# Log files are read back line by line

An event is recorded by putting its entry and a line break at the end of the log file.  The texts
within it may be anything, such as conditions and parts of files that somebody wrote, so a line break
in one of them must not end the line, and a quote must not end the text.  Neither happens: what is
written of an event has no control characters (`Diagnostic.unbroken_logLine`), and it is read back as
the event (`Diagnostic.ofLine?_logLine`), whatever time was written with it.

So the lines of a log file are the lines of the events that were recorded, one for each and in their
order, and reading them gives back the events (`Diagnostic.logFile_faithful`).
-/

namespace FormValidation

lemma DiagnosticKind.ofName?_name (kind : DiagnosticKind) : ofName? kind.name = some kind := by
  cases kind <;> decide

namespace Diagnostic

/-! ## Reading an event -/

/-- What is read unless it is `null`. -/
def orNull? {α : Type} (read? : Json → Option α) : Json → Option (Option α)
  | .null => some none
  | v => (read? v).map some

/-- The natural number that a number is kept as. -/
def nat? (v : Json) : Option Nat := v.int?.bind Int.toNat?

/-- The event of an entry. -/
def ofJson? (entry : Json) : Option Diagnostic := do
  let kind ← (← entry.member? "kind").string?
  let form ← orNull? Json.string? (← entry.member? "form_id")
  let group ← orNull? Json.string? (← entry.member? "rule_group")
  let index ← orNull? nat? (← entry.member? "rule_index")
  let message ← (← entry.member? "message").string?
  return ⟨← DiagnosticKind.ofName? kind, form, group, index, message⟩

/-- The event of a line of a log file. -/
def ofLine? (line : List Char) : Option Diagnostic := (Json.read? line).bind ofJson?

/-- The place of the rule that the event is about, if there is one, is a number of 64 bits. -/
def HasWordIndex (d : Diagnostic) : Prop := ∀ i ∈ d.index, i < 2 ^ 64

variable (d : Diagnostic) (time : BitVec 128)

/-- The members of the entry of an event, with what stands for its time. -/
def entry (stamp : Json) : List (String × Json) :=
  [("event", .string "form_rules_diagnostic"), ("timestamp_ms", stamp),
    ("kind", .string d.kind.name), ("form_id", optionalText d.form),
    ("rule_group", optionalText d.group), ("rule_index", optionalNumber d.index),
    ("message", .string d.message)]

lemma orNull?_optionalText (s : Option String) :
    orNull? Json.string? (optionalText s) = some s := by
  cases s <;> rfl

lemma isExact_optionalText (s : Option String) : (optionalText s).IsExact 0 := by
  cases s with
  | none => exact .null
  | some s => exact .string s

lemma optionalNumber_some {n : Nat} (h : n < 2 ^ 64) :
    ∃ inRange, optionalNumber (some n) = .number (.integer n inRange) := by
  have hrange : InWordRange n := by
    rw [InWordRange]
    omega
  refine ⟨hrange, ?_⟩
  rw [optionalNumber, Json.ofInt, dif_pos hrange]

lemma orNull?_optionalNumber {n : Option Nat} (h : ∀ i ∈ n, i < 2 ^ 64) :
    orNull? nat? (optionalNumber n) = some n := by
  cases n with
  | none => rfl
  | some n =>
      obtain ⟨inRange, hnumber⟩ := optionalNumber_some (h n rfl)
      rw [hnumber]
      rfl

lemma isExact_optionalNumber {n : Option Nat} (h : ∀ i ∈ n, i < 2 ^ 64) :
    (optionalNumber n).IsExact 0 := by
  cases n with
  | none => exact .null
  | some n =>
      obtain ⟨inRange, hnumber⟩ := optionalNumber_some (h n rfl)
      rw [hnumber]
      exact .integer n inRange

/-- An event is read from its entry. -/
lemma ofJson?_entry (h : d.HasWordIndex) (stamp : Json) :
    ofJson? (Json.ofMembers (d.entry stamp)) = some d := by
  have hmember : ∀ key, (Json.ofMembers (d.entry stamp)).member? key =
      Entries.find? key (d.entry stamp) := by
    have hnodup : ((d.entry stamp).map (·.1)).Nodup := by simp [entry]
    exact Entries.find?_ofList hnodup
  simp only [ofJson?, hmember]
  simp [entry, Entries.find?, orNull?_optionalText, orNull?_optionalNumber h, Json.string?,
    DiagnosticKind.ofName?_name]

/-! ## The line of an event -/

/-- The parts of an entry are written so that they can be read, also a time that is no integer once
it has been read. -/
lemma exists_forall₂_members (h : d.HasWordIndex) :
    ∃ stamp, List.Forall₂ (Json.IsMemberText 0) (d.members time) (d.entry stamp) := by
  obtain ⟨stamp, hstamp⟩ := Json.Token.exists_word?_ofNat time.isLt
  have htime : Json.Reads 0 (Numeral.ofNat time.toNat) stamp :=
    Json.reads_word (Numeral.ofNat_ne_nil _)
      (fun _ hc => Json.Scan.isBreak_of_isDigit (Numeral.isDigit_of_mem_ofNat hc)) hstamp
  have hform := (isExact_optionalText d.form).reads_self
  have hgroup := (isExact_optionalText d.group).reads_self
  have hindex := (isExact_optionalNumber h).reads_self
  exact ⟨stamp, .cons ⟨rfl, Json.reads_quote _⟩ <| .cons ⟨rfl, htime⟩ <|
    .cons ⟨rfl, Json.reads_quote _⟩ <| .cons ⟨rfl, hform⟩ <| .cons ⟨rfl, hgroup⟩ <|
    .cons ⟨rfl, hindex⟩ <| .cons ⟨rfl, Json.reads_quote _⟩ .nil⟩

/-- **An event is read back from its line.** -/
lemma ofLine?_logLine (h : d.HasWordIndex) : ofLine? (d.logLine time) = some d := by
  obtain ⟨stamp, hmembers⟩ := d.exists_forall₂_members time h
  have hread : Json.read? (d.logLine time) = some (Json.ofMembers (d.entry stamp)) :=
    (Json.Reads.object hmembers).read?_eq (by decide)
  rw [ofLine?, hread, Option.bind_some, d.ofJson?_entry h]

/-- **An event is written on one line.** -/
lemma unbroken_logLine (h : d.HasWordIndex) : Json.Unbroken (d.logLine time) := by
  have hmembers : ∀ m ∈ d.members time, Json.Unbroken m.2 := by
    simp only [members, List.forall_mem_cons]
    exact ⟨Json.unbroken_quote _, Json.unbroken_ofNat _, Json.unbroken_quote _,
      (isExact_optionalText _).unbroken, (isExact_optionalText _).unbroken,
      (isExact_optionalNumber h).unbroken, Json.unbroken_quote _, List.forall_mem_nil _⟩
  rw [logLine, List.cons_append, Json.unbroken_cons, Json.unbroken_append, Json.unbroken_cons]
  exact ⟨by decide, Json.unbroken_writtenMembers hmembers, by decide, Json.unbroken_nil⟩

/-! ## The lines of a log file -/

/-- Recording events puts their lines behind what is in the file, each with a line break. -/
lemma foldl_record (file : List Char) (events : List (Diagnostic × BitVec 128)) :
    events.foldl record file =
      file ++ (events.map fun e => e.1.logLine e.2).flatMap (· ++ ['\n']) := by
  induction events generalizing file with
  | nil => exact (List.append_nil file).symm
  | cons e events ih =>
      rw [List.foldl_cons, ih, record, List.map_cons, List.flatMap_cons, List.append_assoc,
        List.append_assoc, List.append_assoc]

/-- Lines without line breaks that are written with one behind each are the lines of what is
written. -/
lemma splitOn_flatMap_lines {lines : List (List Char)} (h : ∀ line ∈ lines, '\n' ∉ line) :
    (lines.flatMap (· ++ ['\n'])).splitOn '\n' = lines ++ [[]] := by
  induction lines with
  | nil => rfl
  | cons line lines ih =>
      obtain ⟨hline, hlines⟩ := List.forall_mem_cons.1 h
      rw [List.flatMap_cons, List.append_assoc, List.singleton_append,
        List.splitOn_append_cons_self_of_not_mem hline, ih hlines, List.cons_append]

/-- **A log file has one line for each event**, which ends with the only line break in it, in the
order in which the events were recorded.  A line is read back as its event, whatever characters are in
the texts of the event and whatever the time was; so all events are read back from the file. -/
theorem logFile_faithful (events : List (Diagnostic × BitVec 128))
    (h : ∀ e ∈ events, e.1.HasWordIndex) :
    (logFile events).splitOn '\n' = events.map (fun e => e.1.logLine e.2) ++ [[]] ∧
      (∀ e ∈ events, Json.Unbroken (e.1.logLine e.2) ∧ ofLine? (e.1.logLine e.2) = some e.1) ∧
      ((logFile events).splitOn '\n').dropLast.map ofLine? = events.map fun e => some e.1 := by
  have hlines : (logFile events).splitOn '\n' = events.map (fun e => e.1.logLine e.2) ++ [[]] := by
    rw [logFile, foldl_record, List.nil_append, splitOn_flatMap_lines]
    intro line hline
    obtain ⟨e, he, rfl⟩ := List.mem_map.1 hline
    exact (e.1.unbroken_logLine e.2 (h e he)).not_mem_newline
  have hread : ∀ e ∈ events, ofLine? (e.1.logLine e.2) = some e.1 :=
    fun e he => e.1.ofLine?_logLine e.2 (h e he)
  refine ⟨hlines, fun e he => ⟨e.1.unbroken_logLine e.2 (h e he), hread e he⟩, ?_⟩
  rw [hlines, List.dropLast_concat, List.map_map, Function.comp_def]
  exact List.map_congr_left hread

/-- A rule whose condition would end its text and its line, and a document under a name with other
than plain characters, at a time beyond the integers that are kept. -/
def hostileEvents : List (Diagnostic × BitVec 128) :=
  [(ofRule .conditionError "Form\"" "clean_\\" (some 18446744073709551615)
      "\",\n\r\t\x08\x0c\x00\x1f", 1750000000000),
    (general .loaded "Ä\u2028\x7f😀", 340282366920938463463374607431768211455)]

theorem logFile_faithful_hostileTexts :
    (∀ e ∈ hostileEvents, e.1.HasWordIndex) ∧
      (logFile hostileEvents).splitOn '\n' =
        hostileEvents.map (fun e => e.1.logLine e.2) ++ [[]] ∧
      ((logFile hostileEvents).splitOn '\n').dropLast.map ofLine? =
        hostileEvents.map fun e => some e.1 := by
  have hindex : ∀ e ∈ hostileEvents, e.1.HasWordIndex := by
    simp [hostileEvents, HasWordIndex, ofRule, general]
  obtain ⟨hlines, -, hevents⟩ := logFile_faithful hostileEvents hindex
  exact ⟨hindex, hlines, hevents⟩

end Diagnostic

end FormValidation
