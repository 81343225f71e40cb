import FormValidation.Condition.Function
import FormValidation.Text.Case

/-!
# Methods

What texts, maps, dates, moments and the clock can be asked. Every type has its own methods; a
method that the type does not have is a fault before its arguments are looked at.
-/

namespace FormValidation.Value

/-! ## Texts -/

/-- Whether a text begins (`atStart`) or ends with another. -/
def hasEnd (atStart : Bool) (s pattern : String) : Bool :=
  if atStart then pattern.toList.isPrefixOf s.toList else pattern.toList.isSuffixOf s.toList

/-- The texts in a list of values, if it holds nothing else. -/
def texts? : List Value → Option (List String)
  | [] => some []
  | .text s :: rest => (texts? rest).map (s :: ·)
  | _ :: _ => none

/-- Whether a text begins or ends with a pattern, or with one of a list of patterns. -/
def matchesEnd (name : String) (atStart : Bool) (s : String) (pattern : Value) :
    Except Fault Value :=
  match pattern with
  | .text pattern => .ok (.bool (hasEnd atStart s pattern))
  | .list candidates =>
    match texts? candidates with
    | some patterns => .ok (.bool (patterns.any (hasEnd atStart s)))
    | none => .error (.argument (.candidateNotText name))
  | v => .error (.argument (.patternNotText name v.kind))

/-- The methods of texts. -/
def textMethod (s : String) (name : String) (arguments : List Value) : Except Fault Value :=
  match name with
  | "startswith" => oneArgument name arguments >>= matchesEnd name true s
  | "endswith" => oneArgument name arguments >>= matchesEnd name false s
  | "contains" => oneArgument name arguments >>= fun v => ((Value.text s).contains v).map .bool
  | "lower" => (noArguments name arguments).map fun _ =>
      .text (String.ofList (Text.lower s.toList))
  | "upper" => (noArguments name arguments).map fun _ =>
      .text (String.ofList (Text.upper s.toList))
  | "strip" => (noArguments name arguments).map fun _ =>
      .text (String.ofList (Text.trim s.toList))
  | "isdigit" => (noArguments name arguments).map fun _ =>
      .bool (!s.isEmpty && s.toList.all Char.isDigit)
  | _ => .error (.unknownMethod .text name)

/-! ## Maps -/

/-- The value under a key, or the given one if there is none; only texts are keys. -/
def getOr (entries : List (String × Value)) (key default : Value) : Value :=
  match key with
  | .text key => (Entries.find? key entries).getD default
  | _ => default

/-- The methods of maps. -/
def mapMethod (entries : List (String × Value)) (name : String) (arguments : List Value) :
    Except Fault Value :=
  match name with
  | "get" =>
    match arguments with
    | [key, default] => .ok (getOr entries key default)
    | _ => (oneArgument name arguments).map fun key => getOr entries key .null
  | "keys" => (noArguments name arguments).map fun _ => .list (entries.map fun e => .text e.1)
  | "values" => (noArguments name arguments).map fun _ => .list (entries.map (·.2))
  | _ => .error (.unknownMethod .map name)

/-! ## Dates, moments and the clock -/

/-- The methods of dates. -/
def dateMethod (d : Date) (name : String) (arguments : List Value) : Except Fault Value :=
  match name with
  | "isoformat" => (noArguments name arguments).map fun _ => .text (String.ofList d.text)
  | _ => .error (.unknownMethod .date name)

/-- The methods of moments. -/
def momentMethod (m : Moment) (name : String) (arguments : List Value) : Except Fault Value :=
  match name with
  | "date" => (noArguments name arguments).map fun _ => .date m.date
  | "isoformat" => (noArguments name arguments).map fun _ => .text (String.ofList m.text)
  | _ => .error (.unknownMethod .moment name)

/-- The value as a date: a date, the local date of a moment, or a text that spells either. -/
def toDate (v : Value) : Except Fault Date :=
  match v with
  | .date d => .ok d
  | .moment m => .ok m.date
  | .text s =>
    match (Date.read? s.toList).orElse fun _ => (Moment.read? s.toList).map Moment.date with
    | some d => .ok d
    | none => .error (.argument (.notDate s))
  | v => .error (.argument (.noDate v.kind))

/-- The value as a moment: a moment, or a text that spells one. -/
def toMoment (v : Value) : Except Fault Moment :=
  match v with
  | .moment m => .ok m
  | .text s =>
    match Moment.read? s.toList with
    | some m => .ok m
    | none => .error (.argument (.notMoment s))
  | v => .error (.argument (.noMoment v.kind))

/-- The methods of the clock. -/
def clockMethod (c : Clock) (name : String) (arguments : List Value) : Except Fault Value :=
  match name with
  | "now" => (noArguments name arguments).map fun _ => .moment c.now
  | "localdate" => (noArguments name arguments).map fun _ => .date c.today
  | "today" => (noArguments name arguments).map fun _ => .date c.today
  | "parse_date" => (oneArgument name arguments >>= toDate).map .date
  | "parse_datetime" => (oneArgument name arguments >>= toMoment).map .moment
  | "days_until" =>
    (oneArgument name arguments >>= toDate).map fun d => .int (Int64.ofInt (c.daysUntil d))
  | _ => .error (.unknownMethod .clock name)

/-- The value of a method call. -/
def callMethod (receiver : Value) (name : String) (arguments : List Value) :
    Except Fault Value :=
  match receiver with
  | .text s => textMethod s name arguments
  | .map entries => mapMethod entries name arguments
  | .date d => dateMethod d name arguments
  | .moment m => momentMethod m name arguments
  | .clock c => clockMethod c name arguments
  | v => .error (.unknownMethod v.kind name)

end FormValidation.Value
