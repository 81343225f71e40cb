import FormValidation.Calendar.Date
import FormValidation.Calendar.Moment
import FormValidation.Calendar.Written
import FormValidation.Condition.Access
import FormValidation.Condition.Arithmetic
import FormValidation.Condition.Basic
import FormValidation.Condition.Eval
import FormValidation.Condition.Expr
import FormValidation.Condition.Fault
import FormValidation.Condition.Function
import FormValidation.Condition.Lexer
import FormValidation.Condition.Method
import FormValidation.Condition.Operator
import FormValidation.Condition.Reader
import FormValidation.Condition.Scan
import FormValidation.Condition.Token
import FormValidation.Condition.Walk
import FormValidation.Diagnostic
import FormValidation.Digest.Sha256
import FormValidation.Engine.Basic
import FormValidation.Engine.Cache
import FormValidation.Engine.Hooks
import FormValidation.Engine.Session
import FormValidation.Json.Basic
import FormValidation.Json.Quoted
import FormValidation.Json.Reader
import FormValidation.Json.Token
import FormValidation.Json.Writer
import FormValidation.KeyMap
import FormValidation.Number.Decimal
import FormValidation.Number.Double
import FormValidation.Number.Numeral
import FormValidation.Rule.Basic
import FormValidation.Rule.Document
import FormValidation.Rule.Form
import FormValidation.Rule.Key
import FormValidation.Rule.Lint
import FormValidation.Source.Basic
import FormValidation.Source.Fault
import FormValidation.Source.Files
import FormValidation.Source.Format
import FormValidation.Source.Generation
import FormValidation.Source.Path
import FormValidation.Source.Settings
import FormValidation.Source.State
import FormValidation.Source.Store
import FormValidation.Text.Blank
import FormValidation.Text.Case
import FormValidation.Text.CaseTable
import FormValidation.Toml.Reader
import FormValidation.Toml.Scalar
import FormValidation.Toml.Table
import FormValidation.Toml.Token
import FormValidation.Toml.Value
import FormValidation.Validator.Compiled
import FormValidation.Validator.Field
import FormValidation.Validator.Form
import FormValidation.Value.Basic
import FormValidation.Value.Equality
import FormValidation.Value.Order
import FormValidation.Value.Text
import FormValidation.Proofs.Condition.Noninterference
import FormValidation.Proofs.Validator.RuleIndependence
import FormValidation.Proofs.Source.Refresh
import FormValidation.Proofs.Source.Transparency
import FormValidation.Proofs.Engine.CacheAgreement
import FormValidation.Proofs.Condition.Grammar
import FormValidation.Proofs.Condition.ReaderSoundness
import FormValidation.Proofs.Condition.ReaderCompleteness
import FormValidation.Proofs.Condition.GrammarExactness
import FormValidation.Proofs.Source.OutageReports
import FormValidation.Proofs.Source.GenerationLaw
import FormValidation.Proofs.Condition.Depth
import FormValidation.Proofs.Condition.DeepConditions
import FormValidation.Proofs.Engine.CacheHistory
import FormValidation.Proofs.Engine.HookSlots
import FormValidation.Proofs.Validator.LintAgreement
import FormValidation.Proofs.Condition.WellFormed
import FormValidation.Proofs.Condition.RoundTrip
import FormValidation.Proofs.Condition.StrictPlaces
import FormValidation.Proofs.Value.OrderAgreement
import FormValidation.Proofs.Validator.FormBookkeeping
import FormValidation.Proofs.Validator.FirstFailure
import FormValidation.Proofs.Condition.ComparisonChains
import FormValidation.Proofs.Validator.ValidatorAgreement
import FormValidation.Proofs.Engine.Admission
import FormValidation.Proofs.Engine.AttachmentReport
import FormValidation.Proofs.Source.FailedReads
import FormValidation.Proofs.Condition.ConnectiveLaws
import FormValidation.Proofs.Condition.ExactIntegers
import FormValidation.Proofs.Condition.Extremes
import FormValidation.Proofs.Value.EqualityLaws
import FormValidation.Proofs.Condition.KeyedValues
import FormValidation.Proofs.Value.KeyedData
import FormValidation.Proofs.Condition.MapReadings
import FormValidation.Proofs.Calendar.Chronology
import FormValidation.Proofs.Condition.SequenceParts
import FormValidation.Proofs.Calendar.IsoDates
import FormValidation.Proofs.Condition.Offsets
import FormValidation.Proofs.Condition.QuotedTexts
import FormValidation.Proofs.Condition.OffsetReading
import FormValidation.Proofs.Condition.PlaceReading
import FormValidation.Proofs.Condition.FaultClasses
import FormValidation.Proofs.Condition.FaultPlaces
import FormValidation.Proofs.Condition.WrittenIntegers
import FormValidation.Proofs.Calendar.DayCounts
import FormValidation.Proofs.Value.JsonData
import FormValidation.Proofs.Json.TokenReading
import FormValidation.Proofs.Rule.GroupKeys
import FormValidation.Proofs.Json.TextRoundTrip
import FormValidation.Proofs.Rule.Serialization
import FormValidation.Proofs.Engine.LogFile
import FormValidation.Proofs.Source.EarlyExits
