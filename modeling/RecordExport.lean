import RecordExport.CommandLine.Arguments
import RecordExport.CommandLine.Directory
import RecordExport.CommandLine.Run
import RecordExport.Context
import RecordExport.Decimal
import RecordExport.Diagnostic
import RecordExport.Json.Decoder
import RecordExport.Json.Reading
import RecordExport.Json.Scan
import RecordExport.Json.Value
import RecordExport.Kind
import RecordExport.Memo
import RecordExport.Record.Codec
import RecordExport.Record.Dialog
import RecordExport.Record.DialogPlan
import RecordExport.Record.Object
import RecordExport.Record.Project
import RecordExport.Render.Engine
import RecordExport.Render.Program
import RecordExport.Render.Session
import RecordExport.RenderError
import RecordExport.Resolver.Basic
import RecordExport.Resolver.DailyRoutine
import RecordExport.Resolver.Dialog
import RecordExport.Resolver.FieldList
import RecordExport.Resolver.Fields
import RecordExport.Resolver.Filling
import RecordExport.Resolver.Language
import RecordExport.Resolver.Possessions
import RecordExport.Resolver.Probe
import RecordExport.Resolver.Snippets
import RecordExport.Resolver.Standard
import RecordExport.Service.LanguageKeys
import RecordExport.Service.Rehearsal
import RecordExport.Service.ScriptSections
import RecordExport.Service.Services
import RecordExport.Settings
import RecordExport.Template.Block
import RecordExport.Template.BuiltIn
import RecordExport.Template.CharSet
import RecordExport.Template.Expression
import RecordExport.Template.Machine
import RecordExport.Template.MarkerLine
import RecordExport.Template.NameExpr
import RecordExport.Template.Namespace
import RecordExport.Template.Pattern
import RecordExport.Template.Registry
import RecordExport.Template.Scalar
import RecordExport.Template.Token
import RecordExport.Template.Validation
import RecordExport.Text.Basic
import RecordExport.Text.Blank
import RecordExport.Text.Identifier
import RecordExport.Text.Letter
import RecordExport.Text.Lines
import RecordExport.Text.LowerCase
import RecordExport.Toml.Reader
import RecordExport.Toml.Table
import RecordExport.Main
import RecordExport.Proofs.Dialog.Discovery
import RecordExport.Proofs.Dialog.Flow
import RecordExport.Proofs.Dialog.Execution
import RecordExport.Proofs.LanguageKeys.Table
import RecordExport.Proofs.LanguageKeys.Sources
import RecordExport.Proofs.Render.Contract
import RecordExport.Proofs.Render.Transcript
import RecordExport.Proofs.Render.Likeness
import RecordExport.Proofs.Render.Alike
import RecordExport.Proofs.Render.Cast
import RecordExport.Proofs.Render.Course
import RecordExport.Proofs.Render.Pipeline
import RecordExport.Proofs.Render.Nesting
import RecordExport.Proofs.Render.Cancellation
import RecordExport.Proofs.LanguageKeys.Printed
import RecordExport.Proofs.Snippets.Functions
import RecordExport.Proofs.Lookups.Noting
import RecordExport.Proofs.Lookups.Sparing
import RecordExport.Proofs.Lookups.Blanking
import RecordExport.Proofs.Conditions.Dropped
import RecordExport.Proofs.Conditions.Inert
import RecordExport.Proofs.Fields.Shape
import RecordExport.Proofs.Render.Foreign
import RecordExport.Proofs.Template.Names
import RecordExport.Proofs.Template.Nests
import RecordExport.Proofs.Validation.Gates
import RecordExport.Proofs.Validation.SharedEnds
import RecordExport.Proofs.Validation.Unpaired
import RecordExport.Proofs.Validation.CutShort
import RecordExport.Proofs.Render.Depth
import RecordExport.Proofs.Functions.Once
import RecordExport.Proofs.Routine.Functions
import RecordExport.Proofs.Template.Lexing
import RecordExport.Proofs.Template.OnePass
import RecordExport.Proofs.Template.BlockTree
import RecordExport.Proofs.Template.ListBlocks
import RecordExport.Proofs.Template.KeptLines
import RecordExport.Proofs.LanguageKeys.Fetching
import RecordExport.Proofs.LanguageKeys.ObjectKeys
import RecordExport.Proofs.LanguageKeys.LanguageFile
import RecordExport.Proofs.Fields.Export
import RecordExport.Proofs.Fields.Missing
import RecordExport.Proofs.Render.Ahead
import RecordExport.Proofs.Lookups.Possessions
import RecordExport.Proofs.Lookups.Removal
import RecordExport.Proofs.Render.Additions
import RecordExport.Proofs.Dialog.Dangling
import RecordExport.Proofs.Literals.Escaping
import RecordExport.Proofs.Scripts.Sections
import RecordExport.Proofs.Template.Refitting
import RecordExport.Proofs.Dialog.Doubles
import RecordExport.Proofs.Snippets.Texts
import RecordExport.Proofs.Snippets.Unused
import RecordExport.Proofs.Diagnostics.Collecting
import RecordExport.Proofs.Template.Namespaces
import RecordExport.Proofs.Json.Numbers
import RecordExport.Proofs.Json.Written
import RecordExport.Proofs.Records.Written
import RecordExport.Proofs.Literals.Strings
import RecordExport.Proofs.Template.Laid
import RecordExport.Proofs.Fields.Listing
import RecordExport.Proofs.Fields.ItemExport
import RecordExport.Proofs.Fields.ReadBack
import RecordExport.Proofs.Lookups.Cached
import RecordExport.Proofs.Template.Rounds
import RecordExport.Proofs.Template.ByteCursors
import RecordExport.Proofs.Patterns.WholeNames
