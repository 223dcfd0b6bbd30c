import AsmLens.Assoc
import AsmLens.Command.Compile
import AsmLens.Command.Environment
import AsmLens.CommandLine.Compile
import AsmLens.CommandLine.Invocation
import AsmLens.CommandLine.Items
import AsmLens.CommandLine.Shortened
import AsmLens.CommandLine.Switch
import AsmLens.Config.Settings
import AsmLens.Config.Variables
import AsmLens.Console
import AsmLens.Fault
import AsmLens.FilePath
import AsmLens.Files
import AsmLens.Flag.Basic
import AsmLens.Flag.Sequence
import AsmLens.Flag.Spelling
import AsmLens.Json.Printer
import AsmLens.Json.Reader
import AsmLens.Listing
import AsmLens.Log
import AsmLens.Main
import AsmLens.Number.Binary64
import AsmLens.Number.Digits
import AsmLens.Number.Shortest
import AsmLens.Options.Basic
import AsmLens.Options.Change
import AsmLens.Options.Language
import AsmLens.Options.Resolve
import AsmLens.Pipeline.Execution
import AsmLens.Pipeline.Failure
import AsmLens.Pipeline.Stage
import AsmLens.Program
import AsmLens.Question
import AsmLens.Retry
import AsmLens.Session.Basic
import AsmLens.Session.Desk
import AsmLens.Session.Editor
import AsmLens.Session.Report
import AsmLens.Session.ReportLayout
import AsmLens.Session.Settings
import AsmLens.Session.Snippet
import AsmLens.Session.Template
import AsmLens.Text.Blank
import AsmLens.Text.Escapes
import AsmLens.Text.Front
import AsmLens.Text.Hex
import AsmLens.Text.Lines
import AsmLens.Text.Markup
import AsmLens.Text.Numeral
import AsmLens.Text.Printable
import AsmLens.Text.Quoted
import AsmLens.Text.Range
import AsmLens.Text.Room
import AsmLens.Text.Table
import AsmLens.Text.Tabs
import AsmLens.Text.Utf8
import AsmLens.Text.Width
import AsmLens.Text.Words
import AsmLens.Text.Wrap
import AsmLens.Toml.Document
import AsmLens.Toml.Scalar
import AsmLens.Tools
import AsmLens.Validation
import AsmLens.Value.Basic
import AsmLens.Value.Merge
import AsmLens.Value.Moment
import AsmLens.Proofs.PipelineExecution
import AsmLens.Proofs.RetryTrace
import AsmLens.Proofs.OptionsResolution
import AsmLens.Proofs.FlagSequence
import AsmLens.Proofs.OptionsHistory
import AsmLens.Proofs.ShownPipeline
import AsmLens.Proofs.DistinctKeys
import AsmLens.Proofs.DocumentTables
import AsmLens.Proofs.FieldReading
import AsmLens.Proofs.SettingsLayers
import AsmLens.Proofs.FilePlaces
import AsmLens.Proofs.SessionFrames
import AsmLens.Proofs.CompileRun
import AsmLens.Proofs.CompileEffects
import AsmLens.Proofs.PrintedCode
import AsmLens.Proofs.FailedLaunches
import AsmLens.Proofs.SavedCode
import AsmLens.Proofs.SnippetHistory
import AsmLens.Proofs.FittingLines
import AsmLens.Proofs.EncodedText
import AsmLens.Proofs.JsonRoundTrip
import AsmLens.Proofs.JsonLines
import AsmLens.Proofs.UnbrokenTexts
import AsmLens.Proofs.ReportData
import AsmLens.Proofs.ReportPages
import AsmLens.Proofs.WordLines
import AsmLens.Proofs.ToolSurvey
import AsmLens.Proofs.EditorLaunches
import AsmLens.Proofs.SeededSnippet
import AsmLens.Proofs.SnippetRemoval
import AsmLens.Proofs.TabColumns
import AsmLens.Proofs.DecodedParts
import AsmLens.Proofs.ListedLines
import AsmLens.Proofs.BlockComment
import AsmLens.Proofs.HeaderLine
import AsmLens.Proofs.DistinctWarnings
import AsmLens.Proofs.OptionsUpdate
import AsmLens.Proofs.LayeredPaths
import AsmLens.Proofs.LayerLaws
import AsmLens.Proofs.EncodingSwitch
import AsmLens.Proofs.RefusedData
import AsmLens.Proofs.EditorCommand
import AsmLens.Proofs.FailedEdits
import AsmLens.Proofs.ShownFlags
import AsmLens.Proofs.ReportedTools
import AsmLens.Proofs.SpelledFlags
import AsmLens.Proofs.NamedFlags
import AsmLens.Proofs.RereadSnippet
import AsmLens.Proofs.OptionOccurrences
import AsmLens.Proofs.ListedArguments
import AsmLens.Proofs.JoinedValues
