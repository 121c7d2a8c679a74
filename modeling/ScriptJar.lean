import ScriptJar.Build.Correction
import ScriptJar.Build.Diagnostic
import ScriptJar.Build.Job
import ScriptJar.Build.Package
import ScriptJar.Build.Session
import ScriptJar.Build.Staging
import ScriptJar.Build.Toolchain
import ScriptJar.Build.World
import ScriptJar.CommandLine.Invocation
import ScriptJar.CommandLine.Run
import ScriptJar.Digest
import ScriptJar.Directive
import ScriptJar.Directive.Header
import ScriptJar.Failure
import ScriptJar.FileTree.Basic
import ScriptJar.FileTree.Error
import ScriptJar.FileTree.Update
import ScriptJar.Graph.Basic
import ScriptJar.Graph.Load
import ScriptJar.JavaSource
import ScriptJar.Jdk
import ScriptJar.Json.Basic
import ScriptJar.Json.Reader
import ScriptJar.Library.Basic
import ScriptJar.Library.Pattern
import ScriptJar.Library.Resolve
import ScriptJar.Main
import ScriptJar.Module
import ScriptJar.Path
import ScriptJar.Proofs.BuildRun
import ScriptJar.Proofs.Generation
import ScriptJar.Proofs.Lexemes
import ScriptJar.Proofs.LocatedLines
import ScriptJar.Proofs.Membership
import ScriptJar.Proofs.Nesting
import ScriptJar.Proofs.Paths
import ScriptJar.Proofs.Places
import ScriptJar.Proofs.Rejection
import ScriptJar.Proofs.Repair
import ScriptJar.Proofs.ScriptReading
import ScriptJar.Proofs.Selection
import ScriptJar.Proofs.TextFacts
import ScriptJar.Reference
import ScriptJar.Settings.Basic
import ScriptJar.Settings.Environment
import ScriptJar.Settings.File
import ScriptJar.Statement
import ScriptJar.Substitution
import ScriptJar.Suggestion
import ScriptJar.Text.Alphanumeric
import ScriptJar.Text.Basic
import ScriptJar.Text.Blank
import ScriptJar.Text.Decimal
import ScriptJar.Text.EditDistance
import ScriptJar.Text.LowerCase
import ScriptJar.Text.Ranges
import ScriptJar.Text.Utf8
import ScriptJar.Text.Word
import ScriptJar.Proofs.BuildLog
import ScriptJar.Proofs.Freshness
import ScriptJar.Proofs.Exhaustion
import ScriptJar.Proofs.Runnable
import ScriptJar.Proofs.HeaderText
import ScriptJar.Proofs.WrittenDirectives
import ScriptJar.Proofs.Quoting
import ScriptJar.Proofs.DonorTrees
import ScriptJar.Proofs.Merging
import ScriptJar.Proofs.JsonGrammar
import ScriptJar.Proofs.SettingsFile
import ScriptJar.Proofs.Lockstep
import ScriptJar.Proofs.Containment
import ScriptJar.Proofs.ToolOutput
import ScriptJar.Proofs.OpenScripts
import ScriptJar.Proofs.LineCorrection
import ScriptJar.Proofs.SplitLocality
import ScriptJar.Proofs.StatementLayout
import ScriptJar.Proofs.CommentContents
import ScriptJar.Proofs.CandidateOrder
import ScriptJar.Proofs.WholeSegments
import ScriptJar.Proofs.Walks
import ScriptJar.Proofs.Precedence
import ScriptJar.Proofs.WholeText
import ScriptJar.Proofs.ClosestNames
import ScriptJar.Proofs.ClassFiles
import ScriptJar.Proofs.SettingsFields
import ScriptJar.Proofs.StagingLifetime
import ScriptJar.Proofs.Occurrences
import ScriptJar.Proofs.ClassPath
import ScriptJar.Proofs.HeaderWords
