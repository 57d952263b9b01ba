import GlobPattern.Command
import GlobPattern.Operation
import GlobPattern.Main
import GlobPattern.Uri
import GlobPattern.Workspace
import GlobPattern.Proofs.Layout
import GlobPattern.Proofs.Rule
import GlobPattern.Proofs.Lexer.Outcome
import GlobPattern.Proofs.Lexer.Safety
import GlobPattern.Proofs.Lexeme.Language
import GlobPattern.Proofs.Reading
import GlobPattern.Proofs.Grammar
import GlobPattern.Proofs.Lexeme.Unclaimed
import GlobPattern.Proofs.Segmentation
import GlobPattern.Proofs.Summary
import GlobPattern.Proofs.Rereading
import GlobPattern.Proofs.Boundary
import GlobPattern.Proofs.Suffix
import GlobPattern.Proofs.Escaping
import GlobPattern.Proofs.GroupOpener
import GlobPattern.Proofs.Folding
import GlobPattern.Proofs.FallThrough
import GlobPattern.Proofs.Negation
import GlobPattern.Proofs.Diagnostic.Range
import GlobPattern.Proofs.Diagnostic.Degradation
import GlobPattern.Proofs.Diagnostic.Placement
import GlobPattern.Proofs.Lexer.Extension
import GlobPattern.Proofs.Lexer.Growth
import GlobPattern.Proofs.SourceReport
import GlobPattern.Proofs.SourceReport.Alignment
import GlobPattern.Proofs.CharClass.Extent
import GlobPattern.Proofs.CharClass.Value
import GlobPattern.Proofs.CommandOutput
import GlobPattern.Proofs.ConfigFile
import GlobPattern.Proofs.Dotfile
import GlobPattern.Proofs.RuleSet.Edit
import GlobPattern.Proofs.Dump
import GlobPattern.Proofs.ContextStack
import GlobPattern.Proofs.Passage
import GlobPattern.Proofs.Lexer.Braces
