import SimpleC.CommandLine.FileTree
import SimpleC.Cursor.Script
import SimpleC.Main
import SimpleC.SymbolTable.Family
import SimpleC.Token.Item
import SimpleC.Proofs.Grammar.Derivation
import SimpleC.Proofs.Phrase.Basic
import SimpleC.Proofs.Phrase.NearestElse
import SimpleC.Proofs.Phrase.Derivation
import SimpleC.Proofs.Recognizer.Phrases
import SimpleC.Proofs.Checking.Basic
import SimpleC.Proofs.Phrase.Node
import SimpleC.Proofs.Recognizer.Statements
import SimpleC.Proofs.Recognizer.Reading
import SimpleC.Proofs.Recognizer.ValueReadings
import SimpleC.Proofs.Checking.Steps
import SimpleC.Proofs.Checking.Rulings
import SimpleC.Proofs.Recognizer.StatementReadings
import SimpleC.Proofs.Recognizer.ProgramReadings
import SimpleC.Proofs.Language
import SimpleC.Proofs.StaticSemantics.Acceptance
import SimpleC.Proofs.Phrase.Unique
import SimpleC.Proofs.Checking.Passes
import SimpleC.Proofs.StagedCheck
import SimpleC.Proofs.Phrase.Spelling
import SimpleC.Proofs.Hoisting.Basic
import SimpleC.Proofs.Hoisting.StagedCheck
import SimpleC.Proofs.DerivationTree.Basic
import SimpleC.Proofs.DerivationTree.NearestElse
import SimpleC.Proofs.DerivationTree.Phrase
import SimpleC.Proofs.DerivationTree.Unique
import SimpleC.Proofs.DerivationTree.Recorded
import SimpleC.Proofs.Course.Follows
import SimpleC.Proofs.Course.Asking
import SimpleC.Proofs.Course.Recognition
import SimpleC.Proofs.Course.Run
import SimpleC.Proofs.Switches
import SimpleC.Proofs.Declarations.Scan
import SimpleC.Proofs.Declarations.Run
import SimpleC.Proofs.DerivationTree.Expansion
import SimpleC.Proofs.DerivationTree.Truncated
import SimpleC.Proofs.DerivationTree.Failed
import SimpleC.Proofs.Course.Extension
import SimpleC.Proofs.Course.Twin
import SimpleC.Proofs.Lookahead
import SimpleC.Proofs.Grammar.Productive
import SimpleC.Proofs.ViablePrefix
import SimpleC.Proofs.Composition
import SimpleC.Proofs.Course.Expressions
import SimpleC.Proofs.Warnings.Scan
import SimpleC.Proofs.Warnings.Run
import SimpleC.Proofs.Course.InPlace
import SimpleC.Proofs.Course.Passing
import SimpleC.Proofs.Diagnosis.Basic
import SimpleC.Proofs.Diagnosis.Run
import SimpleC.Proofs.Renaming.Basic
import SimpleC.Proofs.Renaming.Steps
import SimpleC.Proofs.Renaming.Run
import SimpleC.Proofs.Weakening.Basic
import SimpleC.Proofs.Weakening.Moves
import SimpleC.Proofs.Weakening.Run
import SimpleC.Proofs.DerivationTree.Recording
import SimpleC.Proofs.DerivationTree.Unrecorded
import SimpleC.Proofs.DerivationTree.Trace
import SimpleC.Proofs.Flattening.Basic
import SimpleC.Proofs.Flattening.Run
import SimpleC.Proofs.NodeTypes.Basic
import SimpleC.Proofs.NodeTypes.Moves
import SimpleC.Proofs.NodeTypes.Run
import SimpleC.Proofs.SameFindings
import SimpleC.Proofs.WireForm.Basic
import SimpleC.Proofs.WireForm.Classified
import SimpleC.Proofs.WireForm.Run
import SimpleC.Proofs.SymbolTable.History
import SimpleC.Proofs.CommandLine.Session
import SimpleC.Proofs.WireForm.Text
import SimpleC.Proofs.DerivationTree.Parts
import SimpleC.Proofs.DerivationTree.Addresses
import SimpleC.Proofs.DerivationTree.Json
import SimpleC.Proofs.Diagram.Tree
import SimpleC.Proofs.Diagram.Identifier
import SimpleC.Proofs.Diagram.Labels
import SimpleC.Proofs.DerivationTree.Outline
import SimpleC.Proofs.DerivationTree.Effort
import SimpleC.Proofs.Effort
import SimpleC.Proofs.Cursor.Script
