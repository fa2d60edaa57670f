import DeployCheck.Logging
import DeployCheck.Main
import DeployCheck.Proofs.Tree.Layout
import DeployCheck.Proofs.Tree.Lowering
import DeployCheck.Proofs.Violations
import DeployCheck.Proofs.Analysis.Dependencies
import DeployCheck.Proofs.Analysis.Tables
import DeployCheck.Proofs.Analysis.Work
import DeployCheck.Proofs.Analysis.Answers
import DeployCheck.Proofs.Binding.Declaring
import DeployCheck.Proofs.Binding.Scoping
import DeployCheck.Proofs.Analysis.Simulation
import DeployCheck.Proofs.Binding.Alike
import DeployCheck.Proofs.Binding.Blocks
import DeployCheck.Proofs.Binding.Permuting
import DeployCheck.Proofs.Analysis.Order
import DeployCheck.Proofs.Binding.Sorts
import DeployCheck.Proofs.Binding.Members
import DeployCheck.Proofs.Binding.Reports
import DeployCheck.Proofs.Binding.Duplicates
import DeployCheck.Proofs.Binding.Lexical
import DeployCheck.Proofs.Binding.Clashes
import DeployCheck.Proofs.Analysis.Reads
import DeployCheck.Proofs.Analysis.RuntimeCalls
import DeployCheck.Proofs.Tree.PostOrder
import DeployCheck.Proofs.Tree.ReadBack
import DeployCheck.Proofs.Failures
import DeployCheck.Proofs.Folding.Spelling
import DeployCheck.Proofs.Folding.Lowering
import DeployCheck.Proofs.Folding.Binding
import DeployCheck.Proofs.Folding.Analysis
import DeployCheck.Proofs.Folding.Compilation
import DeployCheck.Proofs.Analysis.Parents
import DeployCheck.Proofs.Analysis.Catalogs
import DeployCheck.Proofs.Json.Tokens
import DeployCheck.Proofs.Json.Spelling
import DeployCheck.Proofs.Json.Fields
import DeployCheck.Proofs.Program.Documents
import DeployCheck.Proofs.Program.Texts
import DeployCheck.Proofs.Parentheses.Check
import DeployCheck.Proofs.Binding.Positions
import DeployCheck.Proofs.Binding.Denoting
import DeployCheck.Proofs.Analysis.References
import DeployCheck.Proofs.Analysis.Marks
import DeployCheck.Proofs.Suggestions
import DeployCheck.Proofs.Analysis.Warnings
import DeployCheck.Proofs.Analysis.Frames
import DeployCheck.Proofs.Indexing.Check
import DeployCheck.Proofs.Types.RoundTrip
import DeployCheck.Proofs.Binding.Qualifying
import DeployCheck.Proofs.Types.Overriding
import DeployCheck.Proofs.Listing
import DeployCheck.Proofs.Source.Lines
import DeployCheck.Proofs.Types.Members
import DeployCheck.Proofs.Messages
import DeployCheck.Proofs.Tree.Covering
import DeployCheck.Proofs.Reports.Locations
import DeployCheck.Proofs.Reports.Lines
import DeployCheck.Proofs.Analysis.Hops
