import IrOptimizer.Main
import IrOptimizer.Json.Decode
import IrOptimizer.Program.FileTree
import IrOptimizer.Proofs.Optimizer
import IrOptimizer.Proofs.Transform.FoldConstants
import IrOptimizer.Proofs.Pass.Pipeline
import IrOptimizer.Proofs.Transform.Standard
import IrOptimizer.Proofs.Chunk
import IrOptimizer.Proofs.InMemory
import IrOptimizer.Proofs.SplitInput
import IrOptimizer.Proofs.Precedence
import IrOptimizer.Proofs.Unregistered
import IrOptimizer.Proofs.Program.Run
import IrOptimizer.Proofs.Program.Files
import IrOptimizer.Proofs.Program.Report
import IrOptimizer.Proofs.Text.LineStart
import IrOptimizer.Proofs.Rendering
import IrOptimizer.Proofs.SplitOutput
import IrOptimizer.Proofs.Json.Lexical
import IrOptimizer.Proofs.Json.Nesting
import IrOptimizer.Proofs.Generic.Levels
import IrOptimizer.Proofs.Json.Normalizing
import IrOptimizer.Proofs.Json.RoundTrip
import IrOptimizer.Proofs.Registration
import IrOptimizer.Proofs.Pass.Name
import IrOptimizer.Proofs.Pass.Letters
import IrOptimizer.Proofs.Generic.Offences
import IrOptimizer.Proofs.Generic.Attempts
import IrOptimizer.Proofs.Generic.Fronts
import IrOptimizer.Proofs.Generic.Viability
import IrOptimizer.Proofs.Generic.Expectation
import IrOptimizer.Proofs.Nodes
import IrOptimizer.Proofs.Transform.DoubleLiteral
import IrOptimizer.Proofs.Transform.DeadCode
import IrOptimizer.Proofs.Transform.Fixpoint
import IrOptimizer.Proofs.Transform.StripLocation
import IrOptimizer.Proofs.Transform.DoubledSums
import IrOptimizer.Proofs.Pass.Registry
import IrOptimizer.Proofs.Pass.Requests
import IrOptimizer.Proofs.RegistrationHistory
import IrOptimizer.Proofs.Sink
import IrOptimizer.Proofs.Partition
import IrOptimizer.Toy.Grammar
import IrOptimizer.Proofs.Toy.Words
import IrOptimizer.Proofs.Toy.Parse
import IrOptimizer.Proofs.Generic.StringLiteral
