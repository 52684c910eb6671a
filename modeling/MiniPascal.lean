import MiniPascal.Main
import MiniPascal.Scope.Graph
import MiniPascal.Tree.Decode
import MiniPascal.Proofs.Parse.Exactness
import MiniPascal.Proofs.Parse.FirstError
import MiniPascal.Proofs.Run.Isolation
import MiniPascal.Proofs.Run.Soundness
import MiniPascal.Proofs.Run.RecursionLimit
import MiniPascal.Proofs.Run.Declarations
import MiniPascal.Proofs.Run.TypedStore
import MiniPascal.Proofs.Run.BoundedSink
import MiniPascal.Proofs.Run.Homes
import MiniPascal.Proofs.Tree.Reread
import MiniPascal.Proofs.Run.Completed
import MiniPascal.Proofs.Run.Sessions
import MiniPascal.Proofs.Run.Brackets
import MiniPascal.Proofs.Layout.Parsing
import MiniPascal.Proofs.Layout.Running
import MiniPascal.Proofs.Token.Spelling
import MiniPascal.Proofs.Grammar.Shape
import MiniPascal.Proofs.Grammar.Canonical
import MiniPascal.Proofs.Parse.Canonical
import MiniPascal.Proofs.Run.Assignments
import MiniPascal.Proofs.Run.FinalVariables
import MiniPascal.Proofs.Command.ReportedPosition
import MiniPascal.Proofs.Grammar.Located
import MiniPascal.Proofs.Grammar.Nodes
import MiniPascal.Proofs.Run.Booleans
import MiniPascal.Proofs.Parse.Builds
import MiniPascal.Proofs.Parse.Builds.Rules
import MiniPascal.Proofs.Parse.NodeSpans
import MiniPascal.Proofs.Grammar.Nesting
import MiniPascal.Proofs.Parse.NestedSpans
import MiniPascal.Proofs.Scope.Laws
import MiniPascal.Proofs.Run.Divergence
import MiniPascal.Proofs.Run.IntegerArithmetic
import MiniPascal.Proofs.Run.EndlessLoops
import MiniPascal.Proofs.Run.ScopeTables
import MiniPascal.Proofs.Run.IntegersReadBack
import MiniPascal.Proofs.Token.LetterCase
import MiniPascal.Proofs.Token.Comments
import MiniPascal.Proofs.Parse.Progress
import MiniPascal.Proofs.Parse.Events
