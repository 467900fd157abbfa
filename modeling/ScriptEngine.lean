import ScriptEngine.Console.Folder
import ScriptEngine.Main
import ScriptEngine.Session
import ScriptEngine.Proofs.Evaluation.Sequence
import ScriptEngine.Proofs.Tree.Accounting
import ScriptEngine.Proofs.Tree.ExpressionCompleteness
import ScriptEngine.Proofs.Evaluation.Clauses
import ScriptEngine.Proofs.Tree.Counted
import ScriptEngine.Proofs.Tree.Levels
import ScriptEngine.Proofs.Tree.Contracts
import ScriptEngine.Proofs.Tree.StatementContracts
import ScriptEngine.Proofs.Tree.Guard
import ScriptEngine.Proofs.Tree.Nesting
import ScriptEngine.Proofs.Evaluation.Commitment
import ScriptEngine.Proofs.Tree.AwaitedElse
import ScriptEngine.Proofs.Evaluation.Framing
import ScriptEngine.Proofs.Evaluation.Noninterference
import ScriptEngine.Proofs.Evaluation.Bracketing
import ScriptEngine.Proofs.Tree.StatementRereading
import ScriptEngine.Proofs.Evaluation.BlockScope
import ScriptEngine.Proofs.Evaluation.Declaration
import ScriptEngine.Proofs.Evaluation.Tracking
import ScriptEngine.Proofs.Evaluation.ErrorLocation
import ScriptEngine.Proofs.Token.Tiling
import ScriptEngine.Proofs.Evaluation.InStep
import ScriptEngine.Proofs.Evaluation.BlockHistory
import ScriptEngine.Proofs.Evaluation.Handles
import ScriptEngine.Proofs.Evaluation.Chain
import ScriptEngine.Proofs.Token.QuotedText
import ScriptEngine.Proofs.Token.Boundaries
import ScriptEngine.Proofs.Token.Replay
import ScriptEngine.Proofs.Evaluation.Isolation
import ScriptEngine.Proofs.Integer.Exactness
import ScriptEngine.Proofs.Evaluation.CallOrder
import ScriptEngine.Proofs.Evaluation.BlockSurroundings
import ScriptEngine.Proofs.Evaluation.Abbreviation
import ScriptEngine.Proofs.Tree.Resuming
import ScriptEngine.Proofs.Evaluation.Returning
import ScriptEngine.Proofs.Evaluation.Blanks
import ScriptEngine.Proofs.Native.Formats
import ScriptEngine.Proofs.Operator.Comparison
import ScriptEngine.Proofs.Token.Source
import ScriptEngine.Proofs.Token.Traced
import ScriptEngine.Proofs.Token.Safety
