import StringBricks.Analysis.Settling
import StringBricks.Brick.Domain
import StringBricks.Brick.Text
import StringBricks.BrickSeq.Assignment
import StringBricks.BrickSeq.Domain
import StringBricks.BrickSeq.Text
import StringBricks.Env.Construction
import StringBricks.Env.Language
import StringBricks.Env.Text
import StringBricks.NormalForm.Stability
import StringBricks.Proofs.Analysis.Convergence
import StringBricks.Proofs.Analysis.Pruning
import StringBricks.Proofs.Analysis.Soundness
import StringBricks.Proofs.Brick.Convergence
import StringBricks.Proofs.BrickSeq.Assignment
import StringBricks.Proofs.BrickSeq.Associativity
import StringBricks.Proofs.BrickSeq.Characters
import StringBricks.Proofs.BrickSeq.Convergence
import StringBricks.Proofs.BrickSeq.Text
import StringBricks.Proofs.Domain
import StringBricks.Proofs.Env.Assumption
import StringBricks.Proofs.Env.Construction
import StringBricks.Proofs.Env.Extensionality
import StringBricks.Proofs.Env.Pointwise
import StringBricks.Proofs.Order
import StringBricks.Proofs.Solver.Faults
import StringBricks.Proofs.Solver.Narrowing
import StringBricks.Proofs.Solver.Postfixpoint
