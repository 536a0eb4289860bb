import ScriptMachine.Compile.Basic
import ScriptMachine.Machine.Run
import ScriptMachine.Native.Samples
import ScriptMachine.Proofs.Machine.Discipline
import ScriptMachine.Proofs.Machine.Slicing
import ScriptMachine.Proofs.Machine.Limits
import ScriptMachine.Proofs.Machine.Stage
import ScriptMachine.Proofs.Script.Meaning
import ScriptMachine.Proofs.Value.Growth
import ScriptMachine.Proofs.Value.Agree
import ScriptMachine.Proofs.Machine.Does
import ScriptMachine.Proofs.Compile.Expressions
import ScriptMachine.Proofs.Compile.Exits
import ScriptMachine.Proofs.Compile.Statements
import ScriptMachine.Proofs.Compile.Loops
import ScriptMachine.Proofs.Compile.Finals
import ScriptMachine.Proofs.Compile.Labels
import ScriptMachine.Proofs.Script.WellFormed
import ScriptMachine.Proofs.Compile.Faithful
import ScriptMachine.Proofs.Compile.Verdict
import ScriptMachine.Proofs.Value.Relocation
import ScriptMachine.Proofs.Native.Stateless
import ScriptMachine.Proofs.Machine.Relocation
import ScriptMachine.Proofs.Machine.Reset
import ScriptMachine.Proofs.Code.Assembly
import ScriptMachine.Proofs.Compile.WellLaid
import ScriptMachine.Proofs.Machine.Surfacing
import ScriptMachine.Proofs.Machine.Jumps
import ScriptMachine.Proofs.Value.Hidden
import ScriptMachine.Proofs.Machine.Activation
import ScriptMachine.Proofs.Machine.Scoping
import ScriptMachine.Proofs.Machine.Chronicle
import ScriptMachine.Proofs.Machine.Unwinding
import ScriptMachine.Proofs.Machine.Lifecycle
import ScriptMachine.Proofs.Compile.Evaluation
import ScriptMachine.Proofs.Compile.Nesting
import ScriptMachine.Proofs.Value.Retention
import ScriptMachine.Proofs.Machine.Inert
import ScriptMachine.Proofs.Machine.Enclosure
import ScriptMachine.Proofs.Machine.FinalScopes
import ScriptMachine.Proofs.Machine.Elements
import ScriptMachine.Proofs.Value.Keeping
import ScriptMachine.Proofs.Value.Writes
import ScriptMachine.Proofs.Machine.Receiver
import ScriptMachine.Proofs.Compile.Termination
import ScriptMachine.Proofs.Compile.TryCode
import ScriptMachine.Proofs.Machine.Regions
import ScriptMachine.Proofs.Machine.Rethrow
import ScriptMachine.Proofs.Value.Rendering
import ScriptMachine.Proofs.Compile.Boundaries
import ScriptMachine.Proofs.Compile.Flagging
import ScriptMachine.Proofs.Value.Hygiene
import ScriptMachine.Proofs.Machine.Hygiene
import ScriptMachine.Proofs.Compile.Naming
import ScriptMachine.Proofs.Machine.Lambdas
import ScriptMachine.Proofs.Native.Splitting
import ScriptMachine.Proofs.Compile.Pool
import ScriptMachine.Proofs.Compile.Keys
import ScriptMachine.Proofs.Compile.Classes
import ScriptMachine.Proofs.Machine.Instances
import ScriptMachine.Proofs.Script.Dotted
import ScriptMachine.Proofs.Compile.Couples
import ScriptMachine.Proofs.Compile.Alongside
import ScriptMachine.Proofs.Compile.Respelling
import ScriptMachine.Proofs.Compile.Coupling
import ScriptMachine.Proofs.Value.Repooling
import ScriptMachine.Proofs.Native.Indifferent
import ScriptMachine.Proofs.Value.Lodging
import ScriptMachine.Proofs.Machine.Abreast
import ScriptMachine.Proofs.Machine.InStride
import ScriptMachine.Proofs.Machine.CatchUp
import ScriptMachine.Proofs.Machine.Tandem
import ScriptMachine.Proofs.Machine.Spellings
