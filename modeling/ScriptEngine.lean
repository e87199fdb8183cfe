import ScriptEngine.CommandLine.Folder
import ScriptEngine.Engine.Image
import ScriptEngine.Json.Lenient
import ScriptEngine.Json.Writer
import ScriptEngine.Main
import ScriptEngine.Proofs.Analysis.Acceptance
import ScriptEngine.Proofs.Analysis.Balance
import ScriptEngine.Proofs.Analysis.Coverage
import ScriptEngine.Proofs.Analysis.Findings
import ScriptEngine.Proofs.Analysis.Lockstep
import ScriptEngine.Proofs.Analysis.Moments
import ScriptEngine.Proofs.Analysis.Nearest
import ScriptEngine.Proofs.Analysis.Opening
import ScriptEngine.Proofs.Analysis.Reanalysis
import ScriptEngine.Proofs.Analysis.Strictness
import ScriptEngine.Proofs.Decimal.Counts
import ScriptEngine.Proofs.Decimal.Shortest
import ScriptEngine.Proofs.Decimal.Value
import ScriptEngine.Proofs.Display.Datum
import ScriptEngine.Proofs.Display.Evaluating
import ScriptEngine.Proofs.Display.Extension
import ScriptEngine.Proofs.Display.Forms
import ScriptEngine.Proofs.Display.Lexing
import ScriptEngine.Proofs.Display.Loading
import ScriptEngine.Proofs.Display.Numbers
import ScriptEngine.Proofs.Display.Parsing
import ScriptEngine.Proofs.Display.Patterns
import ScriptEngine.Proofs.Display.Reading
import ScriptEngine.Proofs.Display.Running
import ScriptEngine.Proofs.Display.Source
import ScriptEngine.Proofs.Engine.CallDepth
import ScriptEngine.Proofs.Engine.Isolation
import ScriptEngine.Proofs.Engine.Lifecycle
import ScriptEngine.Proofs.Engine.Promises
import ScriptEngine.Proofs.Engine.Reach
import ScriptEngine.Proofs.Engine.Workers
import ScriptEngine.Proofs.Entity.Data
import ScriptEngine.Proofs.Evaluation.Calls
import ScriptEngine.Proofs.Evaluation.Capturing
import ScriptEngine.Proofs.Evaluation.Confinement
import ScriptEngine.Proofs.Evaluation.Counting
import ScriptEngine.Proofs.Evaluation.Currying
import ScriptEngine.Proofs.Evaluation.Destructuring
import ScriptEngine.Proofs.Evaluation.Discipline
import ScriptEngine.Proofs.Evaluation.Expressions
import ScriptEngine.Proofs.Evaluation.Indexing
import ScriptEngine.Proofs.Evaluation.Iteration
import ScriptEngine.Proofs.Evaluation.Keeping
import ScriptEngine.Proofs.Evaluation.Locks
import ScriptEngine.Proofs.Evaluation.Mappings
import ScriptEngine.Proofs.Evaluation.Members
import ScriptEngine.Proofs.Evaluation.Methods
import ScriptEngine.Proofs.Evaluation.Nesting
import ScriptEngine.Proofs.Evaluation.Permissive
import ScriptEngine.Proofs.Evaluation.Places
import ScriptEngine.Proofs.Evaluation.Plain
import ScriptEngine.Proofs.Evaluation.Privacy
import ScriptEngine.Proofs.Evaluation.Regime
import ScriptEngine.Proofs.Evaluation.Rounds
import ScriptEngine.Proofs.Evaluation.Selection
import ScriptEngine.Proofs.Evaluation.Statements
import ScriptEngine.Proofs.Evaluation.Tails
import ScriptEngine.Proofs.Evaluation.Tasks
import ScriptEngine.Proofs.Evaluation.Texts
import ScriptEngine.Proofs.Forest.Linking
import ScriptEngine.Proofs.Forest.RoundTrip
import ScriptEngine.Proofs.Host.Keys
import ScriptEngine.Proofs.Host.Maps
import ScriptEngine.Proofs.Json.Quoting
import ScriptEngine.Proofs.Modules.Discipline
import ScriptEngine.Proofs.Modules.Engines
import ScriptEngine.Proofs.Modules.Importing
import ScriptEngine.Proofs.Modules.Imports
import ScriptEngine.Proofs.Parse.Accepted
import ScriptEngine.Proofs.Parse.Agreement
import ScriptEngine.Proofs.Parse.Expressions
import ScriptEngine.Proofs.Parse.Finishing
import ScriptEngine.Proofs.Parse.Layout
import ScriptEngine.Proofs.Parse.Nesting
import ScriptEngine.Proofs.Parse.Parentheses
import ScriptEngine.Proofs.Parse.Precedence
import ScriptEngine.Proofs.Scope.History
import ScriptEngine.Proofs.Store.Equality
import ScriptEngine.Proofs.Store.Marshalling
import ScriptEngine.Proofs.Token.Spacing
import ScriptEngine.Proofs.Tree.Bare
import ScriptEngine.Proofs.Tree.Imports
import ScriptEngine.Proofs.Typing.Collections
import ScriptEngine.Proofs.Typing.Unification
import ScriptEngine.Tree.Document
