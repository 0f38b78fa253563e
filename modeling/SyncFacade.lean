import SyncFacade.Decimal.Read
import SyncFacade.Execution.Session
import SyncFacade.Main
import SyncFacade.Proofs.Forwarding.Binding
import SyncFacade.Proofs.Forwarding.Argument
import SyncFacade.Proofs.Forwarding.Rebinding
import SyncFacade.Proofs.Wrapping
import SyncFacade.Proofs.Alias.FreeName
import SyncFacade.Proofs.Alias.Mangling
import SyncFacade.Proofs.Source.Layout
import SyncFacade.Proofs.Alias.Capture
import SyncFacade.Proofs.OrderedMap
import SyncFacade.Proofs.Registry.History
import SyncFacade.Proofs.Registry.Isolation
import SyncFacade.Proofs.Mirror
import SyncFacade.Proofs.Source.Pieces
import SyncFacade.Proofs.Source.Qualifiers
import SyncFacade.Proofs.Source.Statements
import SyncFacade.Proofs.Compilation
import SyncFacade.Proofs.Source.Imports
import SyncFacade.Proofs.Bases
import SyncFacade.Proofs.TargetOrder
import SyncFacade.Proofs.ClassNames
import SyncFacade.Proofs.MethodNames
import SyncFacade.Proofs.Source.Openings
import SyncFacade.Proofs.Source.Fragments
import SyncFacade.Proofs.Alias.ScopeImport
import SyncFacade.Proofs.Alias.Collision
import SyncFacade.Proofs.Refusal
import SyncFacade.Proofs.Source.Unbroken
import SyncFacade.Proofs.CommandLine.Output
import SyncFacade.Proofs.Source.Outline
import SyncFacade.Proofs.ClassReference
import SyncFacade.Proofs.Evaluation
import SyncFacade.Proofs.TypeHint.Composite
import SyncFacade.Proofs.TypeHint.Retention
import SyncFacade.Proofs.Execution.Threads
import SyncFacade.Proofs.Execution.Answers
import SyncFacade.Proofs.Execution.Consumption
import SyncFacade.Proofs.Source.Literal
import SyncFacade.Proofs.Source.TypeTree
import SyncFacade.Proofs.Text.Brackets
import SyncFacade.Proofs.Source.ParameterList
import SyncFacade.Proofs.Source.Declarations
import SyncFacade.Proofs.Source.Receiver
import SyncFacade.Proofs.Source.LiteralValue
import SyncFacade.Proofs.Substitution
import SyncFacade.Proofs.TypeHint.AsyncStream
import SyncFacade.Proofs.Execution.Closing
import SyncFacade.Proofs.Decimal.Rounding
import SyncFacade.Proofs.Decimal.Shortest
import SyncFacade.Proofs.Text.Quoted
import SyncFacade.Proofs.Text.Unquoted
import SyncFacade.Proofs.Value.Characters
import SyncFacade.Proofs.Value.ReadBack
import SyncFacade.Proofs.Value.Source
import SyncFacade.Proofs.Value.Argument
import SyncFacade.Proofs.TypeHint.Values
import SyncFacade.Proofs.TargetChoice
import SyncFacade.Proofs.Formatting
import SyncFacade.Proofs.Alias.Search
