import Rete.Agenda
import Rete.Catalog
import Rete.Compile.Bindings
import Rete.Compile.Package
import Rete.Compile.Rule
import Rete.Compile.Statement
import Rete.Compile.Term
import Rete.Declaration
import Rete.Diagnostic
import Rete.Error
import Rete.Evaluation
import Rete.Expr
import Rete.Knowledge
import Rete.MessagePack
import Rete.Method
import Rete.Network.Basic
import Rete.Network.Memory
import Rete.Network.Node
import Rete.Network.Propagation
import Rete.Number.Binary64
import Rete.Number.Decimal
import Rete.Number.Fixed
import Rete.Operator
import Rete.Overload
import Rete.Plain
import Rete.Plain.Compiled
import Rete.Plain.Declaration
import Rete.Plain.Network
import Rete.Plain.Problem
import Rete.Plain.Session
import Rete.Plain.Value
import Rete.Proofs.Agenda
import Rete.Proofs.Computation
import Rete.Proofs.Evaluation
import Rete.Proofs.Knowledge
import Rete.Proofs.Matching.Activation
import Rete.Proofs.Matching.AlphaLevel
import Rete.Proofs.Matching.BruteForce
import Rete.Proofs.Matching.Cells
import Rete.Proofs.Matching.Coherence
import Rete.Proofs.Matching.Coverage
import Rete.Proofs.Matching.Failures
import Rete.Proofs.Matching.Following
import Rete.Proofs.Matching.RightActivation
import Rete.Proofs.Matching.RightRetraction
import Rete.Proofs.Matching.Spreading
import Rete.Proofs.Matching.Views
import Rete.Proofs.Matching.Withdrawal
import Rete.Proofs.Network.Growth
import Rete.Proofs.Network.Levels
import Rete.Proofs.Network.Links
import Rete.Proofs.Network.Meaning
import Rete.Proofs.Network.Paths
import Rete.Proofs.Network.Pruning
import Rete.Proofs.Network.Rules
import Rete.Proofs.Session.Exactness
import Rete.Proofs.Session.Intact
import Rete.Proofs.Session.Requests
import Rete.Proofs.Session.Steps
import Rete.Proofs.Session.Structure
import Rete.Proofs.SortedMap
import Rete.QualifiedName
import Rete.Rule
import Rete.Session.Basic
import Rete.Session.Event
import Rete.Session.Facts
import Rete.Session.Firing
import Rete.Snapshot.Basic
import Rete.Snapshot.Encoding
import Rete.SortedMap
import Rete.SymbolTable
import Rete.Text.Case
import Rete.Text.CaseMapping
import Rete.Text.CaseProperty
import Rete.Text.CodeRange
import Rete.Text.GraphemeExtend
import Rete.Text.Quoted
import Rete.Text.Split
import Rete.Text.Unprintable
import Rete.Trace.Buffer
import Rete.Trace.Record
import Rete.Trace.Tracer
import Rete.Value
import Rete.ValueType
import Rete.WorkingMemory
import Rete.Proofs.Matching.Likeness
import Rete.Proofs.Session.Likeness
import Rete.Proofs.Session.Snapshots
import Rete.Proofs.Session.Globals
import Rete.Proofs.Matching.Frame
import Rete.Proofs.Network.History
import Rete.Proofs.Session.Undisturbed
import Rete.Proofs.Session.Rollback
import Rete.Proofs.Compile.Scope
import Rete.Proofs.Compile.Rule
import Rete.Proofs.Compile.Package
import Rete.Proofs.Compile.Functions
import Rete.Proofs.Compile.Problems
import Rete.Proofs.Network.Scoping
import Rete.Proofs.Containment
import Rete.Proofs.Session.Containment
import Rete.Proofs.Compile.Names
import Rete.Proofs.Compile.Instances
import Rete.Proofs.Compile.Denotation
import Rete.Proofs.Session.Naming
import Rete.Proofs.Agenda.Operations
import Rete.Proofs.MessagePack
import Rete.Proofs.Snapshot.Restoring
import Rete.Proofs.Snapshot.Items
import Rete.Proofs.Snapshot.Encoding
import Rete.Proofs.Network.Shapes
import Rete.Proofs.Network.Size
import Rete.Proofs.Network.Trails
import Rete.Proofs.Knowledge.History
import Rete.Proofs.Knowledge.Additions
import Rete.Proofs.Session.Consequences
import Rete.Proofs.Session.Courses
import Rete.Proofs.Session.Firings
import Rete.Proofs.Session.Stored
import Rete.Proofs.FieldTypes
import Rete.Proofs.Session.FieldTypes
import Rete.Proofs.Evaluation.EvidentTypes
import Rete.Proofs.Compile.StaticTypes
import Rete.Proofs.Session.EvidentTypes
import Rete.Proofs.Session.Budgets
import Rete.Proofs.Session.Log
import Rete.Proofs.Session.Losses
import Rete.Proofs.Session.NoLoop
import Rete.Proofs.SymbolTable
import Rete.Proofs.SymbolTable.Overloads
import Rete.Proofs.SymbolTable.Imports
import Rete.Proofs.Compile.Imports
import Rete.Proofs.Unbounded
import Rete.Proofs.Evaluation.CallDepth
import Rete.Proofs.Matching.Walks
import Rete.Proofs.Matching.Termination
import Rete.Proofs.Compile.Negation
import Rete.Proofs.Method
import Rete.Proofs.Trace
import Rete.Proofs.Session.Effects
import Rete.Proofs.Session.Handles
import Rete.Proofs.Matching.Stems
