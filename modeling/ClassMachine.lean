import ClassMachine.Access
import ClassMachine.Class
import ClassMachine.Config
import ClassMachine.Construction
import ClassMachine.Decimal
import ClassMachine.Decimal.Reading
import ClassMachine.Decimal.Shortest
import ClassMachine.Definition
import ClassMachine.Demo
import ClassMachine.Diagnostic
import ClassMachine.Evaluation
import ClassMachine.Expr
import ClassMachine.Fault
import ClassMachine.Frame
import ClassMachine.Installation
import ClassMachine.Machine
import ClassMachine.Main
import ClassMachine.Object
import ClassMachine.Primitive
import ClassMachine.Proofs.Assignment
import ClassMachine.Proofs.CallFree
import ClassMachine.Proofs.ChainTurns
import ClassMachine.Proofs.Chains
import ClassMachine.Proofs.Chronicle
import ClassMachine.Proofs.ClassGraph
import ClassMachine.Proofs.ClassObjects
import ClassMachine.Proofs.Client
import ClassMachine.Proofs.Comparison
import ClassMachine.Proofs.ConfinedRuns
import ClassMachine.Proofs.Confinement
import ClassMachine.Proofs.CopiedFields
import ClassMachine.Proofs.DefaultChains
import ClassMachine.Proofs.DefinitionEvents
import ClassMachine.Proofs.DefinitionOrder
import ClassMachine.Proofs.DepthLimit
import ClassMachine.Proofs.Descent
import ClassMachine.Proofs.Effect
import ClassMachine.Proofs.Environment
import ClassMachine.Proofs.Exchanges
import ClassMachine.Proofs.FailedDefinitions
import ClassMachine.Proofs.FailureSearch
import ClassMachine.Proofs.FailureSources
import ClassMachine.Proofs.FailureTrails
import ClassMachine.Proofs.Failures
import ClassMachine.Proofs.FieldExchanges
import ClassMachine.Proofs.FieldHistory
import ClassMachine.Proofs.FieldInstallation
import ClassMachine.Proofs.FieldLayout
import ClassMachine.Proofs.FieldOrder
import ClassMachine.Proofs.FieldRecords
import ClassMachine.Proofs.FieldValues
import ClassMachine.Proofs.FramePlaces
import ClassMachine.Proofs.FrameStack
import ClassMachine.Proofs.HiddenHomes
import ClassMachine.Proofs.Identity
import ClassMachine.Proofs.InsertionOrder
import ClassMachine.Proofs.Instances
import ClassMachine.Proofs.Integrity
import ClassMachine.Proofs.Law
import ClassMachine.Proofs.LevelNames
import ClassMachine.Proofs.Lifetimes
import ClassMachine.Proofs.MethodLayout
import ClassMachine.Proofs.Moments
import ClassMachine.Proofs.NameTable
import ClassMachine.Proofs.Occasions
import ClassMachine.Proofs.Operations
import ClassMachine.Proofs.ParentCalls
import ClassMachine.Proofs.PartialInstances
import ClassMachine.Proofs.Persistence
import ClassMachine.Proofs.Receivers
import ClassMachine.Proofs.Registration
import ClassMachine.Proofs.RelocatedRuns
import ClassMachine.Proofs.Relocation
import ClassMachine.Proofs.StageOrder
import ClassMachine.Proofs.Stages
import ClassMachine.Proofs.Steps
import ClassMachine.Proofs.Unwinding
import ClassMachine.Proofs.Verbosity
import ClassMachine.Registry
import ClassMachine.Session
import ClassMachine.Settings
import ClassMachine.Store
import ClassMachine.Task
import ClassMachine.Text.Extending
import ClassMachine.Text.Quoted
import ClassMachine.Text.Unprintable
import ClassMachine.Trace
import ClassMachine.Value
