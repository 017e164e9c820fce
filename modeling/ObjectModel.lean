import ObjectModel.Action
import ObjectModel.Arena
import ObjectModel.Binding
import ObjectModel.Cast
import ObjectModel.Class
import ObjectModel.Context
import ObjectModel.Description
import ObjectModel.Double.Basic
import ObjectModel.Double.Decimal
import ObjectModel.Double.Rounding
import ObjectModel.Double.Shortest
import ObjectModel.Equality
import ObjectModel.Error
import ObjectModel.Execution
import ObjectModel.Function
import ObjectModel.Hierarchy
import ObjectModel.Linearization
import ObjectModel.Numeral
import ObjectModel.Object.Member
import ObjectModel.Object.Registration
import ObjectModel.Program
import ObjectModel.Resolution
import ObjectModel.Scope.Definition
import ObjectModel.Scope.Lookup
import ObjectModel.Store
import ObjectModel.Table
import ObjectModel.Unprintable
import ObjectModel.Value
import ObjectModel.Variable
import ObjectModel.Proofs.Coherence
import ObjectModel.Proofs.Declaration
import ObjectModel.Proofs.History
import ObjectModel.Proofs.Home
import ObjectModel.Proofs.Layout
import ObjectModel.Proofs.Merge
import ObjectModel.Proofs.MethodSearch
import ObjectModel.Proofs.PlainOrder
import ObjectModel.Proofs.Recording
import ObjectModel.Proofs.Substitutability
import ObjectModel.Proofs.Viewpoint
import ObjectModel.Proofs.ClassIndex
import ObjectModel.Proofs.Unseen
import ObjectModel.Proofs.Atomicity
import ObjectModel.Proofs.Invocation
import ObjectModel.Proofs.Dealing
import ObjectModel.Proofs.Alteration
import ObjectModel.Proofs.RequestEffects
import ObjectModel.Proofs.Journal
import ObjectModel.Proofs.Lineage
import ObjectModel.Proofs.Isolation
import ObjectModel.Proofs.CallDepth
import ObjectModel.Proofs.Course
import ObjectModel.Proofs.Lock
import ObjectModel.Proofs.Membership
import ObjectModel.Proofs.TypedStorage
import ObjectModel.Proofs.Consistency
import ObjectModel.Proofs.Handles
import ObjectModel.Proofs.SharedCall
import ObjectModel.Proofs.Mirror
import ObjectModel.Proofs.Errands
import ObjectModel.Proofs.Forks
import ObjectModel.Proofs.Precedence
import ObjectModel.Proofs.Revision
import ObjectModel.Proofs.InstanceLayout
import ObjectModel.Proofs.MemberAccess
import ObjectModel.Proofs.ClassTable
import ObjectModel.Proofs.Shadowing
import ObjectModel.Proofs.ClassCast
import ObjectModel.Proofs.Secrecy
import ObjectModel.Proofs.ArgumentBinding
import ObjectModel.Proofs.EqualityLaws
import ObjectModel.Proofs.Redefinition
import ObjectModel.Proofs.IntegerText
import ObjectModel.Proofs.TieBreaking
import ObjectModel.Proofs.Lifetime
import ObjectModel.Proofs.Termination
import ObjectModel.Proofs.Reentrancy
