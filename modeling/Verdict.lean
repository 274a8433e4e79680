import Verdict.Main
import Verdict.Operator.Decoder
import Verdict.Proofs.Annotations
import Verdict.Proofs.Coherence
import Verdict.Proofs.Construction
import Verdict.Proofs.DecisionList
import Verdict.Proofs.Dependencies
import Verdict.Proofs.DepthLimit
import Verdict.Proofs.DirectoryLoading
import Verdict.Proofs.ExitStatus
import Verdict.Proofs.FailureTrail
import Verdict.Proofs.FiniteMap
import Verdict.Proofs.Isolation
import Verdict.Proofs.Kleene
import Verdict.Proofs.LayeredSettings
import Verdict.Proofs.Legibility
import Verdict.Proofs.NumberOrder
import Verdict.Proofs.OperatorNames
import Verdict.Proofs.Queries
import Verdict.Proofs.ReferenceSafety
import Verdict.Proofs.RegistrationOrder
import Verdict.Proofs.Relevance
import Verdict.Proofs.Resolution
import Verdict.Proofs.RootFailure
import Verdict.Proofs.RoundTrip
import Verdict.Proofs.ShortCircuit
import Verdict.Proofs.StackDiscipline
import Verdict.Proofs.Target
import Verdict.Proofs.TargetVariable
import Verdict.Proofs.Tracing
import Verdict.Proofs.WalkSteps
