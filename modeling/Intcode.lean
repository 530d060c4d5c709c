import Intcode.Amplifier.Scheduled
import Intcode.Explorer
import Intcode.Main
import Intcode.Proofs.Agreement
import Intcode.Proofs.BestOrder
import Intcode.Proofs.BreadthFirst
import Intcode.Proofs.Checkpoints
import Intcode.Proofs.Composition
import Intcode.Proofs.Decoding
import Intcode.Proofs.Dialogue
import Intcode.Proofs.ExactArithmetic
import Intcode.Proofs.Exploration
import Intcode.Proofs.InputArrival
import Intcode.Proofs.Lifecycle
import Intcode.Proofs.Limits
import Intcode.Proofs.Listings
import Intcode.Proofs.Mesh.Delivery
import Intcode.Proofs.Mesh.EmptyPolls
import Intcode.Proofs.Mesh.Failures
import Intcode.Proofs.Mesh.NodeTraffic
import Intcode.Proofs.Mesh.Parking
import Intcode.Proofs.ParseErrors
import Intcode.Proofs.Pooling
import Intcode.Proofs.ProgramText
import Intcode.Proofs.Resumption
import Intcode.Proofs.TapeRequests
import Intcode.Proofs.Termination
import Intcode.Proofs.TokenPlaces
import Intcode.Proofs.Tracing
import Intcode.Proofs.Traffic
import Intcode.Proofs.Waiting
