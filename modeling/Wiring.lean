import Wiring.Main
import Wiring.Proofs.Addresses
import Wiring.Proofs.Balance
import Wiring.Proofs.Canonical
import Wiring.Proofs.Creation
import Wiring.Proofs.Credits
import Wiring.Proofs.Discretion
import Wiring.Proofs.Reception
import Wiring.Proofs.Replay
import Wiring.Proofs.Sends
import Wiring.Proofs.Session
import Wiring.Proofs.Delivery
import Wiring.Proofs.Outset
import Wiring.Proofs.Sending
import Wiring.Proofs.Reporting
import Wiring.Proofs.Covers
import Wiring.Proofs.Equipment
import Wiring.Proofs.Selection
import Wiring.Proofs.Bounded
import Wiring.Proofs.Cargo
import Wiring.Proofs.Correspondence
import Wiring.Proofs.Account
import Wiring.Proofs.Choice
import Wiring.Proofs.Repetition
import Wiring.Proofs.Arrival
import Wiring.Proofs.Turning
import Wiring.Proofs.Embarking
import Wiring.Proofs.Winding
import Wiring.Proofs.Registry
import Wiring.Proofs.Feasible
