import Garage.Main
import Garage.Session
import Garage.Proofs.Sessions
import Garage.Proofs.Delivery
import Garage.Proofs.Separation
import Garage.Proofs.Refusals
import Garage.Proofs.CutText
import Garage.Proofs.LineReading
import Garage.Proofs.Printing
import Garage.Proofs.DriveText
import Garage.Proofs.DebugText
import Garage.Proofs.WholeCharacters
import Garage.Proofs.Distinct
import Garage.Proofs.NumberForms
import Garage.Proofs.RatingText
import Garage.Proofs.Printable
import Garage.Proofs.Folding
import Garage.Proofs.Accuracy
import Garage.Proofs.PowerReading
import Garage.Proofs.Forgery
import Garage.Proofs.Fragments
import Garage.Proofs.Calls
