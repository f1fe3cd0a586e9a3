import Duelist.Events.Recorder
import Duelist.Handles
import Duelist.Main
import Duelist.Proofs.Addresses
import Duelist.Proofs.Announcements
import Duelist.Proofs.Bulletins
import Duelist.Proofs.Commands
import Duelist.Proofs.Dialogues
import Duelist.Proofs.Discretion
import Duelist.Proofs.Environment
import Duelist.Proofs.Expiry
import Duelist.Proofs.Extensions
import Duelist.Proofs.Families
import Duelist.Proofs.Finale
import Duelist.Proofs.Joining
import Duelist.Proofs.Leniency
import Duelist.Proofs.Lifecycle
import Duelist.Proofs.Listening
import Duelist.Proofs.Office
import Duelist.Proofs.Outcomes
import Duelist.Proofs.Polling
import Duelist.Proofs.Presentations
import Duelist.Proofs.Quotations
import Duelist.Proofs.RefreshAndRetry
import Duelist.Proofs.Repetitions
import Duelist.Proofs.RollCall
import Duelist.Proofs.SharedRefresh
import Duelist.Proofs.SignIns
import Duelist.Proofs.StaleEvents
import Duelist.Proofs.Submissions
import Duelist.Proofs.TokenPairs
