import Entitlement.Log.Program
import Entitlement.Overview
import Entitlement.Tables.Audit
import Entitlement.Tables.Installed
import Entitlement.Proofs.Assessment.Accuracy
import Entitlement.Proofs.Assessment.Coherence
import Entitlement.Proofs.Assessment.Failure
import Entitlement.Proofs.Assessment.Refusal
import Entitlement.Proofs.Contrast.Difference
import Entitlement.Proofs.Log.Program
import Entitlement.Proofs.Naming.Operations
import Entitlement.Proofs.Offer
import Entitlement.Proofs.Overview
import Entitlement.Proofs.Permission
import Entitlement.Proofs.PlanOrder
import Entitlement.Proofs.Settings.Session
import Entitlement.Proofs.Settings.Sources
import Entitlement.Proofs.Tables.Accepted
import Entitlement.Proofs.Tables.Diagnosis
import Entitlement.Proofs.Tally.Counter
import Entitlement.Proofs.Tally.Quota
import Entitlement.Proofs.Tally.Readback
import Entitlement.Proofs.Tally.Interleaving
import Entitlement.Proofs.Tally.Expiry
import Entitlement.Proofs.Tally.Trail
import Entitlement.Proofs.Tally.Levels
import Entitlement.Proofs.Log.Threshold
import Entitlement.Proofs.Calendar.Gregorian
import Entitlement.Proofs.Tally.Zone
import Entitlement.Proofs.Tally.Frame
