import GridCopy.Device.Disturbance
import GridCopy.Main
import GridCopy.Proofs.Blocks
import GridCopy.Proofs.Comparison
import GridCopy.Proofs.Deliveries
import GridCopy.Proofs.DeviceCopy
import GridCopy.Proofs.Endings
import GridCopy.Proofs.FaultFree
import GridCopy.Proofs.NearestFile
import GridCopy.Proofs.Numbers
import GridCopy.Proofs.Ownership
import GridCopy.Proofs.Preconditions
import GridCopy.Proofs.Rearrangement
import GridCopy.Proofs.Reports
import GridCopy.Proofs.Revisions
import GridCopy.Proofs.RoundTrip
import GridCopy.Proofs.SelectedPlans
import GridCopy.Proofs.Tasks
import GridCopy.Proofs.Transfers
import GridCopy.Proofs.Transposition
import GridCopy.Proofs.Trees
import GridCopy.Proofs.Trials
import GridCopy.Proofs.Walk
