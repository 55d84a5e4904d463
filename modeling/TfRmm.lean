import TfRmm.Exec.Completion
import TfRmm.Exec.SimdWorld
import TfRmm.Da.Binding
import TfRmm.Smmu.HandOver
import TfRmm.Psmmu.Conserved
import TfRmm.Lifecycle.Guarantees
import TfRmm.Overlay.Coverage
import TfRmm.Vgic.Ownership
import TfRmm.Dispatch.Exclusion
import TfRmm.Comm.Safety
import TfRmm.Tdisp.Interface
import TfRmm.Delegation.Contract
import TfRmm.Tracking.Conserved
import TfRmm.Tracking.Deactivation
import TfRmm.Sro.AuxConserved
import TfRmm.Exec.Timers
import TfRmm.Exec.RsiFault
import TfRmm.S2tt.Descriptor
import TfRmm.Lifecycle.Creation
import TfRmm.Smmu.CommandQueue
import TfRmm.Exec.AttestToken
import TfRmm.Da.IdeKeys
import TfRmm.Rtt.Destruction
import TfRmm.Sro.Request
