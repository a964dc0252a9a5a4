import PocketVm.Guard.Engine
import PocketVm.Guest.EventLoopEnds
import PocketVm.Guest.ForeignMounts
import PocketVm.Guest.GeneratedTarget
import PocketVm.Guest.ManifestAgreement
import PocketVm.Guest.PumpRuns
import PocketVm.Guest.ValidatorAccounts
import PocketVm.Guest.VolumeMounts
import PocketVm.Oci.PlatformChain
import PocketVm.Oci.WorkingDir
import PocketVm.Protocol.StartSize
import PocketVm.Runtime.BuilderEvidence
import PocketVm.Runtime.ControlCalls
import PocketVm.Runtime.Environment
import PocketVm.Runtime.ImageUser
import PocketVm.Runtime.OciReadBack
import PocketVm.Runtime.PocketArchive
import PocketVm.Store.InstanceRecord
import PocketVm.Store.LeaseSafety
import PocketVm.Store.Release
import PocketVm.Store.Reserve
import PocketVm.Store.RetainSafety
