import TrustedFirmwareM.Lib.ByteMemory
import TrustedFirmwareM.Lib.Counters
import TrustedFirmwareM.Lib.Fallible
import TrustedFirmwareM.Lib.LinkedList
import TrustedFirmwareM.Lib.Program
import TrustedFirmwareM.Lib.Run
import TrustedFirmwareM.Spm.Accounting
import TrustedFirmwareM.Spm.Delivery
import TrustedFirmwareM.Spm.Handles
import TrustedFirmwareM.Spm.Identity
import TrustedFirmwareM.Spm.MessageHandle
import TrustedFirmwareM.Spm.ReverseHandle
import TrustedFirmwareM.Spm.Vectors
import TrustedFirmwareM.Spm.VectorAccess
import TrustedFirmwareM.Spm.StatelessHandles
import TrustedFirmwareM.Spm.BootData
import TrustedFirmwareM.Spm.CallParams
import TrustedFirmwareM.Spm.ClientIds
import TrustedFirmwareM.Spm.ChunkPool
import TrustedFirmwareM.Spm.SchedulerRuns
import TrustedFirmwareM.Spm.ServiceList
import TrustedFirmwareM.Ps.Nonces
import TrustedFirmwareM.Mailbox.Agreement
import TrustedFirmwareM.Ps.EncryptedObject
import TrustedFirmwareM.Ps.Rollback
import TrustedFirmwareM.Ps.Assets
import TrustedFirmwareM.Ps.KeyUsage
import TrustedFirmwareM.Ps.Restoring
import TrustedFirmwareM.Ps.SwapCount
import TrustedFirmwareM.Ps.StoredAssets
import TrustedFirmwareM.Crypto.Alloc
import TrustedFirmwareM.Crypto.Interface
import TrustedFirmwareM.Crypto.Operations
import TrustedFirmwareM.Crypto.Scratch
import TrustedFirmwareM.NvCounters.Rram
import TrustedFirmwareM.NvCounters.RramDurability
import TrustedFirmwareM.NvCounters.Flash
import TrustedFirmwareM.NvCounters.FlashDurability
import TrustedFirmwareM.Fwu.McubootDependencies
import TrustedFirmwareM.Fwu.McubootRollback
import TrustedFirmwareM.Fwu.RejectStatus
import TrustedFirmwareM.Fwu.Runs
import TrustedFirmwareM.Its.Capacity
import TrustedFirmwareM.Its.Clients
import TrustedFirmwareM.Its.Encryption
import TrustedFirmwareM.Its.Guarantees
import TrustedFirmwareM.Isolation.BoundaryRuns
import TrustedFirmwareM.Isolation.ExternalMpc
import TrustedFirmwareM.Isolation.MemoryCheckSoundness
import TrustedFirmwareM.Bl2.FlashMapWrites
import TrustedFirmwareM.Fwu.Mcuboot
import TrustedFirmwareM.Fwu.McubootChecks
import TrustedFirmwareM.Lib.Settled
import TrustedFirmwareM.Tools.ManifestDependencies
import TrustedFirmwareM.Attestation.SwComponents
import TrustedFirmwareM.Isolation.SwPolicy
import TrustedFirmwareM.Its.UnalignedReads
import TrustedFirmwareM.Isolation.RegionCheck
import TrustedFirmwareM.Lib.Cells
import TrustedFirmwareM.NvCounters.OtpBackend
import TrustedFirmwareM.NvCounters.Template
import TrustedFirmwareM.NvCounters.TemplateRuns
import TrustedFirmwareM.FlashDrivers.Conformance
import TrustedFirmwareM.Fwu.CandidateDigest
