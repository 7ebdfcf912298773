import Misaka.Chain.UtxoAlgebra
import Misaka.Ghostdag.BlueWorkOrder
import Misaka.Ghostdag.TicketUse
import Misaka.Dns.AnchorStability
import Misaka.Dns.Reserve
import Misaka.Dns.NoEscape
import Misaka.Dns.ReorgGate
import Misaka.Pipeline.CompactTarget
import Misaka.Palw.AuditSnapshot
import Misaka.Palw.Committee
import Misaka.Signer.AuditLog
import Misaka.Evm.StateDiff
import Misaka.Pipeline.StorageMass
import Misaka.Pipeline.Retarget
import Misaka.Index.UtxoPages
import Misaka.BlockHeader.Wire
import Misaka.Dns.EpochGuard
import Misaka.Dns.ScoreLaws
import Misaka.Dns.EvictionRound
import Misaka.Dns.BondPaging
import Misaka.Dns.OverlayCodec
import Misaka.Palw.EpochSkip
import Misaka.Palw.DaChunks
import Misaka.Palw.CertificateOrder
import Misaka.Palw.LeafStore
import Misaka.Palw.BeaconHealth
import Misaka.Palw.Premium
import Misaka.Palw.Dispatch
import Misaka.Addresses.Bech32
import Misaka.Pruning.BlockDepth
import Misaka.Pruning.ProofComparison
