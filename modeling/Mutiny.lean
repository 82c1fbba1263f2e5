import Mutiny.BodyRoots
import Mutiny.CompactTarget
import Mutiny.Duplex.Election
import Mutiny.Duplex.Isolation
import Mutiny.Keystore.Restore
import Mutiny.Node.AmountText
import Mutiny.Node.AuthorityEvidence
import Mutiny.Node.BlockWeight
import Mutiny.Node.HeaderLineage
import Mutiny.Node.OfflineRoundTrip
import Mutiny.Node.OperationEncoding
import Mutiny.Node.PreparedState
import Mutiny.Node.PresenceCount
import Mutiny.Node.PriceHistory
import Mutiny.Node.RejectionCost
import Mutiny.Node.SpentOnce
import Mutiny.Node.SpvInclusion
import Mutiny.Node.StateBinding
import Mutiny.Node.SyncWork
import Mutiny.Node.Waiting
import Mutiny.P2p.Handshake
import Mutiny.Protocol.FailedUpdates
import Mutiny.WorkAllocation
import Mutiny.Worker.LedgerCrash
import Mutiny.Worker.Pairing
