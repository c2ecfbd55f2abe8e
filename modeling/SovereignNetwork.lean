import SovereignNetwork.Blocks.HeaderChain
import SovereignNetwork.BondingCurve.Graduation
import SovereignNetwork.BondingCurve.Migration
import SovereignNetwork.Consistency.Causality
import SovereignNetwork.Consistency.ORSet
import SovereignNetwork.Consistency.Quorum
import SovereignNetwork.Contracts.Pruning
import SovereignNetwork.Contracts.Commit
import SovereignNetwork.Dao.Council
import SovereignNetwork.Dht.Closest
import SovereignNetwork.Dht.RoutingTable
import SovereignNetwork.Dns.Names
import SovereignNetwork.Engine.Admission
import SovereignNetwork.Engine.Agreement
import SovereignNetwork.Engine.Determinism
import SovereignNetwork.Engine.HeightSync
import SovereignNetwork.Engine.Once
import SovereignNetwork.Execution.Backing
import SovereignNetwork.Execution.Coinbase
import SovereignNetwork.Execution.Conservation
import SovereignNetwork.Execution.Debt
import SovereignNetwork.Execution.Identities
import SovereignNetwork.Execution.Inversion
import SovereignNetwork.Execution.Recovery
import SovereignNetwork.Execution.Replay
import SovereignNetwork.Execution.RequiredFee
import SovereignNetwork.Execution.Solvency
import SovereignNetwork.Execution.SovSupply
import SovereignNetwork.Execution.Utxos
import SovereignNetwork.Handshake.Encodings
import SovereignNetwork.Handshake.NonceCache
import SovereignNetwork.Mempool.Limits
import SovereignNetwork.Naming.Sweep
import SovereignNetwork.Oracle.Agreement
import SovereignNetwork.Oracle.Deviation
import SovereignNetwork.Oracle.Governance
import SovereignNetwork.Oracle.Innocence
import SovereignNetwork.Proofs.Completeness
import SovereignNetwork.QuorumProof.FaultModel
import SovereignNetwork.QuorumProof.Theorems
import SovereignNetwork.Requests.Once
import SovereignNetwork.Reserve.Withdrawals
import SovereignNetwork.Storage.Chunking
import SovereignNetwork.Swap.OwnedLiquidity
import SovereignNetwork.Swap.Rewards
import SovereignNetwork.Tokens.Supply
import SovereignNetwork.Treasury.Atomicity
import SovereignNetwork.Treasury.Authorizations
import SovereignNetwork.Treasury.Distribution
import SovereignNetwork.Treasury.Locked
import SovereignNetwork.Treasury.Recovery
import SovereignNetwork.Treasury.Separation
import SovereignNetwork.Validators.Power
