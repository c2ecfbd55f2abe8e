import SovereignNetwork.Dao.Ballots
import SovereignNetwork.Tokens.Contract

/-!
# The chain under governance

The part of `Blockchain` that governance reads and writes: the accepted blocks with their store, the phase of governance
and the accounts of the treasury. Identities and wallets are kept as their public keys, and the SOV contract apart from
the other tokens.
-/

namespace SovereignNetwork.Dao

open Lib Execution

inductive GovernancePhase
  | bootstrap
  | hybrid
  | fullDao
  deriving DecidableEq

structure Blockchain where
  executor : BlockExecutor
  chain : Chain
  height : Nat := 0
  pendingTransactions : List Transaction := []
  executedDaoProposals : Finset Hash := ∅
  identityRegistry : HashMap String (List UInt8) := ∅
  walletRegistry : HashMap String (List UInt8) := ∅
  sovToken : Option TokenContract := none
  governancePhase : GovernancePhase := .bootstrap
  councilMembers : List String := []
  councilThreshold : Nat := 4
  emergencyState : Bool := false
  emergencyExpiresAt : Option Nat := none
  treasuryFrozen : Bool := false
  daoTreasuryWalletId : Option String := none
  treasuryEpochLengthBlocks : Nat := 10080
  treasuryEpochSpend : HashMap Nat Nat := ∅
  treasuryEpochStartBalance : HashMap Nat Nat := ∅

namespace Blockchain

def blocks (bc : Blockchain) : List Block := bc.chain.blocks

end Blockchain

end SovereignNetwork.Dao
