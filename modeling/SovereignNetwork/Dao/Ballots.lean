import SovereignNetwork.Execution.Registry

/-!
# Votes on the chain

What `Blockchain` reads of the DAO's transactions: it scans the transactions of all blocks, also those of genesis. Vote
counts are `u64` and wrap.
-/

namespace SovereignNetwork.Dao

open Execution

/-! ## Reading the blocks -/

def voteOf (tx : Transaction) : Option DaoVoteData :=
  if tx.transactionType = .daoVote then tx.daoVoteData else none

def blockTransactions (blocks : List Block) : List Transaction := blocks.flatMap (·.transactions)

def getAllDaoVotes (blocks : List Block) : List DaoVoteData := (blockTransactions blocks).filterMap voteOf

def getDaoVotesForProposal (blocks : List Block) (proposalId : Hash) : List DaoVoteData :=
  (getAllDaoVotes blocks).filter fun vote => vote.proposalId = proposalId

/-! ## Counting -/

structure Tally where
  yesVotes : Nat := 0
  noVotes : Nat := 0
  abstainVotes : Nat := 0
  totalVotingPower : Nat := 0
  deriving DecidableEq

/-- A choice that is none of the three counts for the total only. -/
def Tally.count (t : Tally) (vote : DaoVoteData) : Tally where
  yesVotes := if vote.voteChoice = "Yes" then wrapU64 (t.yesVotes + vote.votingPower) else t.yesVotes
  noVotes := if vote.voteChoice = "No" then wrapU64 (t.noVotes + vote.votingPower) else t.noVotes
  abstainVotes := if vote.voteChoice = "Abstain" then wrapU64 (t.abstainVotes + vote.votingPower) else t.abstainVotes
  totalVotingPower := wrapU64 (t.totalVotingPower + vote.votingPower)

def countVotes (votes : List DaoVoteData) : Tally := votes.foldl Tally.count {}

def tallyDaoVotes (blocks : List Block) (proposalId : Hash) : Tally :=
  countVotes (getDaoVotesForProposal blocks proposalId)

theorem wrapU64_add_right_comm (a b c : Nat) : wrapU64 (wrapU64 (a + b) + c) = wrapU64 (wrapU64 (a + c) + b) := by
  simp only [wrapU64, Nat.mod_add_mod]
  rw [Nat.add_right_comm]

theorem countVotes_perm {votes votes' : List DaoVoteData} (h : votes.Perm votes') :
    countVotes votes = countVotes votes' := by
  refine h.foldl_eq' (fun v _ w _ t => ?_) _
  simp only [Tally.count, Tally.mk.injEq, wrapU64_add_right_comm t.totalVotingPower, and_true]
  refine ⟨?_, ?_, ?_⟩
  all_goals
    split
    · split
      · exact wrapU64_add_right_comm _ _ _
      · rfl
    · rfl

theorem getAllDaoVotes_concat (blocks : List Block) (block : Block) :
    getAllDaoVotes (blocks ++ [block]) = getAllDaoVotes blocks ++ block.transactions.filterMap voteOf := by
  simp [getAllDaoVotes, blockTransactions]

theorem type_of_voteOf {tx : Transaction} {vote : DaoVoteData} (h : voteOf tx = some vote) :
    tx.transactionType = .daoVote ∧ tx.daoVoteData = some vote := by
  unfold voteOf at h
  split at h
  · next htype => exact ⟨htype, h⟩
  · cases h

end SovereignNetwork.Dao
