import SovereignNetwork.Dao.Ballots

/-!
# One vote per voter

The executor keeps one record for each voter of a proposal, that of the last accepted vote. The tally counts every vote
transaction of the chain: a voter that votes again is counted again, and so are votes in the genesis block, whose
transactions are not applied.
-/

namespace SovereignNetwork.Dao

open Lib Execution Mutator

variable {X : Externals} {E : BlockExecutor} {s : AList Key.Val} {b b' : Batch Key.Val} {tx : Transaction} {height : Nat}
  {o : TxOutcome} {key : List UInt8} {votes : List DaoVoteData}

/-! ## Keys of votes -/

def recordKey (vote : DaoVoteData) : List UInt8 := voteKey vote.proposalId vote.voter

theorem head?_voteKey (proposalId : Hash) (voter : String) : (voteKey proposalId voter).head? = some 118 := by
  rw [voteKey, List.append_assoc, List.append_assoc]
  exact head?_tagged (by decide) _

/-- What the keys of the votes on a proposal start with. -/
def voteTag (proposalId : Hash) : List UInt8 := bytesOf "vote:" ++ hashBytes proposalId ++ bytesOf ":"

theorem voteTag_isPrefix {proposalId : Hash} {vote : DaoVoteData} :
    voteTag proposalId <+: recordKey vote ↔ vote.proposalId = proposalId := by
  refine ⟨fun h => ?_, fun h => ⟨bytesOf vote.voter, by rw [← h]; rfl⟩⟩
  obtain ⟨rest, h⟩ := h
  simp only [voteTag, recordKey, voteKey, List.append_assoc] at h
  have h := List.append_cancel_left h
  exact (hashBytes_inj (List.append_inj_left h ((length_hashBytes _).trans (length_hashBytes _).symm))).symm

theorem recordKey_inj {vote vote' : DaoVoteData} (h : recordKey vote = recordKey vote') :
    vote.proposalId = vote'.proposalId ∧ vote.voter = vote'.voter := by
  have hid : vote.proposalId = vote'.proposalId := by
    refine voteTag_isPrefix.mp ?_
    rw [h]
    exact voteTag_isPrefix.mpr rfl
  refine ⟨hid, bytesOf_inj ?_⟩
  unfold recordKey voteKey at h
  rw [hid] at h
  exact List.append_cancel_left h

/-! ## What a transaction records -/

def VotesRecorded (X : Externals) (σ : ChainState) (votes : List DaoVoteData) : Prop :=
  ∀ key : List UInt8, key.head? = some 118 →
    σ.storage X.daoStateContractId key = (votes.reverse.find? fun vote => recordKey vote = key).map X.serializeVote

def NoVoteWrite : (k : Key) → Option k.Val → Prop
  | .contractStorage _ key, _ => key.head? ≠ some 118
  | _, _ => True

theorem noVoteWrite_tag (tag : String) (byte : UInt8) (h : (tag, byte) ∈ storageTags) (hbyte : byte ≠ 118)
    (contract : Bytes 32) (rest : List UInt8) (v : Option (List UInt8)) :
    NoVoteWrite (.contractStorage contract (bytesOf tag ++ rest)) v := by
  show (bytesOf tag ++ rest).head? ≠ some 118
  rw [head?_tagged h]
  exact fun heq => hbyte (Option.some.inj heq)

theorem noVoteWrite_plain (tag : String) (byte : UInt8) (h : (tag, byte) ∈ storageTags) (hbyte : byte ≠ 118)
    (contract : Bytes 32) (v : Option (List UInt8)) : NoVoteWrite (.contractStorage contract (bytesOf tag)) v := by
  have hwrite := noVoteWrite_tag tag byte h hbyte contract [] v
  rwa [List.append_nil] at hwrite

theorem lookup_staged_of_notVote (h : TxStaged X E s height tx b o b') (htype : tx.transactionType ≠ .daoVote)
    (contract : Bytes 32) (hkey : key.head? = some 118) :
    b'.lookup (.contractStorage contract key) = b.lookup (.contractStorage contract key) := by
  by_cases htree : (Key.contractStorage contract key).tree ∈ tx.transactionType.trees
  swap
  · exact h.lookup_eq htree
  have hframe : ∀ {p : TxProg Unit}, p.stage sledView s b = .ok ((), b') →
      p.Ensures sledView s NoVoteWrite (fun _ => True) →
      b'.lookup (.contractStorage contract key) = b.lookup (.contractStorage contract key) :=
    fun hp hwrites => hwrites.lookup_eq hp fun _ hwrite => hwrite hkey
  rcases storageTypes_of_trees htree with htype' | htype' | htype' | htype' | htype'
  · have hproposal := noVoteWrite_tag "proposal:" 112 (by decide) (by decide)
    have hindex := noVoteWrite_tag "proposal_index:" 112 (by decide) (by decide)
    refine hframe (h.handler .daoProposal (applyDaoProposal X tx) (by simp [applyTx, applyTransaction, htype'])) ?_
    simp [applyDaoProposal, proposalKey, proposalIndexKey, hproposal, hindex]
  · exact absurd htype' htype
  · have hexecution := noVoteWrite_tag "execution:" 101 (by decide) (by decide)
    have hlast := noVoteWrite_plain "last_execution_proposal" 108 (by decide) (by decide)
    refine hframe (h.handler .daoExecution (applyDaoExecution X tx) (by simp [applyTx, applyTransaction, htype'])) ?_
    simp [applyDaoExecution, executionKey, hexecution, hlast]
  · refine hframe (h.handler .contractDeployment (applyContractDeployment X tx (X.hashTransaction tx))
      (by simp [applyTx, applyTransaction, htype'])) ?_
    refine ensures_applyContractDeployment_of (fun _ _ => trivial) fun tag htag contract raw => ?_
    exact noVoteWrite_plain tag 95 (deploymentTag_mem tag htag) (by decide) contract (some raw)
  · refine hframe (h.handler .contractExecution (applyContractExecution X tx (X.hashTransaction tx) height)
      (by simp [applyTx, applyTransaction, htype'])) ?_
    exact ensures_applyContractExecution_of (fun _ _ _ => noVoteWrite_tag "__call:" 95 (by decide) (by decide) _ _ _)
      (fun _ _ => noVoteWrite_plain "__last_call_key" 95 (by decide) (by decide) _ _)

theorem exists_vote (h : TxStaged X E s height tx b o b') (htype : tx.transactionType = .daoVote) :
    ∃ vote, voteOf tx = some vote := by
  have hp := h.handler .daoVote (applyDaoVote X tx height) (by simp [applyTx, applyTransaction, htype])
  obtain ⟨vote, b₁, hdata, -⟩ := Prog.stage_bind_eq_ok.mp hp
  obtain ⟨hdata, -⟩ := stage_requireSome_eq_ok.mp hdata
  exact ⟨vote, (if_pos htype).trans hdata⟩

theorem staged_vote (h : TxStaged X E s height tx b o b') {vote : DaoVoteData} (hvote : voteOf tx = some vote) :
    (∃ raw proposal, (committed s).storage X.daoStateContractId (proposalKey vote.proposalId) = some raw ∧
      X.deserializeProposal raw = .ok proposal ∧
      height ≤ saturatingAddU64 proposal.createdAtHeight proposal.votingPeriodBlocks) ∧
    b' = AList.insert (Key.contractStorage X.daoStateContractId (recordKey vote)) (some (X.serializeVote vote)) b := by
  obtain ⟨htype, hdata⟩ := type_of_voteOf hvote
  have hp := h.handler .daoVote (applyDaoVote X tx height) (by simp [applyTx, applyTransaction, htype])
  obtain ⟨vote', b₁, hdata', hp⟩ := Prog.stage_bind_eq_ok.mp hp
  obtain ⟨hdata', rfl⟩ := stage_requireSome_eq_ok.mp hdata'
  obtain rfl : vote = vote' := Option.some.inj (hdata.symm.trans hdata')
  obtain ⟨stored, b₂, hstored, hp⟩ := Prog.stage_bind_eq_ok.mp hp
  rw [stage_getContractStorage] at hstored
  cases hstored
  obtain ⟨raw, b₃, hraw, hp⟩ := Prog.stage_bind_eq_ok.mp hp
  obtain ⟨hraw, rfl⟩ := stage_requireSome_eq_ok.mp hraw
  split at hp
  · cases hp
  · next proposal hproposal =>
    rcases Prog.stage_ite_eq_ok.mp hp with ⟨-, hp⟩ | ⟨hopen, hp⟩
    · cases hp
    · rw [stage_putContractStorage] at hp
      cases hp
      exact ⟨⟨raw, proposal, hraw, hproposal, Nat.not_lt.mp hopen⟩, rfl⟩

theorem VotesRecorded.concat {σ τ : ChainState} {vote : DaoVoteData} (h : VotesRecorded X σ votes)
    (hτ : ∀ key : List UInt8, key.head? = some 118 → τ.storage X.daoStateContractId key =
      if recordKey vote = key then some (X.serializeVote vote) else σ.storage X.daoStateContractId key) :
    VotesRecorded X τ (votes ++ [vote]) := by
  intro key hkey
  rw [hτ key hkey, h key hkey, List.reverse_append, List.reverse_singleton, List.singleton_append, List.find?_cons]
  by_cases hrecord : recordKey vote = key
  · simp [hrecord]
  · simp [hrecord]

theorem VotesRecorded.congr {σ τ : ChainState} (h : VotesRecorded X σ votes)
    (hτ : ∀ key : List UInt8, key.head? = some 118 →
      τ.storage X.daoStateContractId key = σ.storage X.daoStateContractId key) : VotesRecorded X τ votes :=
  fun key hkey => (hτ key hkey).trans (h key hkey)

theorem VotesRecorded.staged (h : VotesRecorded X (Execution.staged s b) votes)
    (hstaged : TxStaged X E s height tx b o b') :
    VotesRecorded X (Execution.staged s b') (votes ++ (voteOf tx).toList) := by
  by_cases htype : tx.transactionType = .daoVote
  · obtain ⟨vote, hvote⟩ := exists_vote hstaged htype
    obtain ⟨-, rfl⟩ := staged_vote hstaged hvote
    rw [hvote]
    refine h.concat fun key _ => ?_
    by_cases hkey : recordKey vote = key
    · subst hkey
      rw [if_pos rfl]
      exact staged_insert_self _ _ _ _
    · rw [if_neg hkey]
      exact latest_insert_of_ne (fun heq => hkey (Key.contractStorage.inj heq).2.symm) _
  · rw [show voteOf tx = none from if_neg htype, Option.toList_none, List.append_nil]
    refine h.congr fun key hkey => ?_
    rw [ChainState.storage, ChainState.storage, Execution.staged, Execution.staged, latest, latest,
      lookup_staged_of_notVote hstaged htype _ hkey]

/-! ## Chains -/

section

variable {c : Chain} {st st' : SledStore} {block : Block}

theorem filterMap_voteOf_nonCoinbase (txs : List Transaction) :
    (txs.filter fun tx => tx.transactionType ≠ .coinbase).filterMap voteOf = txs.filterMap voteOf := by
  rw [List.filterMap_filter]
  refine List.filterMap_congr fun tx _ => ?_
  by_cases htype : tx.transactionType = .coinbase
  · simp [htype, voteOf]
  · simp [htype]

theorem VotesRecorded.step (h : VotesRecorded X st.state votes) (haccept : Accepts X E st block st') :
    VotesRecorded X st'.state (votes ++ block.appliedTxs.filterMap voteOf) := by
  obtain ⟨o, haccept⟩ := haccept
  have hplain := plain_contractStorage X.daoStateContractId
  unfold Block.appliedTxs
  split
  · next hheight =>
    rw [List.filterMap_nil, List.append_nil]
    exact h.congr fun key _ => applyBlock_genesis haccept hheight (hplain key).isState (by simp) (by simp)
  · next hheight =>
    obtain ⟨fees, b₁, b₂, htxs, hcoinbase, hstate⟩ := applyBlock_staged haccept hheight
    have hloop : VotesRecorded X (Execution.staged st.trees b₁) (votes ++ (nonCoinbaseTxs block).filterMap voteOf) := by
      refine htxs.invariant (I := fun done _ b => VotesRecorded X (Execution.staged st.trees b)
        (votes ++ done.filterMap voteOf)) (List.nil_append _) (fun done tx _ _ b _ b' _ hstaged hdone => ?_) ?_
      · have hvotes : (done ++ [tx]).filterMap voteOf = done.filterMap voteOf ++ (voteOf tx).toList := by
          rw [List.filterMap_append, List.filterMap_cons]
          cases voteOf tx <;> rfl
        rw [hvotes, ← List.append_assoc]
        exact hdone.staged hstaged
      · rw [List.filterMap_nil, List.append_nil]
        exact h
    rw [nonCoinbaseTxs, filterMap_voteOf_nonCoinbase] at hloop
    refine hloop.congr fun key _ => (hstate _ (hplain key).isState).trans ?_
    rw [ChainState.storage, Execution.staged, Execution.staged, latest, latest, hcoinbase.lookup_eq (hplain key).notCoinbase]

/-- The condition: no voter votes twice on one proposal, and genesis holds no votes. -/
structure VotesOnce (c : Chain) (block : Block) : Prop where
  once : ((getAllDaoVotes (c.blocks ++ [block])).map fun vote => (vote.proposalId, vote.voter)).Nodup
  genesis : block.header.height = 0 → block.transactions.filterMap voteOf = []

instance (c : Chain) (block : Block) : Decidable (VotesOnce c block) :=
  decidable_of_iff (_ ∧ (block.header.height = 0 → block.transactions.filterMap voteOf = []))
    ⟨fun h => ⟨h.1, h.2⟩, fun h => ⟨h.once, h.genesis⟩⟩

/-- The votes on the chain are those that are recorded, one for each voter. -/
structure OneVoteEach (X : Externals) (c : Chain) : Prop where
  recorded : VotesRecorded X c.store.state (getAllDaoVotes c.blocks)
  once : ((getAllDaoVotes c.blocks).map fun vote => (vote.proposalId, vote.voter)).Nodup

theorem OneVoteEach.step (h : OneVoteEach X c) (haccept : Accepts X E c.store block st) (hblock : VotesOnce c block) :
    OneVoteEach X ⟨st, c.blocks ++ [block]⟩ := by
  refine ⟨?_, hblock.once⟩
  have happlied : block.appliedTxs.filterMap voteOf = block.transactions.filterMap voteOf := by
    unfold Block.appliedTxs
    split
    · next hheight => rw [hblock.genesis hheight, List.filterMap_nil]
    · rfl
  rw [getAllDaoVotes_concat, ← happlied]
  exact h.recorded.step haccept

end

/-! ## The records of a proposal -/

def voteRecord (X : Externals) (decodeVote : List UInt8 → Option DaoVoteData) (proposalId : Hash) :
    (k : Key) → k.Val → Option DaoVoteData
  | .contractStorage contract key, raw =>
    if contract = X.daoStateContractId ∧ (voteTag proposalId).isPrefixOf key then decodeVote raw else none
  | _, _ => none

/-- The votes on the proposal that DAO contract storage keeps under `vote:<proposal>:<voter>`. -/
def voteRecords (X : Externals) (decodeVote : List UInt8 → Option DaoVoteData) (st : SledStore) (proposalId : Hash) :
    List DaoVoteData :=
  st.trees.entries.filterMap fun e => voteRecord X decodeVote proposalId e.1 e.2

section

variable {decodeVote : List UInt8 → Option DaoVoteData} {proposalId : Hash} {c : Chain}

theorem voteRecord_eq_some {k : Key} {v : k.Val} {vote : DaoVoteData}
    (h : voteRecord X decodeVote proposalId k v = some vote) :
    ∃ (key raw : List UInt8), (⟨k, v⟩ : Sigma Key.Val) = ⟨.contractStorage X.daoStateContractId key, raw⟩ ∧
      voteTag proposalId <+: key ∧ decodeVote raw = some vote := by
  cases k with
  | contractStorage contract key =>
    simp only [voteRecord] at h
    split at h
    · next hrecord =>
      obtain ⟨rfl, htag⟩ := hrecord
      exact ⟨key, v, rfl, List.isPrefixOf_iff_prefix.mp htag, h⟩
    · cases h
  | _ => cases h

theorem head?_of_voteTag {key : List UInt8} (h : voteTag proposalId <+: key) : key.head? = some 118 := by
  obtain ⟨rest, rfl⟩ := h
  rw [voteTag, List.append_assoc, List.append_assoc]
  exact head?_tagged (by decide) _

theorem OneVoteEach.record (h : OneVoteEach X c)
    (hcodec : ∀ vote ∈ getAllDaoVotes c.blocks, decodeVote (X.serializeVote vote) = some vote) {e : Sigma Key.Val}
    (he : e ∈ c.store.trees.entries) {vote : DaoVoteData}
    (hvote : voteRecord X decodeVote proposalId e.1 e.2 = some vote) :
    e.1 = .contractStorage X.daoStateContractId (recordKey vote) ∧ vote ∈ getAllDaoVotes c.blocks ∧
      vote.proposalId = proposalId := by
  obtain ⟨key, raw, heq, htag, hraw⟩ := voteRecord_eq_some hvote
  obtain rfl : e = ⟨.contractStorage X.daoStateContractId key, raw⟩ := heq
  have hstored : c.store.state.storage X.daoStateContractId key = some raw := AList.mem_lookup_iff.mpr he
  rw [h.recorded key (head?_of_voteTag htag)] at hstored
  obtain ⟨vote', hfind, rfl⟩ := Option.map_eq_some_iff.mp hstored
  have hmem := List.mem_reverse.mp (List.mem_of_find?_eq_some hfind)
  rw [hcodec vote' hmem] at hraw
  cases hraw
  have hkey : recordKey vote = key := by simpa using List.find?_some hfind
  subst hkey
  exact ⟨rfl, hmem, voteTag_isPrefix.mp htag⟩

theorem OneVoteEach.exists_record (h : OneVoteEach X c) {vote : DaoVoteData} (hvote : vote ∈ getAllDaoVotes c.blocks) :
    c.store.state.storage X.daoStateContractId (recordKey vote) = some (X.serializeVote vote) := by
  have hfind : (getAllDaoVotes c.blocks).reverse.find? (fun v => recordKey v = recordKey vote) = some vote := by
    obtain ⟨vote', hfind⟩ := Option.isSome_iff_exists.mp (List.find?_isSome (p := fun v => recordKey v = recordKey vote)
      |>.mpr ⟨vote, List.mem_reverse.mpr hvote, decide_eq_true rfl⟩)
    have hkey : recordKey vote' = recordKey vote := by simpa using List.find?_some hfind
    obtain ⟨hid, hvoter⟩ := recordKey_inj hkey
    have hmem := List.mem_reverse.mp (List.mem_of_find?_eq_some hfind)
    rw [hfind, List.inj_on_of_nodup_map h.once hmem hvote (by rw [hid, hvoter])]
  rw [h.recorded (recordKey vote) (head?_voteKey _ _), hfind]
  rfl

theorem OneVoteEach.voteRecords_perm (h : OneVoteEach X c)
    (hcodec : ∀ vote ∈ getAllDaoVotes c.blocks, decodeVote (X.serializeVote vote) = some vote) (proposalId : Hash) :
    (voteRecords X decodeVote c.store proposalId).Perm (getDaoVotesForProposal c.blocks proposalId) := by
  have hnodup : (voteRecords X decodeVote c.store proposalId).Nodup := by
    refine List.pairwise_filterMap.mpr (c.store.trees.nodupKeys.pairwise_ne.imp_of_mem ?_)
    intro e e' he he' hne vote hvote vote' hvote' heq
    subst heq
    exact hne ((h.record hcodec he hvote).1.trans (h.record hcodec he' hvote').1.symm)
  refine (List.perm_ext_iff_of_nodup hnodup ((List.Nodup.of_map _ h.once).filter _)).mpr fun vote => ?_
  simp only [voteRecords, List.mem_filterMap, List.mem_filter, decide_eq_true_eq]
  constructor
  · rintro ⟨e, he, hvote⟩
    exact (h.record hcodec he hvote).2
  · rintro ⟨hvote, rfl⟩
    refine ⟨⟨.contractStorage X.daoStateContractId (recordKey vote), X.serializeVote vote⟩,
      AList.mem_lookup_iff.mp (h.exists_record hvote), ?_⟩
    have htag := List.isPrefixOf_iff_prefix.mpr (voteTag_isPrefix.mpr (rfl : vote.proposalId = vote.proposalId))
    simp only [voteRecord, htag, and_self, if_true, hcodec vote hvote]

end

/-- In every state of a chain whose blocks all meet the condition, the tally of each proposal is that of its records. -/
theorem tally_is_one_vote_per_voter (decodeVote : List UInt8 → Option DaoVoteData) (blocks : List Block)
    (hblocks : Along (Chain.offer X E) (fun c block => (∃ st, Accepts X E c.store block st) → VotesOnce c block)
      ⟨.empty, []⟩ blocks)
    (hcodec : ∀ vote ∈ getAllDaoVotes (run (Chain.offer X E) ⟨.empty, []⟩ blocks).blocks,
      decodeVote (X.serializeVote vote) = some vote) (proposalId : Hash) :
    tallyDaoVotes (run (Chain.offer X E) ⟨.empty, []⟩ blocks).blocks proposalId =
      countVotes (voteRecords X decodeVote (run (Chain.offer X E) ⟨.empty, []⟩ blocks).store proposalId) := by
  have hinit : OneVoteEach X ⟨.empty, []⟩ := ⟨fun _ _ => rfl, List.nodup_nil⟩
  have heach := Chain.invariant (fun c block st haccept hblock hc => OneVoteEach.step hc haccept hblock) hblocks hinit
  exact countVotes_perm (heach.voteRecords_perm hcodec proposalId).symm

/-! ## Two voters, and one voter twice -/

/-- Surroundings in which every stored proposal reads as one that is open until height 11. -/
def ballotExternals : Externals :=
  { silentExternals with
    deserializeProposal := fun _ => .ok ⟨7, "did:proposer", "title", "text", "fee_structure", 10, 50, none, 0, 1⟩
    serializeVote := fun vote => bytesOf vote.voter ++ bytesOf vote.voteChoice }

def ballot (voter choice : String) : DaoVoteData := ⟨1, 7, voter, choice, 10, none, 0⟩

def ballotTx (voter choice : String) : Transaction := tokenTx .daoVote (.daoVote (ballot voter choice))

def decodeBallot (raw : List UInt8) : Option DaoVoteData :=
  [ballot "ann" "Yes", ballot "ann" "No", ballot "bob" "No"].find? fun vote => ballotExternals.serializeVote vote = raw

def twoVoters : List Block :=
  [blockAt 0 [], blockAt 1 [proposalTx "title"], blockAt 2 [ballotTx "ann" "Yes"], blockAt 3 [ballotTx "bob" "No"]]

def ballotChain (blocks : List Block) : Chain := run (Chain.offer ballotExternals defaultExecutor) ⟨.empty, []⟩ blocks

theorem tally_is_one_vote_per_voter_for_two :
    Along (Chain.offer ballotExternals defaultExecutor)
        (fun c block => (∃ st, Accepts ballotExternals defaultExecutor c.store block st) → VotesOnce c block)
        ⟨.empty, []⟩ twoVoters ∧
      tallyDaoVotes (ballotChain twoVoters).blocks 7 = ⟨10, 10, 0, 20⟩ ∧
      tallyDaoVotes (ballotChain twoVoters).blocks 7 =
        countVotes (voteRecords ballotExternals decodeBallot (ballotChain twoVoters).store 7) := by
  have honce : Along (Chain.offer ballotExternals defaultExecutor) VotesOnce ⟨.empty, []⟩ twoVoters ∧
      tallyDaoVotes (ballotChain twoVoters).blocks 7 = ⟨10, 10, 0, 20⟩ ∧
      ∀ vote ∈ getAllDaoVotes (ballotChain twoVoters).blocks,
        decodeBallot (ballotExternals.serializeVote vote) = some vote := by
    decide +kernel
  have hblocks : Along (Chain.offer ballotExternals defaultExecutor)
      (fun c block => (∃ st, Accepts ballotExternals defaultExecutor c.store block st) → VotesOnce c block)
      ⟨.empty, []⟩ twoVoters := honce.1.mono fun _ _ h _ => h
  exact ⟨hblocks, honce.2.1, tally_is_one_vote_per_voter decodeBallot twoVoters hblocks honce.2.2 7⟩

/-- One voter votes three times: the record keeps the last vote, the tally counts all. -/
theorem repeated_votes_are_all_counted :
    let c := ballotChain [blockAt 0 [], blockAt 1 [proposalTx "title"],
      blockAt 2 [ballotTx "ann" "Yes", ballotTx "ann" "Yes"], blockAt 3 [ballotTx "ann" "No"]]
    c.blocks.length = 4 ∧ voteRecords ballotExternals decodeBallot c.store 7 = [ballot "ann" "No"] ∧
      tallyDaoVotes c.blocks 7 = ⟨20, 10, 0, 30⟩ ∧
      countVotes (voteRecords ballotExternals decodeBallot c.store 7) = ⟨0, 10, 0, 10⟩ := by
  decide +kernel

end SovereignNetwork.Dao
