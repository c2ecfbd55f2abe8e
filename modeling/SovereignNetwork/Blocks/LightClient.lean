import Mathlib.Data.List.Chain
import SovereignNetwork.Blocks.Commitment
import SovereignNetwork.Lib.Run

/-!
# Payments seen by an edge node

An edge node keeps a window of headers and verifies payments with Merkle proofs. A proof is a list of siblings without
positions, and each sibling is hashed on the right.
-/

namespace SovereignNetwork.Blocks

open Lib Execution
open Contracts (nodeInput hashNodes CollisionFree nodeInput_inj)

structure UtxoKey where
  txHash : Hash
  outputIndex : Nat
  deriving DecidableEq

structure VerifiedPayment where
  txHash : Hash
  outputIndex : Nat
  commitment : Hash
  blockHeight : Nat
  blockHash : Hash
  confirmed : Bool
  deriving DecidableEq

structure EdgeNodeState where
  headers : List BlockHeader
  maxHeaders : Nat
  currentHeight : Nat
  myUtxos : HashMap UtxoKey TransactionOutput
  myAddresses : List (List UInt8)

/-- The first eight bytes of a hash in messages. -/
def hexPrefix (hash : Hash) : String := hexEncode (hash.asSlice.take 8)

def BlockHeader.hasReasonableTimestamp (header : BlockHeader) : Bool := 0 < header.timestamp

/-- The window after the oldest entries beyond its size are dropped. -/
def trimmed {α : Type} (size : Nat) (l : List α) : List α := l.drop (l.length - size)

namespace EdgeNodeState

def new (maxHeaders : Nat) : EdgeNodeState := ⟨[], maxHeaders, 0, ∅, []⟩

def addAddress (s : EdgeNodeState) (address : List UInt8) : EdgeNodeState :=
  if address ∈ s.myAddresses then s else { s with myAddresses := s.myAddresses ++ [address] }

def isMyAddress (s : EdgeNodeState) (key : PublicKey) : Bool := key.dilithiumPk.asSlice ∈ s.myAddresses

/-! ## Outputs -/

def addUtxo (s : EdgeNodeState) (txHash : Hash) (outputIndex : Nat) (output : TransactionOutput) : EdgeNodeState :=
  if s.isMyAddress output.recipient then { s with myUtxos := s.myUtxos.insert ⟨txHash, outputIndex⟩ output } else s

def removeUtxo (s : EdgeNodeState) (txHash : Hash) (outputIndex : Nat) : EdgeNodeState :=
  { s with myUtxos := s.myUtxos.erase ⟨txHash, outputIndex⟩ }

variable (X : BlockExternals)

/-- The outputs of a transaction are added before its inputs are removed. -/
def scanTransaction (s : EdgeNodeState) (tx : Transaction) : EdgeNodeState :=
  let s := tx.outputs.zipIdx.foldl
    (fun s entry =>
      if s.isMyAddress entry.1.recipient then s.addUtxo (hashTransaction X tx) (wrapU32 entry.2) entry.1 else s) s
  tx.inputs.foldl (fun s input => s.removeUtxo input.previousOutput input.outputIndex) s

/-! ## Headers -/

def getLatestHeader (s : EdgeNodeState) : Option BlockHeader := s.headers.getLast?

def getHeaderByHeight (s : EdgeNodeState) (height : Nat) : Option BlockHeader :=
  s.headers.find? fun header => header.height = height

def validateContinuity (header latest : BlockHeader) : Except String Unit := do
  let expected := wrapU64 (latest.height + 1)
  let height := header.height
  if header.height ≠ expected then
    throw s!"Non-sequential height: expected {expected}, got {height}"
  if header.previousHash ≠ latest.blockHash then
    let previous := hexPrefix header.previousHash
    let stored := hexPrefix latest.blockHash
    throw s!"Chain discontinuity: previous_hash \"{previous}\" != latest_hash \"{stored}\""
  if header.timestamp ≤ latest.timestamp then
    let timestamp := header.timestamp
    let previous := latest.timestamp
    throw s!"Invalid timestamp: {timestamp} <= previous {previous}"

/-- A first header may have any height. -/
def validateHeader (s : EdgeNodeState) (header : BlockHeader) : Except String Unit := do
  if header.version = 0 then
    throw "Invalid header version: 0"
  if calculateHash X header ≠ header.blockHash then
    let calculated := hexPrefix (calculateHash X header)
    let stored := hexPrefix header.blockHash
    throw s!"Invalid block hash: calculated \"{calculated}\" != stored \"{stored}\""
  if ¬ BlockHeader.hasReasonableTimestamp header then
    throw "Invalid timestamp: too far in future"
  match s.getLatestHeader with
  | some latest => validateContinuity header latest
  | none => return ()

def addHeader (s : EdgeNodeState) (header : BlockHeader) : Except String EdgeNodeState := do
  s.validateHeader X header
  return { s with
    currentHeight := if s.currentHeight < header.height then header.height else s.currentHeight
    headers := trimmed s.maxHeaders (s.headers ++ [header]) }

/-- The header stays in the window even if the transactions do not match its root. -/
def processBlock (s : EdgeNodeState) (header : BlockHeader) (transactions : List Transaction) :
    Except String Unit × EdgeNodeState :=
  match s.addHeader X header with
  | .error e => (.error e, s)
  | .ok s =>
    let root := calculateTransactionMerkleRoot X transactions
    if root ≠ header.dataHelixRoot then
      let computed := hexPrefix root
      let stored := hexPrefix header.dataHelixRoot
      (.error s!"Transaction merkle root mismatch: computed \"{computed}\" != header \"{stored}\"", s)
    else
      (.ok (), transactions.foldl (scanTransaction X) s)

/-! ## Payments -/

/-- Each sibling is hashed on the right of the node. -/
def verifyMerkleProof (txHash : Hash) (merkleProof : List Hash) (expectedRoot : Hash) : Except String Hash :=
  let current := merkleProof.foldl (hashNodes X.blake3) txHash
  if current = expectedRoot then .ok current else .error "Merkle proof does not match expected root"

def verifyPayment (s : EdgeNodeState) (txHash : Hash) (outputIndex : Nat) (output : TransactionOutput)
    (merkleProof : List Hash) (blockHeight : Nat) : Except String VerifiedPayment := do
  if ¬ s.isMyAddress output.recipient then
    throw "Output recipient does not match my addresses"
  let header ← okOr (s.getHeaderByHeight blockHeight) s!"Header not found for block {blockHeight}"
  let computed ← verifyMerkleProof X txHash merkleProof header.dataHelixRoot
  if computed ≠ header.dataHelixRoot then
    throw "Merkle proof verification failed"
  return ⟨txHash, outputIndex, output.commitment, blockHeight, header.blockHash, true⟩

end EdgeNodeState

/-! ## The window -/

/-- The node with the blocks of the headers in its window. -/
structure LightLedger where
  node : EdgeNodeState
  window : List Block

inductive LightCall where
  | addAddress (address : List UInt8)
  | processBlock (block : Block)

namespace LightLedger

open EdgeNodeState

def start (maxHeaders : Nat) : LightLedger := ⟨.new maxHeaders, []⟩

variable (X : BlockExternals)

def step (l : LightLedger) : LightCall → LightLedger
  | .addAddress address => { l with node := l.node.addAddress address }
  | .processBlock block =>
    { node := (l.node.processBlock X block.header block.transactions).2
      window := trimmed l.node.maxHeaders (l.window ++ [block]) }

/-- Blocks are processed with success. Their heights are 64-bit numbers. -/
def Accepted (l : LightLedger) : LightCall → Prop
  | .addAddress _ => True
  | .processBlock block =>
    (l.node.processBlock X block.header block.transactions).1.isOk ∧ block.header.height < 2 ^ 64

/-- Heights follow one another, past the last one from zero. -/
def Sequential (heights : List Nat) : Prop := heights.IsChain fun a b => b = wrapU64 (a + 1)

theorem Sequential.get {first : Nat} {rest : List Nat} (h : Sequential (first :: rest)) (hfirst : first < 2 ^ 64) (i : Nat)
    (hi : i < (first :: rest).length) : (first :: rest)[i] = wrapU64 (first + i) := by
  induction i with
  | zero => exact (Nat.mod_eq_of_lt hfirst).symm
  | succ i ih =>
    have hnext := List.isChain_iff_getElem.mp h i hi
    rw [hnext, ih (Nat.lt_of_succ_lt hi), wrapU64, wrapU64, wrapU64]
    omega

theorem Sequential.nodup {heights : List Nat} (h : Sequential heights) (hrange : ∀ height ∈ heights, height < 2 ^ 64)
    (hlength : heights.length < 2 ^ 64) : heights.Nodup := by
  cases heights with
  | nil => exact List.nodup_nil
  | cons first rest =>
    have hfirst := hrange first List.mem_cons_self
    refine List.nodup_iff_getElem?_ne_getElem?.mpr fun i j hij hj => ?_
    have hi : i < (first :: rest).length := hij.trans hj
    rw [List.getElem?_eq_getElem hi, List.getElem?_eq_getElem hj, h.get hfirst i hi, h.get hfirst j hj, wrapU64, wrapU64]
    intro heq
    have heq := Option.some.inj heq
    omega

structure Inv (maxHeaders : Nat) (l : LightLedger) : Prop where
  size : l.node.maxHeaders = maxHeaders
  headers : l.node.headers = l.window.map Block.header
  bounded : l.window.length ≤ maxHeaders
  roots : ∀ block ∈ l.window, calculateTransactionMerkleRoot X block.transactions = block.header.dataHelixRoot
  range : ∀ block ∈ l.window, block.header.height < 2 ^ 64
  sequential : Sequential (l.window.map fun block => block.header.height)

end LightLedger

variable {X : BlockExternals}

namespace EdgeNodeState

variable {s s' : EdgeNodeState} {header : BlockHeader} {transactions : List Transaction}

def SameWindow (s s' : EdgeNodeState) : Prop := s'.headers = s.headers ∧ s'.maxHeaders = s.maxHeaders

theorem SameWindow.refl (s : EdgeNodeState) : SameWindow s s := ⟨rfl, rfl⟩

theorem SameWindow.trans {s'' : EdgeNodeState} (h : SameWindow s s') (h' : SameWindow s' s'') : SameWindow s s'' :=
  ⟨h'.1.trans h.1, h'.2.trans h.2⟩

theorem SameWindow.foldl {α : Type} {f : EdgeNodeState → α → EdgeNodeState} (hf : ∀ s a, SameWindow s (f s a))
    (as : List α) (s : EdgeNodeState) : SameWindow s (as.foldl f s) := by
  induction as generalizing s with
  | nil => exact .refl s
  | cons a as ih => exact (hf s a).trans (ih _)

theorem sameWindow_addAddress (s : EdgeNodeState) (address : List UInt8) : SameWindow s (s.addAddress address) := by
  rw [addAddress]
  split
  · exact .refl s
  · exact ⟨rfl, rfl⟩

theorem isMyAddress_addAddress (s : EdgeNodeState) (key : PublicKey) :
    (s.addAddress key.dilithiumPk.asSlice).isMyAddress key := by
  rw [addAddress]
  split
  · rename_i hmem
    exact decide_eq_true hmem
  · simp [isMyAddress]

theorem sameWindow_addUtxo (s : EdgeNodeState) (txHash : Hash) (outputIndex : Nat) (output : TransactionOutput) :
    SameWindow s (s.addUtxo txHash outputIndex output) := by
  rw [addUtxo]
  split
  · exact ⟨rfl, rfl⟩
  · exact .refl s

theorem sameWindow_scanTransaction (s : EdgeNodeState) (tx : Transaction) : SameWindow s (s.scanTransaction X tx) := by
  rw [scanTransaction]
  refine SameWindow.trans (SameWindow.foldl ?_ tx.outputs.zipIdx s) (SameWindow.foldl ?_ tx.inputs _)
  · intro t entry
    split
    · exact t.sameWindow_addUtxo _ _ _
    · exact .refl t
  · intro t input
    exact ⟨rfl, rfl⟩

theorem height_of_validateHeader (h : s.validateHeader X header = .ok ()) :
    ∀ latest ∈ s.headers.getLast?, header.height = wrapU64 (latest.height + 1) := by
  intro latest hlatest
  simp only [validateHeader, guard_eq_ok] at h
  obtain ⟨-, -, -, h⟩ := h
  rw [getLatestHeader, Option.mem_def.mp hlatest] at h
  simp only [validateContinuity, guard_eq_ok] at h
  exact not_not.mp h.1

theorem processBlock_ok (h : (s.processBlock X header transactions).1.isOk) :
    (s.processBlock X header transactions).2.headers = trimmed s.maxHeaders (s.headers ++ [header]) ∧
      (s.processBlock X header transactions).2.maxHeaders = s.maxHeaders ∧
      calculateTransactionMerkleRoot X transactions = header.dataHelixRoot ∧
      ∀ latest ∈ s.headers.getLast?, header.height = wrapU64 (latest.height + 1) := by
  rw [processBlock] at h ⊢
  cases hadd : s.addHeader X header with
  | error e => rw [hadd] at h; cases h
  | ok t =>
    rw [hadd] at h
    simp only [addHeader, bind_eq_ok, pure_eq_ok] at hadd
    obtain ⟨_, hvalid, ht⟩ := hadd
    dsimp only at h ⊢
    split at h
    · cases h
    · rename_i hroot
      rw [if_neg hroot]
      obtain ⟨hheaders, hmax⟩ := SameWindow.foldl (sameWindow_scanTransaction (X := X)) transactions t
      rw [hheaders, hmax, ← ht]
      exact ⟨rfl, rfl, not_not.mp hroot, height_of_validateHeader hvalid⟩

end EdgeNodeState

namespace LightLedger

open EdgeNodeState

variable {l : LightLedger} {maxHeaders : Nat} {calls : List LightCall}

theorem map_trimmed {α β : Type} (f : α → β) (size : Nat) (l : List α) : (trimmed size l).map f = trimmed size (l.map f) := by
  simp [trimmed]

theorem mem_of_mem_trimmed {α : Type} {size : Nat} {l : List α} {a : α} (h : a ∈ trimmed size l) : a ∈ l :=
  List.mem_of_mem_drop h

theorem inv_start (maxHeaders : Nat) : Inv X maxHeaders (start maxHeaders) where
  size := rfl
  headers := rfl
  bounded := Nat.zero_le _
  roots _ h := absurd h List.not_mem_nil
  range _ h := absurd h List.not_mem_nil
  sequential := .nil

theorem Inv.processBlock {block : Block} (h : Inv X maxHeaders l)
    (hok : (l.node.processBlock X block.header block.transactions).1.isOk) (hheight : block.header.height < 2 ^ 64) :
    Inv X maxHeaders (step X l (.processBlock block)) := by
  obtain ⟨hheaders, hmax, hroot, hlatest⟩ := processBlock_ok hok
  have hblocks : ∀ b ∈ trimmed l.node.maxHeaders (l.window ++ [block]), b ∈ l.window ∨ b = block := fun b hb => by
    simpa using mem_of_mem_trimmed hb
  refine ⟨hmax.trans h.size, ?_, ?_, fun b hb => ?_, fun b hb => ?_, ?_⟩
  · rw [step, hheaders, map_trimmed, List.map_append, h.headers, List.map_singleton]
  · simp only [step, trimmed, List.length_drop, h.size]
    omega
  · rcases hblocks b hb with hb | rfl
    · exact h.roots b hb
    · exact hroot
  · rcases hblocks b hb with hb | rfl
    · exact h.range b hb
    · exact hheight
  · rw [step, map_trimmed, List.map_append, List.map_singleton]
    refine List.IsChain.drop (List.isChain_append.mpr ⟨h.sequential, .singleton _, fun last hlast height hhead => ?_⟩) _
    obtain rfl : block.header.height = height := by simpa using hhead
    obtain ⟨b, hb, rfl⟩ : ∃ b ∈ l.window.getLast?, b.header.height = last := by simpa using hlast
    refine hlatest b.header ?_
    rw [h.headers, List.getLast?_map, Option.mem_def.mp hb]
    rfl

theorem inv_step (call : LightCall) (hok : Accepted X l call) (h : Inv X maxHeaders l) :
    Inv X maxHeaders (step X l call) := by
  cases call with
  | addAddress address =>
    obtain ⟨hheaders, hmax⟩ := l.node.sameWindow_addAddress address
    exact ⟨hmax.trans h.size, hheaders.trans h.headers, h.bounded, h.roots, h.range, h.sequential⟩
  | processBlock block => exact h.processBlock hok.1 hok.2

theorem inv_run (hrun : Along (step X) (Accepted X) (start maxHeaders) calls) :
    Inv X maxHeaders (run (step X) (start maxHeaders) calls) :=
  hrun.invariant (fun _ call hok h => inv_step call hok h) (inv_start maxHeaders)

theorem Inv.getHeaderByHeight (h : Inv X maxHeaders l) (hsize : maxHeaders < 2 ^ 64) {block : Block}
    (hblock : block ∈ l.window) : l.node.getHeaderByHeight block.header.height = some block.header := by
  have hnodup := h.sequential.nodup (by simpa using h.range) (by simpa using Nat.lt_of_le_of_lt h.bounded hsize)
  rw [EdgeNodeState.getHeaderByHeight, h.headers]
  obtain ⟨header, hfound⟩ : ∃ header, (l.window.map Block.header).find?
      (fun header => decide (header.height = block.header.height)) = some header := by
    rw [← Option.isSome_iff_exists, List.find?_isSome]
    exact ⟨_, List.mem_map_of_mem hblock, by simp⟩
  obtain ⟨block', hblock', rfl⟩ := List.mem_map.mp (List.mem_of_find?_eq_some hfound)
  have hheight : block'.header.height = block.header.height := by simpa using List.find?_some hfound
  rw [hfound, List.inj_on_of_nodup_map hnodup hblock' hblock hheight]

end LightLedger

/-! ## Proofs without positions -/

/-- The pairs hashed for the root of a block and on the way up of a proof. -/
def pairsUsed (X : BlockExternals) (block : Block) (txHash : Hash) (merkleProof : List Hash) : List (Hash × Hash) :=
  nodePairs X block.transactions ++ Merkle.leftPairs (hashNodes X.blake3) txHash merkleProof

/-- What is assumed of BLAKE3 on what is hashed for a block and for a proof. No transaction hash is an inner node. -/
structure IdealProof (X : BlockExternals) (block : Block) (txHash : Hash) (merkleProof : List Hash) : Prop where
  collisionFree : CollisionFree X.blake3 ((pairsUsed X block txHash merkleProof).map nodeInput)
  leafNonzero : txHash ≠ 0
  nonzero : ∀ p ∈ pairsUsed X block txHash merkleProof, hashNodes X.blake3 p.1 p.2 ≠ 0
  inner : ∀ p ∈ pairsUsed X block txHash merkleProof,
    hashNodes X.blake3 p.1 p.2 ∉ txHash :: block.transactions.map (hashTransaction X)

namespace IdealProof

variable {block : Block} {txHash : Hash} {merkleProof merkleProof' : List Hash}

theorem mono (h : IdealProof X block txHash merkleProof)
    (hpairs : ∀ p ∈ Merkle.leftPairs (hashNodes X.blake3) txHash merkleProof', p ∈ pairsUsed X block txHash merkleProof) :
    IdealProof X block txHash merkleProof' := by
  have hused : ∀ p ∈ pairsUsed X block txHash merkleProof', p ∈ pairsUsed X block txHash merkleProof := fun p hp =>
    (List.mem_append.mp hp).elim (List.mem_append_left _) (hpairs p)
  refine ⟨h.collisionFree.mono fun input hi => ?_, h.leafNonzero, fun p hp => h.nonzero p (hused p hp),
    fun p hp => h.inner p (hused p hp)⟩
  obtain ⟨p, hp, rfl⟩ := List.mem_map.mp hi
  exact List.mem_map_of_mem (hused p hp)

theorem foldl_ne_zero (h : IdealProof X block txHash merkleProof) :
    merkleProof.foldl (hashNodes X.blake3) txHash ≠ 0 := by
  cases merkleProof using List.reverseRecOn with
  | nil => exact h.leafNonzero
  | append_singleton proof sibling =>
    rw [List.foldl_concat]
    refine h.nonzero (proof.foldl (hashNodes X.blake3) txHash, sibling) (List.mem_append_right _ ?_)
    rw [Merkle.leftPairs_concat]
    simp

theorem exists_first {tx : Transaction} {rest : List Transaction} (h : IdealProof X block (hashTransaction X tx) [])
    (htxs : block.transactions = tx :: rest) :
    ∃ proof, IdealProof X block (hashTransaction X tx) proof ∧
      proof.foldl (hashNodes X.blake3) (hashTransaction X tx) =
        calculateTransactionMerkleRoot X block.transactions := by
  have hne : block.transactions ≠ [] := by simp [htxs]
  obtain ⟨d, r, hroot, hfolds⟩ := Merkle.exists_root (h := hashNodes X.blake3)
    (l := block.transactions.map (hashTransaction X)) (by simpa using hne)
  obtain ⟨proof, hfold, hproof⟩ := hfolds.exists_left (a := hashTransaction X tx) (by rw [htxs, List.map_cons])
  refine ⟨proof, h.mono fun p hp => List.mem_append_left _ (hproof p hp), ?_⟩
  have heq := calculateTransactionMerkleRoot_eq (X := X) hne
  rw [hroot, Option.some.injEq] at heq
  rw [hfold, heq]

theorem first_of_root (h : IdealProof X block txHash merkleProof)
    (hroot : merkleProof.foldl (hashNodes X.blake3) txHash = calculateTransactionMerkleRoot X block.transactions) :
    ∃ tx, block.transactions.head? = some tx ∧ hashTransaction X tx = txHash := by
  cases htxs : block.transactions with
  | nil =>
    rw [htxs, calculateTransactionMerkleRoot, if_pos rfl] at hroot
    exact absurd hroot h.foldl_ne_zero
  | cons tx rest =>
    have hne : block.transactions ≠ [] := by simp [htxs]
    obtain ⟨d, r, htree, hfolds⟩ := Merkle.exists_root (h := hashNodes X.blake3)
      (l := block.transactions.map (hashTransaction X)) (by simpa using hne)
    obtain ⟨proof, hfold, hproof⟩ := hfolds.exists_left (a := hashTransaction X tx) (by rw [htxs, List.map_cons])
    have heq := calculateTransactionMerkleRoot_eq (X := X) hne
    rw [htree, Option.some.injEq] at heq
    have hleft : ∀ p ∈ Merkle.leftPairs (hashNodes X.blake3) (hashTransaction X tx) proof,
        p ∈ pairsUsed X block txHash merkleProof := fun p hp => List.mem_append_left _ (hproof p hp)
    have hmem : hashTransaction X tx ∈ block.transactions.map (hashTransaction X) :=
      List.mem_map_of_mem (by rw [htxs]; exact List.mem_cons_self)
    rcases Merkle.leftWalk_cases merkleProof proof (fun p hp q hq heq => nodeInput_inj
      (h.collisionFree _ (List.mem_map_of_mem (List.mem_append_right _ hp)) _ (List.mem_map_of_mem (hleft q hq)) heq))
      (hroot.trans (heq.trans hfold.symm)) with hsame | ⟨q, hq, hnode⟩ | ⟨p, hp, hnode⟩
    · exact ⟨tx, rfl, hsame.symm⟩
    · exact absurd (hnode ▸ List.mem_cons_self) (h.inner q (hleft q hq))
    · exact absurd (hnode ▸ List.mem_cons_of_mem _ hmem) (h.inner p (List.mem_append_right _ hp))

end IdealProof

namespace LightLedger

open EdgeNodeState

theorem verifyPayment_isOk {s : EdgeNodeState} {header : BlockHeader} {txHash : Hash} {outputIndex : Nat}
    {output : TransactionOutput} {merkleProof : List Hash} (hmine : s.isMyAddress output.recipient)
    (hheader : s.getHeaderByHeight header.height = some header) :
    (s.verifyPayment X txHash outputIndex output merkleProof header.height).isOk ↔
      merkleProof.foldl (hashNodes X.blake3) txHash = header.dataHelixRoot := by
  rw [verifyPayment, hheader]
  by_cases hroot : merkleProof.foldl (hashNodes X.blake3) txHash = header.dataHelixRoot
  · simp [hmine, hroot, verifyMerkleProof, okOr, bind, Except.bind, pure, Except.pure, Except.isOk, Except.toBool]
  · simp [hmine, hroot, verifyMerkleProof, okOr, bind, Except.bind, pure, Except.pure, Except.isOk, Except.toBool]

/-- Some proof of a payment is accepted if and only if the first transaction of the block has the hash. -/
theorem provable_iff_first {calls : List LightCall} {maxHeaders : Nat}
    (hrun : Along (step X) (Accepted X) (start maxHeaders) calls) (hsize : maxHeaders < 2 ^ 64) {block : Block}
    (hblock : block ∈ (run (step X) (start maxHeaders) calls).window) {txHash : Hash} {outputIndex : Nat}
    {output : TransactionOutput} (hideal : IdealProof X block txHash [])
    (hmine : (run (step X) (start maxHeaders) calls).node.isMyAddress output.recipient) :
    (∃ merkleProof, IdealProof X block txHash merkleProof ∧
      ((run (step X) (start maxHeaders) calls).node.verifyPayment X txHash outputIndex output merkleProof
        block.header.height).isOk) ↔
      ∃ tx, block.transactions.head? = some tx ∧ hashTransaction X tx = txHash := by
  have hinv := inv_run hrun
  have hheader := hinv.getHeaderByHeight hsize hblock
  simp only [verifyPayment_isOk hmine hheader, ← hinv.roots block hblock]
  constructor
  · rintro ⟨proof, hproof, hroot⟩
    exact hproof.first_of_root hroot
  · rintro ⟨tx, hhead, rfl⟩
    obtain ⟨rest, htxs⟩ := List.head?_eq_some_iff.mp hhead
    exact hideal.exists_first htxs

/-- Payment verification is sound and complete for the outputs of the first transaction of each block. -/
theorem payment_verification_exact (X : BlockExternals) (maxHeaders : Nat) (calls : List LightCall)
    (hrun : Along (step X) (Accepted X) (start maxHeaders) calls) (hsize : maxHeaders < 2 ^ 64) (block : Block)
    (hblock : block ∈ (run (step X) (start maxHeaders) calls).window) (txHash : Hash) (outputIndex : Nat)
    (output : TransactionOutput) (hideal : IdealProof X block txHash [])
    (hmine : (run (step X) (start maxHeaders) calls).node.isMyAddress output.recipient)
    (hfirst : ∀ i tx, block.transactions[i]? = some tx → hashTransaction X tx = txHash →
      (tx.outputs[outputIndex]? = some output ↔ i = 0)) :
    (∃ merkleProof, IdealProof X block txHash merkleProof ∧
      ((run (step X) (start maxHeaders) calls).node.verifyPayment X txHash outputIndex output merkleProof
        block.header.height).isOk) ↔
      ∃ tx ∈ block.transactions, hashTransaction X tx = txHash ∧ tx.outputs[outputIndex]? = some output := by
  rw [provable_iff_first hrun hsize hblock hideal hmine]
  constructor
  · rintro ⟨tx, hhead, hhash⟩
    rw [List.head?_eq_getElem?] at hhead
    exact ⟨tx, List.mem_of_getElem? hhead, hhash, (hfirst 0 tx hhead hhash).mpr rfl⟩
  · rintro ⟨tx, htx, hhash, houtput⟩
    obtain ⟨i, hi⟩ := List.getElem?_of_mem htx
    obtain rfl := (hfirst i tx hi hhash).mp houtput
    exact ⟨tx, List.head?_eq_getElem?.trans hi, hhash⟩

/-! ## Another output, another position -/

instance (X : BlockExternals) (block : Block) (txHash : Hash) (merkleProof : List Hash) :
    Decidable (IdealProof X block txHash merkleProof) :=
  decidable_of_iff
    (CollisionFree X.blake3 ((pairsUsed X block txHash merkleProof).map nodeInput) ∧ txHash ≠ 0 ∧
      (∀ p ∈ pairsUsed X block txHash merkleProof, hashNodes X.blake3 p.1 p.2 ≠ 0) ∧
      ∀ p ∈ pairsUsed X block txHash merkleProof,
        hashNodes X.blake3 p.1 p.2 ∉ txHash :: block.transactions.map (hashTransaction X))
    ⟨fun h => ⟨h.1, h.2.1, h.2.2.1, h.2.2.2⟩, fun h => ⟨h.collisionFree, h.leafNonzero, h.nonzero, h.inner⟩⟩

instance (X : BlockExternals) (l : LightLedger) : ∀ call, Decidable (Accepted X l call)
  | .addAddress _ => inferInstanceAs (Decidable True)
  | .processBlock _ => inferInstanceAs (Decidable (_ ∧ _))

/-- Inputs are told apart by their length and the sum of their bytes here. -/
def summing : BlockExternals where
  blake3 input := BitVec.ofNat 256 (input.foldl (fun n b => n + b.toNat) (1000 * input.length))
  serialize tx := [UInt8.ofNat tx.fee]

def sampleKey : PublicKey := ⟨0, 0, 0⟩

def sampleOutput (commitment : Nat) : TransactionOutput := ⟨BitVec.ofNat _ commitment, 0, sampleKey, 0⟩

def sampleTransaction (fee : Nat) : Transaction := { transactionOf fee with outputs := [sampleOutput fee] }

def sampleFirst : Block := ⟨⟨1, 0, 1001, 5, 7, 0, 0, 0, 176248⟩, [sampleTransaction 1]⟩

def sampleSecond : Block := ⟨⟨1, 176248, 64475, 6, 8, 0, 0, 0, 176782⟩, [sampleTransaction 2, sampleTransaction 3]⟩

def sampleCalls : List LightCall :=
  [.processBlock sampleFirst, .processBlock sampleSecond] ++ [.addAddress sampleKey.dilithiumPk.asSlice]

theorem isMyAddress_sampleOutput (commitment : Nat) :
    (run (step summing) (start 1) sampleCalls).node.isMyAddress (sampleOutput commitment).recipient := by
  rw [sampleCalls, run_append, run_cons, run_nil]
  generalize run (step summing) (start 1) _ = l
  exact isMyAddress_addAddress l.node sampleKey

theorem payment_of_first_transaction_verified :
    ∃ merkleProof, IdealProof summing sampleSecond (hashTransaction summing (sampleTransaction 2)) merkleProof ∧
      ((run (step summing) (start 1) sampleCalls).node.verifyPayment summing
        (hashTransaction summing (sampleTransaction 2)) 0 (sampleOutput 2) merkleProof 8).isOk :=
  (payment_verification_exact summing 1 sampleCalls (by decide +kernel) (by decide) sampleSecond
    (by decide +kernel) _ 0 (sampleOutput 2) (by decide +kernel) (isMyAddress_sampleOutput 2) (by
      intro i tx hi
      rcases i with _ | _ | i
      · cases hi; decide +kernel
      · cases hi; decide +kernel
      · cases hi)).mpr
    ⟨sampleTransaction 2, by decide +kernel, rfl, by decide +kernel⟩

/-- An output that the transaction does not have is accepted. No proof of the output of the second transaction is. -/
theorem payment_of_absent_output_verified :
    Along (step summing) (Accepted summing) (start 1) sampleCalls ∧
      sampleSecond ∈ (run (step summing) (start 1) sampleCalls).window ∧
      (sampleSecond.transactions.map (hashTransaction summing)).Nodup ∧
      (∃ merkleProof,
        IdealProof summing sampleSecond (hashTransaction summing (sampleTransaction 2)) merkleProof ∧
        ((run (step summing) (start 1) sampleCalls).node.verifyPayment summing
          (hashTransaction summing (sampleTransaction 2)) 5 (sampleOutput 9) merkleProof 8).isOk) ∧
      (∀ tx ∈ sampleSecond.transactions, sampleOutput 9 ∉ tx.outputs) ∧
      ¬ ∃ merkleProof,
        IdealProof summing sampleSecond (hashTransaction summing (sampleTransaction 3)) merkleProof ∧
        ((run (step summing) (start 1) sampleCalls).node.verifyPayment summing
          (hashTransaction summing (sampleTransaction 3)) 0 (sampleOutput 3) merkleProof 8).isOk := by
  have hrun : Along (step summing) (Accepted summing) (start 1) sampleCalls := by decide +kernel
  have hblock : sampleSecond ∈ (run (step summing) (start 1) sampleCalls).window := by decide +kernel
  refine ⟨hrun, hblock, by decide +kernel, ?_, by decide +kernel, ?_⟩
  · exact (provable_iff_first hrun (by decide) hblock (by decide +kernel) (isMyAddress_sampleOutput 9)).mpr
      ⟨sampleTransaction 2, rfl, rfl⟩
  intro hproof
  obtain ⟨tx, hhead, hhash⟩ := (provable_iff_first hrun (by decide) hblock (by decide +kernel)
    (isMyAddress_sampleOutput 3)).mp hproof
  obtain rfl : sampleTransaction 2 = tx := Option.some.inj hhead
  exact absurd hhash (by decide +kernel)

end LightLedger

end SovereignNetwork.Blocks
