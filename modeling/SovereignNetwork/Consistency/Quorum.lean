import SovereignNetwork.Dht.NodeId
import SovereignNetwork.Lib.Except
import SovereignNetwork.Lib.HashMap
import SovereignNetwork.Lib.Quorum
import SovereignNetwork.Lib.Run

/-!
# Read and write quorums

A read quorum and a write quorum share a member if their sizes add up to more than the number of members.
-/

namespace SovereignNetwork.Consistency

open Lib Dht

/-! ## Configurations -/

structure QuorumConfig where
  n : Nat
  r : Nat
  w : Nat
  deriving DecidableEq

namespace QuorumConfig

def new (n r w : Nat) : Except String QuorumConfig := do
  if wrapU64 (r + w) ≤ n then throw "Invalid quorum: r + w must be > n for strong consistency"
  if r = 0 ∨ w = 0 then throw "Quorum sizes must be positive"
  if n < r ∨ n < w then throw "Quorum sizes cannot exceed replica count"
  pure { n, r, w }

def majority (n : Nat) : Except String QuorumConfig := new n (n / 2 + 1) (n / 2 + 1)

def isStronglyConsistent (config : QuorumConfig) : Bool := config.n < wrapU64 (config.r + config.w)

end QuorumConfig

/-! ## The manager -/

structure PublicKey where
  keyId : Bytes 32
  dilithiumPk : DilithiumPk

/-- A signature with the id of the key it names. -/
structure Signature where
  signature : List UInt8
  keyId : Bytes 32
  timestamp : Nat

structure SignedQuorumResponse where
  nodeId : NodeId
  payload : List UInt8
  signature : Signature

inductive QuorumResult
  | met (required actual : Nat)
  | notMet (required actual : Nat)
  deriving DecidableEq

def QuorumResult.isMet : QuorumResult → Bool
  | met _ _ => true
  | notMet _ _ => false

def quorumResult (required actual : Nat) : QuorumResult :=
  if required ≤ actual then .met required actual else .notMet required actual

structure QuorumManager where
  config : QuorumConfig
  nodes : Finset NodeId

namespace QuorumManager

/-- A node that is listed twice counts twice against the configuration. -/
def new (config : QuorumConfig) (nodes : List NodeId) : Except String QuorumManager := do
  if nodes.length ≠ config.n then throw "Number of nodes must match quorum configuration"
  pure { config, nodes := nodes.toFinset }

def validResponses (m : QuorumManager) (respondingNodes : List NodeId) : Finset NodeId :=
  (respondingNodes.filter (· ∈ m.nodes)).toFinset

def checkReadQuorum (m : QuorumManager) (respondingNodes : List NodeId) : QuorumResult :=
  quorumResult m.config.r (m.validResponses respondingNodes).card

def checkWriteQuorum (m : QuorumManager) (respondingNodes : List NodeId) : QuorumResult :=
  quorumResult m.config.w (m.validResponses respondingNodes).card

/-- A refused node is taken out again. -/
def addNode (m : QuorumManager) (id : NodeId) : Except String Unit × QuorumManager :=
  if id ∈ m.nodes then (.error "Node already present", m)
  else
    let nodes := insert id m.nodes
    let r := m.config.r
    let w := m.config.w
    let n := nodes.card
    if n < r ∨ n < w then
      (.error s!"Adding node would violate quorum invariants: r={r}, w={w}, n={n}", { m with nodes := nodes.erase id })
    else (.ok (), { config := { m.config with n := n }, nodes := nodes })

def removeNode (m : QuorumManager) (id : NodeId) : Except String (Bool × QuorumManager) := do
  if id ∉ m.nodes then pure (false, m)
  else
    let nAfter := m.nodes.card - 1
    let r := m.config.r
    let w := m.config.w
    if nAfter < r ∨ nAfter < w then
      throw s!"Removing node would violate quorum invariants: r={r}, w={w}, remaining={nAfter}"
    else pure (true, { config := { m.config with n := nAfter }, nodes := m.nodes.erase id })

def reconfigure (m : QuorumManager) (newConfig : QuorumConfig) : Except String QuorumManager := do
  let currentN := m.nodes.card
  let n := newConfig.n
  let r := newConfig.r
  let w := newConfig.w
  if n ≠ currentN then throw s!"Config node count mismatch: config.n={n}, members={currentN}"
  if currentN < r ∨ currentN < w then throw s!"Quorum sizes exceed member count: r={r}, w={w}, n={currentN}"
  if ¬ newConfig.isStronglyConsistent then throw "Invalid quorum: r + w must be > n"
  pure { m with config := newConfig }

/-! ## Signed responses -/

/-- The check of a signature over a payload, with an answer where there is no error. -/
structure SignatureExternals where
  verify : PublicKey → List UInt8 → Signature → Option Bool

variable (X : SignatureExternals)

def verifyResponse (m : QuorumManager) (now allowedSkewSecs : Nat) (publicKeys : HashMap NodeId PublicKey)
    (resp : SignedQuorumResponse) : Bool :=
  if resp.nodeId ∉ m.nodes then false
  else if saturatingAddU64 now allowedSkewSecs < resp.signature.timestamp then false
  else match publicKeys.lookup resp.nodeId with
    | none => false
    | some expectedPk =>
      if expectedPk.keyId ≠ resp.signature.keyId then false
      else (X.verify expectedPk resp.payload resp.signature).getD false

def verifiedResponses (m : QuorumManager) (now allowedSkewSecs : Nat) (publicKeys : HashMap NodeId PublicKey)
    (responses : List SignedQuorumResponse) : List SignedQuorumResponse :=
  responses.filter (verifyResponse X m now allowedSkewSecs publicKeys)

/-- Responses are counted, not nodes. -/
def countVerified (m : QuorumManager) (now allowedSkewSecs : Nat) (publicKeys : HashMap NodeId PublicKey)
    (responses : List SignedQuorumResponse) : Nat :=
  (verifiedResponses X m now allowedSkewSecs publicKeys responses).length

def checkSignedReadQuorum (m : QuorumManager) (now allowedSkewSecs : Nat) (publicKeys : HashMap NodeId PublicKey)
    (responses : List SignedQuorumResponse) : QuorumResult :=
  quorumResult m.config.r (countVerified X m now allowedSkewSecs publicKeys responses)

def checkSignedWriteQuorum (m : QuorumManager) (now allowedSkewSecs : Nat) (publicKeys : HashMap NodeId PublicKey)
    (responses : List SignedQuorumResponse) : QuorumResult :=
  quorumResult m.config.w (countVerified X m now allowedSkewSecs publicKeys responses)

end QuorumManager

/-! ## Runs -/

inductive QuorumCall
  | addNode (id : NodeId)
  | removeNode (id : NodeId)
  | reconfigure (newConfig : QuorumConfig)

namespace QuorumManager

def step (m : QuorumManager) : QuorumCall → QuorumManager
  | .addNode id => (m.addNode id).2
  | .removeNode id => ((m.removeNode id).toOption.map Prod.snd).getD m
  | .reconfigure newConfig => (m.reconfigure newConfig).toOption.getD m

/-- A node that is added leaves quorums that are large enough. -/
def SizesSuffice (m : QuorumManager) : QuorumCall → Prop
  | .addNode id => (m.addNode id).1.toOption.isSome → m.nodes.card + 1 < m.config.r + m.config.w
  | _ => True

def Overlapping (m : QuorumManager) : Prop := m.nodes.card < m.config.r + m.config.w

theorem overlapping_new {n r w : Nat} {config : QuorumConfig} {nodes : List NodeId} {m : QuorumManager}
    (hconfig : QuorumConfig.new n r w = .ok config) (hm : new config nodes = .ok m) : m.Overlapping := by
  obtain ⟨hsum, hconfig⟩ := guard_eq_ok.mp hconfig
  obtain ⟨-, hconfig⟩ := guard_eq_ok.mp hconfig
  obtain ⟨-, hconfig⟩ := guard_eq_ok.mp hconfig
  cases pure_eq_ok.mp hconfig
  obtain ⟨hlength, hm⟩ := guard_eq_ok.mp hm
  cases pure_eq_ok.mp hm
  calc nodes.toFinset.card ≤ nodes.length := List.toFinset_card_le _
    _ = n := not_not.mp hlength
    _ < wrapU64 (r + w) := Nat.not_le.mp hsum
    _ ≤ r + w := Nat.mod_le _ _

theorem overlapping_addNode {m : QuorumManager} {id : NodeId} (h : m.Overlapping)
    (hsizes : m.SizesSuffice (.addNode id)) : (m.addNode id).2.Overlapping := by
  revert hsizes
  unfold SizesSuffice addNode
  dsimp only
  split
  · exact fun _ => h
  · next hnew =>
    split
    · intro _
      rw [Overlapping, Finset.erase_insert hnew]
      exact h
    · intro hsizes
      rw [Overlapping, Finset.card_insert_of_notMem hnew]
      exact hsizes rfl

theorem overlapping_removeNode {m m' : QuorumManager} {id : NodeId} {removed : Bool} (h : m.Overlapping)
    (hok : m.removeNode id = .ok (removed, m')) : m'.Overlapping := by
  unfold removeNode at hok
  split at hok
  · cases pure_eq_ok.mp hok
    exact h
  · dsimp only at hok
    split at hok
    · cases hok
    · cases pure_eq_ok.mp hok
      exact Nat.lt_of_le_of_lt (Finset.card_erase_le) h

theorem overlapping_reconfigure {m m' : QuorumManager} {newConfig : QuorumConfig}
    (hok : m.reconfigure newConfig = .ok m') : m'.Overlapping := by
  obtain ⟨hn, hok⟩ := guard_eq_ok.mp hok
  obtain ⟨-, hok⟩ := guard_eq_ok.mp hok
  obtain ⟨hconsistent, hok⟩ := guard_eq_ok.mp hok
  cases pure_eq_ok.mp hok
  have hlt := of_decide_eq_true (not_not.mp hconsistent)
  rw [not_not.mp hn] at hlt
  exact Nat.lt_of_lt_of_le hlt (Nat.mod_le _ _)

theorem overlapping_step {m : QuorumManager} {call : QuorumCall} (hsizes : m.SizesSuffice call) (h : m.Overlapping) :
    (m.step call).Overlapping := by
  cases call with
  | addNode id => exact overlapping_addNode h hsizes
  | removeNode id =>
    rw [step]
    cases hok : m.removeNode id with
    | error e => exact h
    | ok result => exact overlapping_removeNode h hok
  | reconfigure newConfig =>
    rw [step]
    cases hok : m.reconfigure newConfig with
    | error e => exact h
    | ok m' => exact overlapping_reconfigure hok

end QuorumManager

/-! ## Checks -/

inductive Responses
  | plain (respondingNodes : List NodeId)
  | signed (now allowedSkewSecs : Nat) (publicKeys : HashMap NodeId PublicKey) (responses : List SignedQuorumResponse)

namespace QuorumManager

variable {X : SignatureExternals} {m : QuorumManager} {read write : Responses}

def readResult (X : SignatureExternals) (m : QuorumManager) : Responses → QuorumResult
  | .plain respondingNodes => m.checkReadQuorum respondingNodes
  | .signed now allowedSkewSecs publicKeys responses => m.checkSignedReadQuorum X now allowedSkewSecs publicKeys responses

def writeResult (X : SignatureExternals) (m : QuorumManager) : Responses → QuorumResult
  | .plain respondingNodes => m.checkWriteQuorum respondingNodes
  | .signed now allowedSkewSecs publicKeys responses => m.checkSignedWriteQuorum X now allowedSkewSecs publicKeys responses

def responders : Responses → List NodeId
  | .plain respondingNodes => respondingNodes
  | .signed _ _ _ responses => responses.map SignedQuorumResponse.nodeId

/-- The signed responses that verify are of different nodes. -/
def Distinct (X : SignatureExternals) (m : QuorumManager) : Responses → Prop
  | .plain _ => True
  | .signed now allowedSkewSecs publicKeys responses =>
    ((m.verifiedResponses X now allowedSkewSecs publicKeys responses).map SignedQuorumResponse.nodeId).Nodup

def counted (X : SignatureExternals) (m : QuorumManager) : Responses → Finset NodeId
  | .plain respondingNodes => m.validResponses respondingNodes
  | .signed now allowedSkewSecs publicKeys responses =>
    ((m.verifiedResponses X now allowedSkewSecs publicKeys responses).map SignedQuorumResponse.nodeId).toFinset

theorem mem_nodes_of_verifyResponse {now allowedSkewSecs : Nat} {publicKeys : HashMap NodeId PublicKey}
    {resp : SignedQuorumResponse} (h : m.verifyResponse X now allowedSkewSecs publicKeys resp) : resp.nodeId ∈ m.nodes := by
  unfold verifyResponse at h
  split at h
  · cases h
  · next hmem => exact not_not.mp hmem

theorem mem_of_counted {responses : Responses} {id : NodeId} (h : id ∈ m.counted X responses) :
    id ∈ m.nodes ∧ id ∈ responders responses := by
  cases responses with
  | plain respondingNodes =>
    have hmem := List.mem_filter.mp (List.mem_toFinset.mp h)
    exact ⟨of_decide_eq_true hmem.2, hmem.1⟩
  | signed now allowedSkewSecs publicKeys responses =>
    obtain ⟨resp, hresp, rfl⟩ := List.mem_map.mp (List.mem_toFinset.mp h)
    have hverified := List.mem_filter.mp hresp
    exact ⟨mem_nodes_of_verifyResponse hverified.2, List.mem_map_of_mem hverified.1⟩

theorem counted_subset (X : SignatureExternals) (m : QuorumManager) (responses : Responses) :
    m.counted X responses ⊆ m.nodes := fun _ h => (mem_of_counted h).1

theorem required_le_of_isMet {required actual : Nat} (h : (quorumResult required actual).isMet) : required ≤ actual := by
  unfold quorumResult at h
  split at h
  · assumption
  · cases h

theorem results_eq {responses : Responses} (hdistinct : m.Distinct X responses) :
    m.readResult X responses = quorumResult m.config.r (m.counted X responses).card ∧
      m.writeResult X responses = quorumResult m.config.w (m.counted X responses).card := by
  cases responses with
  | plain respondingNodes => exact ⟨rfl, rfl⟩
  | signed now allowedSkewSecs publicKeys responses =>
    rw [counted, List.toFinset_card_of_nodup hdistinct, List.length_map]
    exact ⟨rfl, rfl⟩

/-- The responses to a read and to a write that meet their quorums name a common member, as long as no added node makes the
quorums too small, and signed responses are of different nodes. -/
theorem read_and_write_quorums_intersect (X : SignatureExternals) {n r w : Nat} {config : QuorumConfig}
    {nodes : List NodeId} {m : QuorumManager} (calls : List QuorumCall) (hconfig : QuorumConfig.new n r w = .ok config)
    (hm : new config nodes = .ok m) (hsizes : Along step SizesSuffice m calls) (read write : Responses)
    (hread : (run step m calls).Distinct X read) (hwrite : (run step m calls).Distinct X write)
    (hreadMet : ((run step m calls).readResult X read).isMet)
    (hwriteMet : ((run step m calls).writeResult X write).isMet) :
    ∃ id ∈ (run step m calls).nodes, id ∈ responders read ∧ id ∈ responders write := by
  have hoverlap := hsizes.invariant (fun _ _ hok h => overlapping_step hok h) (overlapping_new hconfig hm)
  have hr := required_le_of_isMet ((results_eq hread).1 ▸ hreadMet)
  have hw := required_le_of_isMet ((results_eq hwrite).2 ▸ hwriteMet)
  have hinter := card_add_card_le_card_inter_add (counted_subset X (run step m calls) read)
    (counted_subset X (run step m calls) write)
  have hlt : (run step m calls).nodes.card < (run step m calls).config.r + (run step m calls).config.w := hoverlap
  have hpos : 0 < (counted X (run step m calls) read ∩ counted X (run step m calls) write).card := by omega
  obtain ⟨id, hid⟩ := Finset.card_pos.mp hpos
  have hid := Finset.mem_inter.mp hid
  exact ⟨id, (mem_of_counted hid.1).1, (mem_of_counted hid.1).2, (mem_of_counted hid.2).2⟩

def nodesOf (bytes : List (Bytes 32)) : List NodeId := bytes.map NodeId.fromBytes

def trusting : SignatureExternals := ⟨fun _ _ _ => some true⟩

/-- With quorums of two and of three, a fourth node can be added to three. -/
theorem quorums_of_four_intersect :
    ∃ id ∈ (run step ⟨⟨3, 2, 3⟩, (nodesOf [1, 2, 3]).toFinset⟩ [.addNode (.fromBytes 4)]).nodes,
      id ∈ responders (.plain (nodesOf [1, 2])) ∧ id ∈ responders (.plain (nodesOf [2, 3, 4])) := by
  have hconfig : QuorumConfig.new 3 2 3 = .ok ⟨3, 2, 3⟩ := rfl
  have hm : new ⟨3, 2, 3⟩ (nodesOf [1, 2, 3]) = .ok ⟨⟨3, 2, 3⟩, (nodesOf [1, 2, 3]).toFinset⟩ := rfl
  exact read_and_write_quorums_intersect trusting [.addNode (.fromBytes 4)] hconfig hm
    ⟨fun _ => (by decide +kernel), trivial⟩ _ _ trivial trivial (by decide +kernel) (by decide +kernel)

def threeNodes : Option QuorumManager := do
  let config ← (QuorumConfig.majority 3).toOption
  (new config (nodesOf [1, 2, 3])).toOption

def signedBy (id : NodeId) : SignedQuorumResponse := ⟨id, [], ⟨[], 0, 0⟩⟩

def keyOfThree : HashMap NodeId PublicKey := AList.singleton (.fromBytes 3) ⟨0, 0⟩

/-- After a node was added, two nodes read and the two others write. And one node meets a write quorum with two signed
responses. -/
theorem quorums_apart :
    (threeNodes.any fun m =>
      let added := m.step (.addNode (.fromBytes 4))
      (added.checkReadQuorum (nodesOf [1, 2])).isMet && (added.checkWriteQuorum (nodesOf [3, 4])).isMet) ∧
    (threeNodes.any fun m =>
      (m.checkReadQuorum (nodesOf [1, 2])).isMet &&
        (m.checkSignedWriteQuorum trusting 0 0 keyOfThree
          [signedBy (.fromBytes 3), signedBy (.fromBytes 3)]).isMet) ∧
    (∀ id ∈ nodesOf [1, 2], id ∉ nodesOf [3, 4]) ∧ ∀ id ∈ nodesOf [1, 2], id ≠ .fromBytes 3 := by
  decide +kernel

end QuorumManager

end SovereignNetwork.Consistency
