import SovereignNetwork.Tokens.Contract
import SovereignNetwork.Treasury.RoleRegistry

/-!
# Distribution of the basic income

The treasury kernel checks each claim of a batch, marks the citizen, mints and counts. Amounts, epochs and counters are
`u64`; counters wrap. Events are left out.
-/

namespace SovereignNetwork.Treasury

open Lib
open Execution (PublicKey TokenContract)

/-! ## Data -/

abbrev CitizenId := Bytes 32

structure CitizenRole where
  citizenshipEpoch : Nat
  revoked : Bool
  deriving DecidableEq

abbrev CitizenRegistry := HashMap CitizenId CitizenRole

structure UbiClaimRecorded where
  citizenId : CitizenId
  amount : Nat
  deriving DecidableEq

inductive RejectionReason
  | notACitizen
  | alreadyRevoked
  | alreadyClaimedEpoch
  | poolExhausted
  | eligibilityNotMet
  | mintFailed
  deriving DecidableEq

def RejectionReason.code : RejectionReason → Nat
  | .notACitizen => 1
  | .alreadyRevoked => 2
  | .alreadyClaimedEpoch => 3
  | .poolExhausted => 4
  | .eligibilityNotMet => 5
  | .mintFailed => 6

structure KernelStats where
  totalClaimsProcessed : Nat := 0
  totalRejections : Nat := 0
  totalSovDistributed : Nat := 0
  rejectionsByReason : List Nat := [0, 0, 0, 0, 0]
  deriving DecidableEq

structure KernelState where
  alreadyClaimed : HashMap CitizenId (HashMap Nat Bool) := ∅
  totalDistributed : HashMap Nat Nat := ∅
  stats : KernelStats := {}

def poolCapPerEpoch : Nat := 1000000

/-! ## Accounts of the kernel -/

namespace KernelState

def hasClaimed (s : KernelState) (citizenId : CitizenId) (epoch : Nat) : Bool :=
  ((s.alreadyClaimed.lookup citizenId).bind fun epochs => epochs.lookup epoch).getD false

/-- Fails where the epoch has an entry, be it `false`. The text of the error is not read. -/
def markClaimed (s : KernelState) (citizenId : CitizenId) (epoch : Nat) : Option KernelState :=
  let epochs := (s.alreadyClaimed.lookup citizenId).getD ∅
  if (epochs.lookup epoch).isSome then none
  else some { s with alreadyClaimed := s.alreadyClaimed.insert citizenId (epochs.insert epoch true) }

def getDistributed (s : KernelState) (epoch : Nat) : Nat := (s.totalDistributed.lookup epoch).getD 0

def checkPoolCapacity (s : KernelState) (epoch amount : Nat) : Bool :=
  (checkedAddU64 (s.getDistributed epoch) amount).any (· ≤ poolCapPerEpoch)

/-- The total of the epoch is written before the total of all epochs may overflow. -/
def addDistributed (s : KernelState) (epoch amount : Nat) : Except String Unit × KernelState :=
  match checkedAddU64 (s.getDistributed epoch) amount with
  | none => (.error "Distribution overflow", s)
  | some newTotal =>
    if poolCapPerEpoch < newTotal then (.error "Pool exhausted", s)
    else
      let inserted := { s with totalDistributed := s.totalDistributed.insert epoch newTotal }
      match checkedAddU64 s.stats.totalSovDistributed amount with
      | none => (.error "Stats overflow", inserted)
      | some total => (.ok (), { inserted with stats := { s.stats with totalSovDistributed := total } })

/-- There is no place in the table for the last reason. -/
def recordRejection (s : KernelState) (reason : RejectionReason) : KernelState :=
  { s with stats := { s.stats with
      totalRejections := wrapU64 (s.stats.totalRejections + 1)
      rejectionsByReason := s.stats.rejectionsByReason.modify (reason.code - 1) fun n => wrapU64 (n + 1) } }

def recordSuccess (s : KernelState) : KernelState :=
  { s with stats := { s.stats with totalClaimsProcessed := wrapU64 (s.stats.totalClaimsProcessed + 1) } }

/-- What recovery from a crash checks. The sum over the table wraps. -/
def isValid (s : KernelState) : Bool :=
  let totalByReason := wrapU64 s.stats.rejectionsByReason.sum
  if s.stats.totalRejections ≠ totalByReason then false
  else if s.stats.totalClaimsProcessed < s.stats.totalRejections then false
  else true

def pruneOldEpochs (s : KernelState) (cutoffEpoch : Nat) : KernelState :=
  let recent {V : Type} (m : HashMap Nat V) := HashMap.retain (fun epoch _ => cutoffEpoch ≤ epoch) m
  { s with
    totalDistributed := recent s.totalDistributed
    alreadyClaimed := HashMap.retain (fun _ epochs => !epochs.entries.isEmpty)
      (HashMap.mapValues recent s.alreadyClaimed) }

def validateClaim (s : KernelState) (claim : UbiClaimRecorded) (registry : CitizenRegistry) (currentEpoch : Nat) :
    Except RejectionReason Unit := do
  let citizen ← okOr (registry.lookup claim.citizenId) .notACitizen
  if citizen.revoked then
    throw .alreadyRevoked
  if currentEpoch < citizen.citizenshipEpoch then
    throw .eligibilityNotMet
  if s.hasClaimed claim.citizenId currentEpoch then
    throw .alreadyClaimedEpoch
  if !s.checkPoolCapacity currentEpoch claim.amount then
    throw .poolExhausted

end KernelState

/-! ## Batches -/

/-- What is the same for all claims of a call. -/
structure UbiBatch where
  registry : CitizenRegistry
  currentEpoch : Nat
  kernelAddress : Option PublicKey

structure UbiState where
  kernel : KernelState
  token : Option TokenContract
  successes : Nat := 0
  rejections : Nat := 0

def UbiState.reject (s : UbiState) (reason : RejectionReason) : UbiState :=
  { s with kernel := s.kernel.recordRejection reason, rejections := wrapU64 (s.rejections + 1) }

namespace UbiBatch

/-- Without a token or an address nothing is minted, and that is a success. -/
def mintClaim (b : UbiBatch) (token : Option TokenContract) (claim : UbiClaimRecorded) :
    Except String (Option TokenContract) :=
  match token, b.kernelAddress with
  | some token, some kernelAddr =>
    (token.mintKernelOnly kernelAddr (PublicKey.ofKeyId claim.citizenId) claim.amount).map some
  | token, _ => .ok token

/-- The citizen is marked before the mint, and stays marked when the mint or the count fails. -/
def processClaim (b : UbiBatch) (s : UbiState) (claim : UbiClaimRecorded) : Except RejectionReason Unit × UbiState :=
  match s.kernel.validateClaim claim b.registry b.currentEpoch with
  | .error reason => (.error reason, s.reject reason)
  | .ok () =>
    match s.kernel.markClaimed claim.citizenId b.currentEpoch with
    | none => (.error .alreadyClaimedEpoch, s.reject .alreadyClaimedEpoch)
    | some marked =>
      match b.mintClaim s.token claim with
      | .error _ => (.error .mintFailed, { s with kernel := marked }.reject .mintFailed)
      | .ok token =>
        match marked.addDistributed b.currentEpoch claim.amount with
        | (.error _, kernel) => (.error .mintFailed, { s with kernel := kernel, token := token }.reject .mintFailed)
        | (.ok (), kernel) =>
          (.ok (), { s with
            kernel := kernel.recordSuccess
            token := token
            successes := wrapU64 (s.successes + 1) })

def next (b : UbiBatch) (s : UbiState) (claim : UbiClaimRecorded) : UbiState := (b.processClaim s claim).2

end UbiBatch

/-- The counts of the batch, with the kernel and the token after it. -/
def KernelState.processUbiClaimsWithMinting (s : KernelState) (claims : List UbiClaimRecorded)
    (citizenRegistry : CitizenRegistry) (currentEpoch : Nat) (token : Option TokenContract)
    (kernelAddress : Option PublicKey) : UbiState :=
  claims.foldl (UbiBatch.next ⟨citizenRegistry, currentEpoch, kernelAddress⟩) { kernel := s, token := token }

end SovereignNetwork.Treasury
