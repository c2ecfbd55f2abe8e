import SovereignNetwork.Lib.Run
import SovereignNetwork.Treasury.Ubi

/-!
# The check of recovery

The counters of a kernel are the counts of the outcomes of its claims.
-/

namespace SovereignNetwork.Treasury

open Lib
open Execution (PublicKey TokenContract)

/-! ## Runs -/

/-- Why a claim was rejected, or nothing if it was paid. -/
abbrev Outcome := Option RejectionReason

namespace UbiBatch

def outcome (b : UbiBatch) (s : UbiState) (claim : UbiClaimRecorded) : Outcome :=
  match (b.processClaim s claim).1 with
  | .error reason => some reason
  | .ok () => none

def outcomes (b : UbiBatch) : UbiState → List UbiClaimRecorded → List Outcome
  | _, [] => []
  | s, claim :: claims => b.outcome s claim :: b.outcomes (b.next s claim) claims

end UbiBatch

inductive KernelCall
  | claims (claims : List UbiClaimRecorded) (registry : CitizenRegistry) (epoch : Nat) (token : Option TokenContract)
      (kernelAddress : Option PublicKey)
  | pruneOldEpochs (cutoff : Nat)

structure KernelRun where
  kernel : KernelState := {}
  outcomes : List Outcome := []

def KernelRun.step (r : KernelRun) : KernelCall → KernelRun
  | .claims claims registry epoch token kernelAddress =>
    { kernel := (r.kernel.processUbiClaimsWithMinting claims registry epoch token kernelAddress).kernel
      outcomes := r.outcomes ++
        UbiBatch.outcomes ⟨registry, epoch, kernelAddress⟩ { kernel := r.kernel, token := token } claims }
  | .pruneOldEpochs cutoff => { r with kernel := r.kernel.pruneOldEpochs cutoff }

/-! ## The counters -/

/-- The reasons with a place in the table. -/
def tableReasons : List RejectionReason :=
  [.notACitizen, .alreadyRevoked, .alreadyClaimedEpoch, .poolExhausted, .eligibilityNotMet]

structure Tallied (stats : KernelStats) (outcomes : List Outcome) : Prop where
  processed : stats.totalClaimsProcessed = wrapU64 (outcomes.count none)
  rejections : stats.totalRejections = wrapU64 (outcomes.countP Option.isSome)
  byReason : stats.rejectionsByReason = tableReasons.map fun reason => wrapU64 (outcomes.count (some reason))

namespace Tallied

variable {s s' : KernelState} {outcomes : List Outcome} {epoch : Nat}

theorem wrapU64_succ (n : Nat) : wrapU64 (wrapU64 n + 1) = wrapU64 (n + 1) := by
  unfold wrapU64
  omega

theorem recordRejection (h : Tallied s.stats outcomes) (reason : RejectionReason) :
    Tallied (s.recordRejection reason).stats (outcomes ++ [some reason]) where
  processed := by simpa [KernelState.recordRejection] using h.processed
  rejections := by simp [KernelState.recordRejection, h.rejections, wrapU64_succ]
  byReason := by
    rw [KernelState.recordRejection, h.byReason]
    cases reason <;>
      simp [tableReasons, RejectionReason.code, List.count_append, wrapU64_succ]

theorem recordSuccess (h : Tallied s.stats outcomes) : Tallied s.recordSuccess.stats (outcomes ++ [none]) where
  processed := by simp [KernelState.recordSuccess, h.processed, wrapU64_succ]
  rejections := by simpa [KernelState.recordSuccess] using h.rejections
  byReason := by simpa [KernelState.recordSuccess] using h.byReason

theorem markClaimed {citizenId : CitizenId} (h : Tallied s.stats outcomes)
    (hmark : s.markClaimed citizenId epoch = some s') : Tallied s'.stats outcomes := by
  unfold KernelState.markClaimed at hmark
  dsimp only at hmark
  split at hmark
  · cases hmark
  · cases hmark
    exact h

theorem addDistributed (h : Tallied s.stats outcomes) (epoch amount : Nat) :
    Tallied (s.addDistributed epoch amount).2.stats outcomes := by
  unfold KernelState.addDistributed
  split
  · exact h
  · split
    · exact h
    · dsimp only
      split
      · exact h
      · exact ⟨h.processed, h.rejections, h.byReason⟩

variable {b : UbiBatch} {u : UbiState}

theorem processClaim (h : Tallied u.kernel.stats outcomes) (claim : UbiClaimRecorded) :
    Tallied (b.next u claim).kernel.stats (outcomes ++ [b.outcome u claim]) := by
  unfold UbiBatch.outcome UbiBatch.next UbiBatch.processClaim
  cases u.kernel.validateClaim claim b.registry b.currentEpoch with
  | error reason => exact h.recordRejection reason
  | ok =>
    cases hmark : u.kernel.markClaimed claim.citizenId b.currentEpoch with
    | none => exact h.recordRejection _
    | some marked =>
      have hmarked := h.markClaimed hmark
      cases b.mintClaim u.token claim with
      | error => exact hmarked.recordRejection _
      | ok token =>
        have hadded := hmarked.addDistributed b.currentEpoch claim.amount
        dsimp only
        cases hadd : marked.addDistributed b.currentEpoch claim.amount with
        | mk result kernel =>
          rw [hadd] at hadded
          cases result with
          | error => exact hadded.recordRejection _
          | ok => exact hadded.recordSuccess

theorem batch (h : Tallied u.kernel.stats outcomes) (claims : List UbiClaimRecorded) :
    Tallied (claims.foldl b.next u).kernel.stats (outcomes ++ b.outcomes u claims) := by
  induction claims generalizing u outcomes with
  | nil => simpa [UbiBatch.outcomes] using h
  | cons claim claims ih => simpa [UbiBatch.outcomes] using ih (h.processClaim claim)

theorem step {r : KernelRun} (h : Tallied r.kernel.stats r.outcomes) (call : KernelCall) :
    Tallied (r.step call).kernel.stats (r.step call).outcomes := by
  cases call with
  | claims claims registry epoch token kernelAddress => exact batch (u := { kernel := r.kernel, token := token }) h claims
  | pruneOldEpochs cutoff => exact h

theorem run (calls : List KernelCall) :
    Tallied (Lib.run KernelRun.step {} calls).kernel.stats (Lib.run KernelRun.step {} calls).outcomes := by
  have hrun : Along KernelRun.step (fun _ _ => True) {} calls := Along.of_forall (fun _ _ => trivial) _ calls
  exact hrun.invariant (I := fun r : KernelRun => Tallied r.kernel.stats r.outcomes) (fun _ call _ h => h.step call)
    ⟨rfl, rfl, rfl⟩

end Tallied

/-! ## The check -/

theorem countP_isSome (outcomes : List Outcome) :
    outcomes.countP Option.isSome =
      (tableReasons.map fun reason => outcomes.count (some reason)).sum + outcomes.count (some .mintFailed) := by
  induction outcomes with
  | nil => rfl
  | cons outcome outcomes ih =>
    cases outcome with
    | none => simpa [tableReasons] using ih
    | some reason =>
      simp only [tableReasons, List.map_cons, List.map_nil, List.sum_cons, List.sum_nil] at ih ⊢
      cases reason <;> simp [ih] <;> omega

/-- For fewer than `2 ^ 64` claims the check says that no mint failed and that at least as many claims were paid as
rejected. -/
theorem isValid_iff_no_mint_failed (calls : List KernelCall) :
    let r := run KernelRun.step {} calls
    r.outcomes.length < 2 ^ 64 →
      (r.kernel.isValid = true ↔
        some .mintFailed ∉ r.outcomes ∧ r.outcomes.countP Option.isSome ≤ r.outcomes.count none) := by
  intro r hfew
  have h : Tallied r.kernel.stats r.outcomes := Tallied.run calls
  have hcount : ∀ outcome, wrapU64 (r.outcomes.count outcome) = r.outcomes.count outcome := fun outcome =>
    Nat.mod_eq_of_lt (Nat.lt_of_le_of_lt List.count_le_length hfew)
  have hrejected : wrapU64 (r.outcomes.countP Option.isSome) = r.outcomes.countP Option.isSome :=
    Nat.mod_eq_of_lt (Nat.lt_of_le_of_lt List.countP_le_length hfew)
  have hsum := countP_isSome r.outcomes
  have htable : wrapU64 r.kernel.stats.rejectionsByReason.sum =
      (tableReasons.map fun reason => r.outcomes.count (some reason)).sum := by
    simp only [h.byReason, hcount]
    have hle : r.outcomes.countP Option.isSome ≤ r.outcomes.length := List.countP_le_length
    exact Nat.mod_eq_of_lt (by omega)
  rw [← List.count_eq_zero]
  simp only [KernelState.isValid, htable, h.rejections, h.processed, hrejected, hcount]
  split
  · simp only [Bool.false_eq_true, false_iff, not_and]
    omega
  · split
    · simp only [Bool.false_eq_true, false_iff, not_and]
      omega
    · simp only [true_iff]
      omega

def strangerClaims : List KernelCall := [.claims [⟨1, 1000⟩] ∅ 0 none none]

/-- Citizen 1 claims in two epochs, and twice in the second of them, after a claim of a stranger. -/
def citizenClaims : List KernelCall :=
  let citizens : CitizenRegistry := AList.insert 1 ⟨0, false⟩ ∅
  [.claims [⟨1, 1000⟩] citizens 0 none none, .pruneOldEpochs 0, .claims [⟨2, 1000⟩, ⟨1, 1000⟩, ⟨1, 1000⟩] citizens 1 none none,
    .claims [⟨1, 1000⟩] citizens 2 none none]

theorem isValid_of_paid_claim :
    (run KernelRun.step {} citizenClaims).outcomes = [none, some .notACitizen, none, some .alreadyClaimedEpoch, none] ∧
      (run KernelRun.step {} citizenClaims).kernel.isValid = true :=
  ⟨by decide, (isValid_iff_no_mint_failed citizenClaims (by decide)).mpr (by decide)⟩

/-- The only claim is rejected, and no claim counts as processed. -/
theorem rejected_claim_fails_check :
    (run KernelRun.step {} strangerClaims).outcomes = [some .notACitizen] ∧
      (run KernelRun.step {} strangerClaims).kernel.isValid = false := by
  decide

end SovereignNetwork.Treasury
