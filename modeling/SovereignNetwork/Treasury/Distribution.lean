import SovereignNetwork.Lib.Run
import SovereignNetwork.Treasury.Ubi

/-!
# Distribution of the basic income is exact

What a batch pays is what it mints and what it adds to the total of the epoch, as long as every claim that passes the
checks can be minted.
-/

namespace SovereignNetwork.Treasury

open Lib
open Execution (PublicKey TokenContract)

/-! ## Accounts of the kernel -/

namespace KernelState

variable {s s' : KernelState} {citizenId citizenId' : CitizenId} {epoch epoch' cutoff amount : Nat}

theorem hasClaimed_of_markClaimed (h : s.markClaimed citizenId epoch = some s') :
    s'.hasClaimed citizenId' epoch' = true ↔
      s.hasClaimed citizenId' epoch' = true ∨ epoch' = epoch ∧ citizenId = citizenId' := by
  simp only [markClaimed] at h
  split at h
  · cases h
  · cases h
    simp only [hasClaimed, HashMap.lookup_insert_eq_ite]
    by_cases hc : citizenId' = citizenId
    · subst hc
      rw [if_pos rfl, Option.bind_some, HashMap.lookup_insert_eq_ite]
      by_cases he : epoch' = epoch
      · simp [he]
      · cases s.alreadyClaimed.lookup citizenId' <;> simp [he]
    · simp [hc, Ne.symm hc]

theorem totalDistributed_of_markClaimed (h : s.markClaimed citizenId epoch = some s') :
    s'.totalDistributed = s.totalDistributed ∧ s'.stats = s.stats := by
  simp only [markClaimed] at h
  split at h <;> cases h
  exact ⟨rfl, rfl⟩

theorem checkPoolCapacity_iff :
    s.checkPoolCapacity epoch amount = true ↔ s.getDistributed epoch + amount ≤ poolCapPerEpoch := by
  unfold checkPoolCapacity checkedAddU64 poolCapPerEpoch
  split
  · simp
  · simp
    omega

theorem addDistributed_of_room (hroom : s.getDistributed epoch + amount ≤ poolCapPerEpoch)
    (hstats : s.stats.totalSovDistributed + amount < 2 ^ 64) :
    ∃ s', s.addDistributed epoch amount = (.ok (), s') ∧ s'.alreadyClaimed = s.alreadyClaimed ∧
      s'.totalDistributed = s.totalDistributed.insert epoch (s.getDistributed epoch + amount) := by
  have hcap : poolCapPerEpoch < 2 ^ 64 := by decide
  have hpool : checkedAddU64 (s.getDistributed epoch) amount = some (s.getDistributed epoch + amount) := by
    rw [checkedAddU64_eq_some]
    omega
  have htotal : checkedAddU64 s.stats.totalSovDistributed amount = some (s.stats.totalSovDistributed + amount) := by
    rw [checkedAddU64_eq_some]
    omega
  simp only [addDistributed, hpool, htotal, if_neg (Nat.not_lt.mpr hroom)]
  exact ⟨_, rfl, rfl, rfl⟩

theorem getDistributed_pruneOldEpochs (h : cutoff ≤ epoch) :
    (s.pruneOldEpochs cutoff).getDistributed epoch = s.getDistributed epoch := by
  simp only [getDistributed, pruneOldEpochs, HashMap.lookup_retain]
  cases s.totalDistributed.lookup epoch with
  | none => rfl
  | some total => rw [Option.filter_some, if_pos (decide_eq_true h)]

theorem hasClaimed_pruneOldEpochs (h : cutoff ≤ epoch) :
    (s.pruneOldEpochs cutoff).hasClaimed citizenId epoch = s.hasClaimed citizenId epoch := by
  simp only [hasClaimed, pruneOldEpochs, HashMap.lookup_retain, HashMap.lookup_mapValues]
  cases s.alreadyClaimed.lookup citizenId with
  | none => rfl
  | some epochs =>
    have hkept : (HashMap.retain (fun e _ => decide (cutoff ≤ e)) epochs).lookup epoch = epochs.lookup epoch := by
      rw [HashMap.lookup_retain]
      cases epochs.lookup epoch with
      | none => rfl
      | some marked => rw [Option.filter_some, if_pos (decide_eq_true h)]
    rw [Option.map_some, Option.filter_some, Option.bind_some, ← hkept]
    split
    · rfl
    · next hempty =>
      -- A map without entries has none for the epoch.
      have hnil : (HashMap.retain (fun e _ => decide (cutoff ≤ e)) epochs).entries = [] := by simpa using hempty
      simp [AList.lookup, hnil]

end KernelState

/-! ## One claim -/

namespace UbiBatch

variable {b : UbiBatch} {s s' s'' : UbiState} {claim : UbiClaimRecorded} {claims paid paid' : List UbiClaimRecorded}

def Payable (b : UbiBatch) (s : KernelState) (claim : UbiClaimRecorded) : Prop :=
  (∃ citizen ∈ b.registry.lookup claim.citizenId,
    citizen.revoked = false ∧ citizen.citizenshipEpoch ≤ b.currentEpoch) ∧
  s.hasClaimed claim.citizenId b.currentEpoch = false ∧
  s.getDistributed b.currentEpoch + claim.amount ≤ poolCapPerEpoch

instance (s : KernelState) : Decidable (b.Payable s claim) := by
  unfold Payable; infer_instance

theorem payable_of_validateClaim (h : s.kernel.validateClaim claim b.registry b.currentEpoch = .ok ()) :
    b.Payable s.kernel claim := by
  simp only [KernelState.validateClaim, bind_eq_ok, guard_eq_ok, okOr_eq_ok] at h
  obtain ⟨citizen, hcitizen, hrevoked, heligible, hclaimed, hpool⟩ := h
  refine ⟨⟨citizen, hcitizen, by simpa using hrevoked, Nat.le_of_not_lt heligible⟩, by simpa using hclaimed, ?_⟩
  rw [← KernelState.checkPoolCapacity_iff]
  cases hcap : s.kernel.checkPoolCapacity b.currentEpoch claim.amount with
  | true => rfl
  | false =>
    rw [hcap] at hpool
    cases hpool

/-- The token of the kernel is there, with room for the amount, and the total of all epochs does not overflow. -/
def CanMint (b : UbiBatch) (s : UbiState) (claim : UbiClaimRecorded) : Prop :=
  b.Payable s.kernel claim → ∃ token ∈ s.token, ∃ kernelAddr ∈ b.kernelAddress,
    token.kernelMintAuthority = some kernelAddr ∧ token.totalSupply + claim.amount ≤ min token.maxSupply u128Max ∧
    s.kernel.stats.totalSovDistributed + claim.amount < 2 ^ 64

instance : Decidable (b.CanMint s claim) := by
  unfold CanMint; infer_instance

def supplyOf (token : Option TokenContract) : Nat := token.elim 0 (·.totalSupply)

/-- What a rejected claim must not change is as before. -/
structure Quiet (s s' : UbiState) : Prop where
  alreadyClaimed : s'.kernel.alreadyClaimed = s.kernel.alreadyClaimed
  totalDistributed : s'.kernel.totalDistributed = s.kernel.totalDistributed
  token : s'.token = s.token

def RejectsQuietly (b : UbiBatch) (s : UbiState) (claim : UbiClaimRecorded) : Prop :=
  ∀ reason, (b.processClaim s claim).1 = .error reason → Quiet s (b.next s claim)

/-- The claims paid are minted, added to the total of the epoch and marked, each for the first time. -/
structure Distributes (b : UbiBatch) (s : UbiState) (paid : List UbiClaimRecorded) (s' : UbiState) : Prop where
  supply : supplyOf s'.token = supplyOf s.token + (paid.map (·.amount)).sum
  token : s'.token.isSome = s.token.isSome
  distributed : ∀ e, s'.kernel.getDistributed e =
    s.kernel.getDistributed e + if e = b.currentEpoch then (paid.map (·.amount)).sum else 0
  claimed : ∀ c e, s'.kernel.hasClaimed c e = true ↔
    s.kernel.hasClaimed c e = true ∨ e = b.currentEpoch ∧ c ∈ paid.map (·.citizenId)
  fresh : ∀ c ∈ paid.map (·.citizenId), s.kernel.hasClaimed c b.currentEpoch = false
  nodup : (paid.map (·.citizenId)).Nodup
  pool : s.kernel.getDistributed b.currentEpoch ≤ poolCapPerEpoch →
    s'.kernel.getDistributed b.currentEpoch ≤ poolCapPerEpoch

theorem Quiet.distributes (h : Quiet s s') : b.Distributes s [] s' where
  supply := by rw [h.token]; rfl
  token := by rw [h.token]
  distributed e := by simp [KernelState.getDistributed, h.totalDistributed]
  claimed c e := by simp [KernelState.hasClaimed, h.alreadyClaimed]
  fresh := by rintro c ⟨⟩
  nodup := List.nodup_nil
  pool hle := by simpa [KernelState.getDistributed, h.totalDistributed] using hle

theorem Distributes.trans (h : b.Distributes s paid s') (h' : b.Distributes s' paid' s'') :
    b.Distributes s (paid ++ paid') s'' where
  supply := by rw [h'.supply, h.supply, List.map_append, List.sum_append, Nat.add_assoc]
  token := h'.token.trans h.token
  distributed e := by
    rw [h'.distributed, h.distributed, List.map_append, List.sum_append]
    split <;> omega
  claimed c e := by
    rw [h'.claimed, h.claimed, List.map_append, List.mem_append, or_assoc, ← and_or_left]
  fresh c hc := by
    rw [List.map_append, List.mem_append] at hc
    rcases hc with hc | hc
    · exact h.fresh c hc
    · refine Bool.eq_false_iff.mpr fun hold => ?_
      have hmarked := (h.claimed c b.currentEpoch).mpr (.inl hold)
      rw [h'.fresh c hc] at hmarked
      cases hmarked
  nodup := by
    rw [List.map_append, List.nodup_append]
    refine ⟨h.nodup, h'.nodup, fun c hc c' hc' heq => ?_⟩
    subst heq
    have hmarked := (h.claimed c b.currentEpoch).mpr (.inr ⟨rfl, hc⟩)
    rw [h'.fresh c hc'] at hmarked
    cases hmarked
  pool hle := h'.pool (h.pool hle)

theorem Distributes.single {token : TokenContract} {marked : KernelState} (htoken : s.token = some token)
    (hpay : b.Payable s.kernel claim) (hmax : token.totalSupply + claim.amount ≤ u128Max)
    (hmark : s.kernel.markClaimed claim.citizenId b.currentEpoch = some marked)
    (htoken' : s'.token = some (token.minted (PublicKey.ofKeyId claim.citizenId) claim.amount))
    (hmarks : s'.kernel.alreadyClaimed = marked.alreadyClaimed)
    (htotals : s'.kernel.totalDistributed = s.kernel.totalDistributed.insert b.currentEpoch
      (s.kernel.getDistributed b.currentEpoch + claim.amount)) :
    b.Distributes s [claim] s' := by
  have hdistributed : ∀ e, s'.kernel.getDistributed e =
      s.kernel.getDistributed e + if e = b.currentEpoch then claim.amount else 0 := by
    intro e
    rw [KernelState.getDistributed, htotals, HashMap.lookup_insert_eq_ite]
    split
    · next he => rw [he]; rfl
    · rfl
  have hclaimed : ∀ c e, s'.kernel.hasClaimed c e = true ↔
      s.kernel.hasClaimed c e = true ∨ e = b.currentEpoch ∧ claim.citizenId = c := by
    intro c e
    rw [← KernelState.hasClaimed_of_markClaimed hmark]
    simp only [KernelState.hasClaimed, hmarks]
  refine ⟨?_, ?_, fun e => ?_, fun c e => ?_, fun c hc => ?_, List.nodup_singleton _, fun _ => ?_⟩
  · simpa [supplyOf, htoken, htoken', TokenContract.minted] using wrapU128_of_le hmax
  · rw [htoken, htoken']
    rfl
  · simpa using hdistributed e
  · rw [hclaimed, List.map_singleton, List.mem_singleton, @eq_comm _ c]
  · obtain rfl : c = claim.citizenId := by simpa using hc
    exact hpay.2.1
  · rw [hdistributed, if_pos rfl]
    exact hpay.2.2

theorem processClaim_cases (h : b.CanMint s claim) :
    ((b.processClaim s claim).1 = .ok () ∧ b.Distributes s [claim] (b.next s claim)) ∨
      ∃ reason, (b.processClaim s claim).1 = .error reason ∧ Quiet s (b.next s claim) := by
  unfold next
  cases hvalid : s.kernel.validateClaim claim b.registry b.currentEpoch with
  | error reason =>
    simp only [processClaim, hvalid]
    exact .inr ⟨reason, rfl, rfl, rfl, rfl⟩
  | ok =>
    cases hmark : s.kernel.markClaimed claim.citizenId b.currentEpoch with
    | none =>
      simp only [processClaim, hvalid, hmark]
      exact .inr ⟨_, rfl, rfl, rfl, rfl⟩
    | some marked =>
      have hpay := payable_of_validateClaim hvalid
      obtain ⟨token, htoken, kernelAddr, haddr, hauth, hmax, hstats⟩ := h hpay
      obtain ⟨htotals, hstatsEq⟩ := KernelState.totalDistributed_of_markClaimed hmark
      have hmint : b.mintClaim s.token claim =
          .ok (some (token.minted (PublicKey.ofKeyId claim.citizenId) claim.amount)) := by
        have hwrap : wrapU128 (token.totalSupply + claim.amount) ≤ token.maxSupply := by
          rw [wrapU128_of_le (by omega)]
          omega
        rw [Option.mem_def] at htoken haddr
        simp only [mintClaim, htoken, haddr, TokenContract.mintKernelOnly_of_authority hauth hwrap]
        rfl
      have hpool : marked.getDistributed b.currentEpoch = s.kernel.getDistributed b.currentEpoch := by
        simp only [KernelState.getDistributed, htotals]
      have hroom : marked.getDistributed b.currentEpoch + claim.amount ≤ poolCapPerEpoch := hpool ▸ hpay.2.2
      obtain ⟨counted, hadd, hmarks, hinsert⟩ := KernelState.addDistributed_of_room hroom (hstatsEq ▸ hstats)
      simp only [processClaim, hvalid, hmark, hmint, hadd]
      refine .inl ⟨trivial, .single htoken hpay (by omega) hmark rfl hmarks ?_⟩
      rw [← htotals, ← hpool]
      exact hinsert

/-! ## Batches -/

def accepted (b : UbiBatch) : UbiState → List UbiClaimRecorded → List UbiClaimRecorded
  | _, [] => []
  | s, claim :: claims =>
    match (b.processClaim s claim).1 with
    | .ok _ => claim :: accepted b (b.next s claim) claims
    | .error _ => accepted b (b.next s claim) claims

theorem batch_distributes (h : Along b.next b.CanMint s claims) :
    b.Distributes s (b.accepted s claims) (claims.foldl b.next s) ∧ Along b.next b.RejectsQuietly s claims := by
  induction claims generalizing s with
  | nil => exact ⟨Quiet.distributes ⟨rfl, rfl, rfl⟩, trivial⟩
  | cons claim claims ih =>
    obtain ⟨hcan, hrest⟩ := h
    obtain ⟨hdist, hquiet⟩ := ih hrest
    rcases processClaim_cases hcan with ⟨hok, hpaid⟩ | ⟨reason, herr, hsame⟩
    · rw [accepted, hok]
      refine ⟨hpaid.trans hdist, fun reason herr => ?_, hquiet⟩
      rw [hok] at herr
      cases herr
    · rw [accepted, herr]
      exact ⟨hsame.distributes.trans hdist, fun _ _ => hsame, hquiet⟩

end UbiBatch

/-! ## Runs -/

structure UbiRun where
  kernel : KernelState
  token : TokenContract
  now : Nat
  /-- The successful claims with their epochs, oldest first. -/
  paid : List (Nat × UbiClaimRecorded)
  /-- By how much the supply of the token grew in the batches of an epoch. -/
  minted : Nat → Int
  /-- By how much the total of an epoch grew in its batches. -/
  distributed : Nat → Int

inductive UbiCall
  | claims (claims : List UbiClaimRecorded) (registry : CitizenRegistry) (epoch : Nat) (withToken : Bool)
      (kernelAddress : Option PublicKey)
  | pruneOldEpochs (epoch cutoff : Nat)

namespace UbiRun

def new (token : TokenContract) : UbiRun := ⟨{}, token, 0, [], fun _ => 0, fun _ => 0⟩

/-- The variables before the first claim of a batch. -/
def enter (r : UbiRun) (withToken : Bool) : UbiState where
  kernel := r.kernel
  token := if withToken then some r.token else none

def step (r : UbiRun) : UbiCall → UbiRun
  | .claims claims registry epoch withToken kernelAddress =>
    let before := r.enter withToken
    let after := r.kernel.processUbiClaimsWithMinting claims registry epoch before.token kernelAddress
    let token := after.token.getD r.token
    let accepted := UbiBatch.accepted ⟨registry, epoch, kernelAddress⟩ before claims
    let grown : Int := after.kernel.getDistributed epoch - r.kernel.getDistributed epoch
    { kernel := after.kernel
      token := token
      now := epoch
      paid := r.paid ++ accepted.map (epoch, ·)
      minted := Function.update r.minted epoch (r.minted epoch + (token.totalSupply - r.token.totalSupply))
      distributed := Function.update r.distributed epoch (r.distributed epoch + grown) }
  | .pruneOldEpochs epoch cutoff => { r with kernel := r.kernel.pruneOldEpochs cutoff, now := epoch }

def paidIn (r : UbiRun) (epoch : Nat) : List UbiClaimRecorded := (r.paid.filter (·.1 = epoch)).map (·.2)

def amountIn (r : UbiRun) (epoch : Nat) : Nat := ((r.paidIn epoch).map (·.amount)).sum

def InOrder (r : UbiRun) : UbiCall → Prop
  | .claims _ _ epoch _ _ => r.now ≤ epoch
  | .pruneOldEpochs epoch cutoff => r.now ≤ epoch ∧ cutoff ≤ epoch

/-- Every claim of the batch that passes the checks can be minted. -/
def CanMint (r : UbiRun) : UbiCall → Prop
  | .claims claims registry epoch withToken kernelAddress =>
    let b : UbiBatch := ⟨registry, epoch, kernelAddress⟩
    Along b.next b.CanMint (r.enter withToken) claims
  | .pruneOldEpochs _ _ => True

def RejectsQuietly (r : UbiRun) : UbiCall → Prop
  | .claims claims registry epoch withToken kernelAddress =>
    let b : UbiBatch := ⟨registry, epoch, kernelAddress⟩
    Along b.next b.RejectsQuietly (r.enter withToken) claims
  | .pruneOldEpochs _ _ => True

instance (r : UbiRun) (call : UbiCall) : Decidable (r.InOrder call) := by
  cases call <;> unfold InOrder <;> infer_instance

instance (r : UbiRun) (call : UbiCall) : Decidable (r.CanMint call) := by
  cases call <;> unfold CanMint <;> infer_instance

/-! ## The invariant -/

variable {r : UbiRun} {call : UbiCall} {epoch cutoff : Nat}

structure Inv (r : UbiRun) : Prop where
  pool : ∀ e, r.now ≤ e → r.kernel.getDistributed e = r.amountIn e
  cap : ∀ e, r.amountIn e ≤ poolCapPerEpoch
  marked : ∀ p ∈ r.paid, r.now ≤ p.1 → r.kernel.hasClaimed p.2.citizenId p.1 = true
  nodup : ∀ e, ((r.paidIn e).map (·.citizenId)).Nodup
  minted : ∀ e, r.minted e = r.amountIn e
  distributed : ∀ e, r.distributed e = r.amountIn e

theorem Inv.new (token : TokenContract) : Inv (UbiRun.new token) where
  pool _ _ := rfl
  cap _ := Nat.zero_le _
  marked := by rintro p ⟨⟩
  nodup _ := List.nodup_nil
  minted _ := rfl
  distributed _ := rfl

theorem Inv.pruneOldEpochs (h : Inv r) (hnow : r.now ≤ epoch) (hcutoff : cutoff ≤ epoch) :
    Inv { r with kernel := r.kernel.pruneOldEpochs cutoff, now := epoch } where
  pool e he := by
    rw [KernelState.getDistributed_pruneOldEpochs (Nat.le_trans hcutoff he)]
    exact h.pool e (Nat.le_trans hnow he)
  cap := h.cap
  marked p hp he := by
    rw [KernelState.hasClaimed_pruneOldEpochs (Nat.le_trans hcutoff he)]
    exact h.marked p hp (Nat.le_trans hnow he)
  nodup := h.nodup
  minted := h.minted
  distributed := h.distributed

theorem paidIn_append (r : UbiRun) (claims : List UbiClaimRecorded) (e : Nat) :
    ((r.paid ++ claims.map (epoch, ·)).filter (·.1 = e)).map (·.2) =
      r.paidIn e ++ if e = epoch then claims else [] := by
  rw [List.filter_append, List.map_append]
  congr 1
  by_cases he : e = epoch
  · simp [he, List.filter_map, Function.comp_def]
  · simp [he, Ne.symm he, List.filter_map, Function.comp_def]

theorem supply_of_distributes {b : UbiBatch} {withToken : Bool} {paid : List UbiClaimRecorded} {s' : UbiState}
    (h : b.Distributes (r.enter withToken) paid s') :
    ((s'.token.getD r.token).totalSupply : Int) - r.token.totalSupply = (paid.map (·.amount)).sum := by
  have hsupply := h.supply
  have htoken := h.token
  cases withToken with
  | true =>
    obtain ⟨token, hs'⟩ := Option.isSome_iff_exists.mp htoken
    rw [hs'] at hsupply ⊢
    change token.totalSupply = r.token.totalSupply + _ at hsupply
    simp only [Option.getD_some, hsupply]
    omega
  | false =>
    have hs' : s'.token = none := by simpa [enter] using htoken
    rw [hs'] at hsupply ⊢
    change 0 = 0 + _ at hsupply
    simp only [Option.getD_none]
    omega

theorem Inv.claims {claims : List UbiClaimRecorded} {registry : CitizenRegistry} {withToken : Bool}
    {kernelAddress : Option PublicKey} (h : Inv r) (hnow : r.now ≤ epoch)
    (hcan : r.CanMint (.claims claims registry epoch withToken kernelAddress)) :
    Inv (r.step (.claims claims registry epoch withToken kernelAddress)) := by
  let b : UbiBatch := ⟨registry, epoch, kernelAddress⟩
  let accepted := b.accepted (r.enter withToken) claims
  have hdist : b.Distributes (r.enter withToken) accepted (claims.foldl b.next (r.enter withToken)) :=
    (UbiBatch.batch_distributes hcan).1
  generalize hr' : r.step (.claims claims registry epoch withToken kernelAddress) = r'
  have hpaid : ∀ e, r'.paidIn e = r.paidIn e ++ if e = epoch then accepted else [] := by
    subst hr'
    exact paidIn_append r accepted
  have hamount : ∀ e, r'.amountIn e = r.amountIn e + if e = epoch then (accepted.map (·.amount)).sum else 0 := by
    intro e
    rw [amountIn, hpaid, List.map_append, List.sum_append]
    split <;> rfl
  have hpool : ∀ e, epoch ≤ e → r'.kernel.getDistributed e = r'.amountIn e := by
    intro e he
    rw [hamount, ← h.pool e (Nat.le_trans hnow he)]
    subst hr'
    exact hdist.distributed e
  have hgrown : ∀ {f : Nat → Int} {x : Int}, (∀ e, f e = r.amountIn e) → x = (accepted.map (·.amount)).sum →
      ∀ e, Function.update f epoch (f epoch + x) e = r'.amountIn e := by
    intro f x hf hx e
    rw [hamount, Function.update_apply]
    split
    · next he => rw [he, hf, hx, Int.natCast_add]
    · rw [hf, Nat.add_zero]
  refine ⟨by subst hr'; exact hpool, fun e => ?_, fun p hp he => ?_, fun e => ?_, fun e => ?_, fun e => ?_⟩
  · by_cases he : e = epoch
    · subst he
      rw [← hpool e (Nat.le_refl e)]
      subst hr'
      refine hdist.pool ?_
      change r.kernel.getDistributed e ≤ _
      rw [h.pool e hnow]
      exact h.cap e
    · rw [hamount, if_neg he]
      exact h.cap e
  · subst hr'
    refine (hdist.claimed _ _).mpr ?_
    rcases List.mem_append.mp hp with hold | hnew
    · exact .inl (h.marked p hold (Nat.le_trans hnow he))
    · obtain ⟨claim, hclaim, rfl⟩ := List.mem_map.mp hnew
      exact .inr ⟨rfl, List.mem_map_of_mem hclaim⟩
  · rw [hpaid, List.map_append]
    split
    · next he =>
      subst he
      refine List.nodup_append.mpr ⟨h.nodup e, hdist.nodup, fun c hc c' hc' heq => ?_⟩
      subst heq
      -- A citizen paid before in the epoch is marked, and a marked one is not paid.
      have hfresh : r.kernel.hasClaimed c e = false := hdist.fresh c hc'
      obtain ⟨claim, hclaim, rfl⟩ := List.mem_map.mp hc
      obtain ⟨p, hp, rfl⟩ := List.mem_map.mp hclaim
      obtain ⟨hmem, hpe⟩ := List.mem_filter.mp hp
      obtain rfl : p.1 = e := by simpa using hpe
      rw [h.marked p hmem hnow] at hfresh
      cases hfresh
    · rw [List.map_nil, List.append_nil]
      exact h.nodup e
  · subst hr'
    exact hgrown h.minted (supply_of_distributes hdist) e
  · subst hr'
    refine hgrown h.distributed ?_ e
    have hnew : (claims.foldl b.next (r.enter withToken)).kernel.getDistributed epoch =
        r.kernel.getDistributed epoch + if epoch = epoch then (accepted.map (·.amount)).sum else 0 :=
      hdist.distributed epoch
    rw [if_pos rfl] at hnew
    change (((claims.foldl b.next (r.enter withToken)).kernel.getDistributed epoch : Int) -
      r.kernel.getDistributed epoch) = _
    omega

theorem Inv.step (h : Inv r) (horder : r.InOrder call) (hcan : r.CanMint call) : Inv (r.step call) := by
  cases call with
  | claims claims registry epoch withToken kernelAddress => exact h.claims horder hcan
  | pruneOldEpochs epoch cutoff => exact h.pruneOldEpochs horder.1 horder.2

theorem rejectsQuietly_of_canMint (hcan : r.CanMint call) : r.RejectsQuietly call := by
  cases call with
  | claims claims registry epoch withToken kernelAddress => exact (UbiBatch.batch_distributes hcan).2
  | pruneOldEpochs epoch cutoff => trivial

end UbiRun

/-! ## Whole runs -/

/-- From a new kernel, in every run of batches and prunings in order in which the claims that pass the checks can be
minted: a rejected claim changes neither marks nor totals nor token, and in every epoch no citizen is paid twice, and
the growth of the supply, the growth of the total and the sum of what was paid are the same and within the cap. -/
theorem ubi_distribution_is_exact (token : TokenContract) (calls : List UbiCall) :
    Along UbiRun.step UbiRun.InOrder (.new token) calls →
    Along UbiRun.step UbiRun.CanMint (.new token) calls →
    let last := run UbiRun.step (.new token) calls
    Along UbiRun.step UbiRun.RejectsQuietly (.new token) calls ∧
      ∀ epoch, ((last.paidIn epoch).map (·.citizenId)).Nodup ∧ last.minted epoch = last.amountIn epoch ∧
        last.distributed epoch = last.amountIn epoch ∧ last.amountIn epoch ≤ 1000000 := by
  intro horder hcan
  have hinv : UbiRun.Inv (run UbiRun.step (.new token) calls) :=
    (horder.and hcan).invariant (fun r call hc h => UbiRun.Inv.step h hc.1 hc.2) (.new token)
  refine ⟨hcan.mono fun r call => UbiRun.rejectsQuietly_of_canMint, fun epoch => ?_⟩
  exact ⟨hinv.nodup epoch, hinv.minted epoch, hinv.distributed epoch, hinv.cap epoch⟩

def incomeKernel : PublicKey := ⟨4, 0, 4⟩

def incomeToken : TokenContract :=
  { TokenContract.new 7 "Sovereign" "SOV" 8 5000000 false 0 incomeKernel with
    kernelMintAuthority := some incomeKernel }

def incomeRegistry : CitizenRegistry := ((∅ : CitizenRegistry).insert 1 ⟨0, false⟩).insert 2 ⟨3, false⟩

/-- Two citizens claim over two epochs, one of them too often and one too early. -/
theorem ubi_distribution_is_exact_over_two_epochs :
    let calls : List UbiCall :=
      [.claims [⟨1, 1000⟩, ⟨1, 1000⟩, ⟨2, 1000⟩] incomeRegistry 2 true (some incomeKernel), .pruneOldEpochs 3 3,
        .claims [⟨2, 1000⟩, ⟨1, 999001⟩, ⟨1, 999000⟩] incomeRegistry 3 true (some incomeKernel)]
    let last := run UbiRun.step (.new incomeToken) calls
    last.amountIn 2 = 1000 ∧ last.amountIn 3 = 1000000 ∧ last.token.totalSupply = 1001000 ∧
      ∀ epoch, last.minted epoch = last.amountIn epoch := by
  refine ⟨by decide +kernel, by decide +kernel, by decide +kernel, fun epoch => ?_⟩
  exact ((ubi_distribution_is_exact incomeToken _ (by decide +kernel) (by decide +kernel)).2 epoch).2.1

/-- With an address that may not mint, the claim is rejected but the citizen is marked, and is refused with the right
address too. Without a token the claim succeeds and nothing is minted. -/
theorem rejected_claim_stays_marked :
    let wrong := run UbiRun.step (.new incomeToken) [.claims [⟨1, 1000⟩] incomeRegistry 2 true (some ⟨5, 0, 5⟩)]
    let again := wrong.step (.claims [⟨1, 1000⟩] incomeRegistry 2 true (some incomeKernel))
    let without := run UbiRun.step (.new incomeToken) [.claims [⟨1, 1000⟩] incomeRegistry 2 false none]
    (UbiRun.new incomeToken).kernel.hasClaimed 1 2 = false ∧ wrong.paid = [] ∧
      wrong.kernel.hasClaimed 1 2 = true ∧ again.paid = [] ∧ again.token.totalSupply = 0 ∧
      without.amountIn 2 = 1000 ∧ without.minted 2 = 0 := by
  decide +kernel

end SovereignNetwork.Treasury
