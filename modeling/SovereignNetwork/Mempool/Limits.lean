import SovereignNetwork.Lib.RateWindow
import SovereignNetwork.Lib.Run
import SovereignNetwork.Mempool.Admission

/-!
# The limits of the mempool over a run

A run admits and removes transactions at block heights that do not decrease. The counters agree with the transactions
that are present.
-/

namespace SovereignNetwork.Mempool

open Lib Fees
open Execution (Address)

/-! ## Runs -/

inductive MempoolOp
  /-- `admit`, then `add_tx` if it was accepted. -/
  | admitTransaction (tx : AdmitTx) (feeParams : FeeParams)
  | remove (tx : AdmitTx)

structure MempoolStep where
  height : Nat
  op : MempoolOp

/-- The state of the mempool, with the transactions that are in it and the heights at which each sender's were accepted. -/
structure MempoolRun where
  state : MempoolState := .new
  present : List AdmitTx := []
  accepted : List (Address × Nat) := []
  height : Nat := 0

def MempoolRun.add (config : MempoolConfig) (r : MempoolRun) (tx : AdmitTx) (height : Nat) : MempoolRun where
  state := r.state.addTx tx.sender tx.txBytes height config.rateLimitPeriodBlocks
  present := tx :: r.present
  accepted := (tx.sender, height) :: r.accepted
  height := height

def MempoolRun.remove (r : MempoolRun) (tx : AdmitTx) (height : Nat) : MempoolRun :=
  { r with state := r.state.removeTx tx.sender tx.txBytes, present := r.present.erase tx, height := height }

def MempoolRun.play (config : MempoolConfig) (r : MempoolRun) (step : MempoolStep) : MempoolRun :=
  match step.op with
  | .admitTransaction tx feeParams =>
    if admitTransaction tx feeParams config r.state step.height = .accepted then r.add config tx step.height
    else { r with height := step.height }
  | .remove tx => r.remove tx step.height

/-- Heights do not decrease, and what is removed is present. -/
structure ValidStep (r : MempoolRun) (step : MempoolStep) : Prop where
  height : r.height ≤ step.height
  present : ∀ tx, step.op = .remove tx → tx ∈ r.present

/-- Condition on a step: the height leaves room for a period in `u64`, and a sender's last pending transaction is
removed only once the sender's period is over. -/
structure KeepsPeriod (config : MempoolConfig) (r : MempoolRun) (step : MempoolStep) : Prop where
  height : step.height + config.rateLimitPeriodBlocks < 2 ^ 64
  last : ∀ tx s, step.op = .remove tx → r.state.getSender tx.sender = some s → s.pendingCount ≤ 1 →
    s.periodStartBlock + config.rateLimitPeriodBlocks ≤ step.height

/-! ## Counters -/

def pendingOf (present : List AdmitTx) (a : Address) : Nat := present.countP fun tx => tx.sender = a

/-- The counters are those of the transactions that are present. -/
structure Counted (r : MempoolRun) : Prop where
  txCount : r.state.txCount = r.present.length
  totalBytes : r.state.totalBytes = (r.present.map (·.txBytes)).sum
  pending : ∀ a, r.state.senderPendingCount a = pendingOf r.present a

structure WithinLimits (config : MempoolConfig) (state : MempoolState) : Prop where
  txCount : state.txCount ≤ config.maxTxCount
  totalBytes : state.totalBytes ≤ config.maxMempoolBytes
  pending : ∀ a, state.senderPendingCount a ≤ config.maxPerSender

section

variable {config : MempoolConfig} {r : MempoolRun} {tx : AdmitTx} {height : Nat} {feeParams : FeeParams}

theorem sum_txBytes_le (present : List AdmitTx) :
    (present.map (·.txBytes)).sum ≤ present.length * (2 ^ 32 - 1) := by
  induction present with
  | nil => simp
  | cons tx present ih =>
    have := tx.txBytes_lt
    simp only [List.map_cons, List.sum_cons, List.length_cons]
    omega

theorem saturatingAddU32_succ {x y : Nat} (h : x < y) (hy : y < 2 ^ 32) : saturatingAddU32 x 1 = x + 1 := by
  unfold saturatingAddU32
  omega

theorem getSender_addTx (state : MempoolState) (sender a : Address) (txBytes currentBlock periodBlocks : Nat) :
    (state.addTx sender txBytes currentBlock periodBlocks).getSender a =
      if a = sender then some (((state.getSender sender).getD {}).addTx txBytes currentBlock periodBlocks)
      else state.getSender a := by
  exact HashMap.lookup_insert_eq_ite _ _ _ _

theorem getSender_removeTx (state : MempoolState) (sender a : Address) (txBytes : Nat) :
    (state.removeTx sender txBytes).getSender a =
      if a = sender then (state.getSender sender).bind fun s =>
        if s.pendingCount ≤ 1 then none else some (s.removeTx txBytes)
      else state.getSender a := by
  have hzero : ∀ s : SenderState, (s.removeTx txBytes).pendingCount = 0 ↔ s.pendingCount ≤ 1 := fun s => by
    simp only [SenderState.removeTx]
    omega
  unfold MempoolState.removeTx
  rw [MempoolState.getSender]
  cases hs : state.getSender sender with
  | none =>
    change state.getSender a = _
    by_cases ha : a = sender
    · simp [ha, hs]
    · simp [ha]
  | some s =>
    by_cases hlast : s.pendingCount ≤ 1
    · simp only [hzero, hlast, if_true, HashMap.lookup_erase_eq_ite, Option.bind_some]
      rfl
    · simp only [hzero, hlast, if_false, HashMap.lookup_insert_eq_ite, Option.bind_some]
      rfl

theorem senderPendingCount_eq (state : MempoolState) (a : Address) :
    state.senderPendingCount a = ((state.getSender a).getD {}).pendingCount := by
  unfold MempoolState.senderPendingCount
  cases state.getSender a <;> rfl

theorem Counted.add (h : Counted r) (hlimits : WithinLimits config r.state)
    (hallowed : admitTransaction tx feeParams config r.state height = .accepted) :
    Counted (r.add config tx height) ∧ WithinLimits config (r.add config tx height).state := by
  obtain ⟨hcount, hbytes, hpending, -⟩ := room_of_accepted hallowed
  have htxCount : (r.add config tx height).state.txCount = r.state.txCount + 1 :=
    saturatingAddU32_succ hcount config.maxTxCount_lt
  have htotal : saturatingAddU64 r.state.totalBytes tx.txBytes = r.state.totalBytes + tx.txBytes := by
    have hsum := sum_txBytes_le r.present
    rw [← h.totalBytes, ← h.txCount] at hsum
    have hmax := config.maxTxCount_lt
    have htx := tx.txBytes_lt
    unfold saturatingAddU64
    omega
  have hsender : ∀ a, (r.add config tx height).state.senderPendingCount a =
      r.state.senderPendingCount a + if tx.sender = a then 1 else 0 := by
    intro a
    rw [senderPendingCount_eq, senderPendingCount_eq, MempoolRun.add, getSender_addTx]
    by_cases ha : a = tx.sender
    · subst ha
      rw [senderPendingCount_eq] at hpending
      simpa [SenderState.addTx] using saturatingAddU32_succ hpending config.maxPerSender_lt
    · simp [ha, Ne.symm ha]
  refine ⟨⟨?_, ?_, fun a => ?_⟩, ?_, ?_, fun a => ?_⟩
  · rw [htxCount, h.txCount]
    rfl
  · refine htotal.trans ?_
    rw [h.totalBytes, Nat.add_comm]
    rfl
  · rw [hsender, h.pending]
    simp [pendingOf, MempoolRun.add, List.countP_cons]
  · rw [htxCount]
    exact hcount
  · exact hbytes
  · rw [hsender]
    have := hlimits.pending a
    split
    · next heq =>
      subst heq
      exact hpending
    · exact this

theorem Counted.remove (h : Counted r) (hlimits : WithinLimits config r.state) (hmem : tx ∈ r.present) :
    Counted (r.remove tx height) ∧ WithinLimits config (r.remove tx height).state := by
  have hperm := List.perm_cons_erase hmem
  have hsender : ∀ a, (r.remove tx height).state.senderPendingCount a =
      r.state.senderPendingCount a - if tx.sender = a then 1 else 0 := by
    intro a
    rw [senderPendingCount_eq, senderPendingCount_eq, MempoolRun.remove, getSender_removeTx]
    by_cases ha : a = tx.sender
    · subst ha
      cases r.state.getSender tx.sender with
      | none => simp
      | some s =>
        by_cases hlast : s.pendingCount ≤ 1
        · simp [hlast]
        · simp [hlast, SenderState.removeTx]
    · simp [ha, Ne.symm ha]
  refine ⟨⟨?_, ?_, fun a => ?_⟩, ?_, ?_, fun a => ?_⟩
  · have hlength := hperm.length_eq
    have := h.txCount
    simp only [MempoolRun.remove, MempoolState.removeTx, List.length_cons] at hlength ⊢
    omega
  · have hsum : (r.present.map (·.txBytes)).sum = tx.txBytes + ((r.present.erase tx).map (·.txBytes)).sum :=
      (hperm.map _).sum_nat
    have := h.totalBytes
    simp only [MempoolRun.remove, MempoolState.removeTx]
    omega
  · have hcount := hperm.countP_eq fun tx : AdmitTx => tx.sender = a
    rw [hsender, h.pending]
    simp only [pendingOf, MempoolRun.remove, List.countP_cons, decide_eq_true_eq] at hcount ⊢
    omega
  · exact Nat.le_trans (Nat.sub_le _ _) hlimits.txCount
  · exact Nat.le_trans (Nat.sub_le _ _) hlimits.totalBytes
  · rw [hsender]
    exact Nat.le_trans (Nat.sub_le _ _) (hlimits.pending a)

theorem Counted.play (h : Counted r) (hlimits : WithinLimits config r.state) {step : MempoolStep} (hvalid : ValidStep r step) :
    Counted (r.play config step) ∧ WithinLimits config (r.play config step).state := by
  unfold MempoolRun.play
  cases hop : step.op with
  | admitTransaction tx feeParams =>
    by_cases hallowed : admitTransaction tx feeParams config r.state step.height = .accepted
    · simp only [hallowed, if_true]
      exact h.add hlimits hallowed
    · simp only [hallowed, if_false]
      exact ⟨⟨h.txCount, h.totalBytes, h.pending⟩, hlimits⟩
  | remove tx => exact h.remove hlimits (hvalid.present tx hop)

end

/-! ## The rate limit -/

/-- The heights at which transactions of the sender were accepted, the latest first. -/
def heightsOf (accepted : List (Address × Nat)) (a : Address) : List Nat :=
  accepted.filterMap fun entry => if entry.1 = a then some entry.2 else none

theorem heightsOf_cons (a a' : Address) (height : Nat) (accepted : List (Address × Nat)) :
    heightsOf ((a', height) :: accepted) a = if a' = a then height :: heightsOf accepted a else heightsOf accepted a := by
  by_cases h : a' = a <;> simp [heightsOf, h]

section

variable {config : MempoolConfig} {r : MempoolRun} {tx : AdmitTx} {height quota period start : Nat} {times : List Nat}

/-- The entry counts the period that starts at `start`. -/
structure Counts (s : SenderState) (period start : Nat) (times : List Nat) : Prop where
  starts : s.periodStartBlock = start
  count : s.periodCount = countIn start (start + period) times

theorem windowed_addTx {s : SenderState} (txBytes : Nat) (h : Windowed period quota start times) (hperiod : 0 < period)
    (hstart : start ≤ height) (hend : height + period < 2 ^ 64) (hquota : quota < 2 ^ 32)
    (hs : Counts s period start times ∨ start + period ≤ height ∧ s.periodEnd period ≤ height)
    (hroom : (if height < s.periodEnd period then s.periodCount else 0) < quota) :
    ∃ start', start' ≤ height ∧ Windowed period quota start' (height :: times) ∧
      Counts (s.addTx txBytes height period) period start' (height :: times) := by
  have hcases : (start + period ≤ height ∧ s.periodEnd period ≤ height) ∨
      (height < start + period ∧ height < s.periodEnd period ∧ Counts s period start times) := by
    rcases hs with hs | hs
    · have hsame : s.periodEnd period = start + period := by
        rw [SenderState.periodEnd, hs.starts]
        exact Nat.mod_eq_of_lt (by omega)
      rw [hsame]
      by_cases hlt : height < start + period
      · exact .inr ⟨hlt, hlt, hs⟩
      · exact .inl ⟨by omega, by omega⟩
    · exact .inl hs
  rcases hcases with ⟨hnew, hge⟩ | ⟨hlt, hsame, hs⟩
  · rw [if_neg (by omega)] at hroom
    refine ⟨height, le_rfl, h.next hperiod hnew hroom, ?_, ?_⟩
    · simp [SenderState.addTx, hge]
    · rw [countIn_cons, h.countIn_after hnew, if_pos (by omega)]
      simp [SenderState.addTx, hge]
  · rw [if_pos hsame, hs.count] at hroom
    refine ⟨start, hstart, h.same hstart hlt hroom, ?_, ?_⟩
    · simp [SenderState.addTx, Nat.not_le.mpr hsame, hs.starts]
    · rw [countIn_cons, if_pos ⟨hstart, hlt⟩, ← hs.count]
      rw [← hs.count] at hroom
      simpa [SenderState.addTx, Nat.not_le.mpr hsame] using saturatingAddU32_succ hroom hquota

/-- The rate limit of one sender: the entry counts the current period, or is gone and that period is over. -/
structure RateKept (config : MempoolConfig) (r : MempoolRun) (a : Address) (start : Nat) : Prop where
  started : start ≤ r.height
  windowed : Windowed config.rateLimitPeriodBlocks config.maxPerSenderPerPeriod start (heightsOf r.accepted a)
  entry : ∀ s, r.state.getSender a = some s → Counts s config.rateLimitPeriodBlocks start (heightsOf r.accepted a)
  blank : r.state.getSender a = none →
    start = 0 ∧ heightsOf r.accepted a = [] ∨ start + config.rateLimitPeriodBlocks ≤ r.height

theorem RateKept.of_frame {r' : MempoolRun} {a : Address} (h : RateKept config r a start) (hheight : r.height ≤ r'.height)
    (haccepted : heightsOf r'.accepted a = heightsOf r.accepted a)
    (hsender : r'.state.getSender a = r.state.getSender a) : RateKept config r' a start where
  started := Nat.le_trans h.started hheight
  windowed := haccepted ▸ h.windowed
  entry s hs := haccepted ▸ h.entry s (hsender ▸ hs)
  blank hnone := by
    rw [haccepted]
    exact (h.blank (hsender ▸ hnone)).imp_right fun hend => Nat.le_trans hend hheight

theorem RateKept.add {feeParams : FeeParams} {a : Address} (h : RateKept config r a start) (hheight : r.height ≤ height)
    (hperiod : 0 < config.rateLimitPeriodBlocks) (hend : height + config.rateLimitPeriodBlocks < 2 ^ 64)
    (hallowed : admitTransaction tx feeParams config r.state height = .accepted) :
    ∃ start', RateKept config (r.add config tx height) a start' := by
  by_cases ha : tx.sender = a
  · subst ha
    have haccepted : heightsOf (r.add config tx height).accepted tx.sender = height :: heightsOf r.accepted tx.sender := by
      rw [MempoolRun.add, heightsOf_cons, if_pos rfl]
    have hsender := getSender_addTx r.state tx.sender tx.sender tx.txBytes height config.rateLimitPeriodBlocks
    rw [if_pos rfl] at hsender
    have hroom := (room_of_accepted hallowed).2.2.2
    have hs : Counts ((r.state.getSender tx.sender).getD {}) config.rateLimitPeriodBlocks start
          (heightsOf r.accepted tx.sender) ∨
        start + config.rateLimitPeriodBlocks ≤ height ∧
          ((r.state.getSender tx.sender).getD {}).periodEnd config.rateLimitPeriodBlocks ≤ height := by
      cases hentry : r.state.getSender tx.sender with
      | some s => exact .inl (h.entry s hentry)
      | none =>
        rcases h.blank hentry with ⟨hzero, hnil⟩ | hover
        · rw [hnil, hzero]
          exact .inl ⟨rfl, rfl⟩
        · refine .inr ⟨by omega, ?_⟩
          have hblank : ({} : SenderState).periodEnd config.rateLimitPeriodBlocks = config.rateLimitPeriodBlocks :=
            (congrArg _ (Nat.zero_add _)).trans (Nat.mod_eq_of_lt (by omega))
          rw [Option.getD_none, hblank]
          omega
    have hroom' : (if height < ((r.state.getSender tx.sender).getD {}).periodEnd config.rateLimitPeriodBlocks
        then ((r.state.getSender tx.sender).getD {}).periodCount else 0) < config.maxPerSenderPerPeriod := by
      unfold MempoolState.senderPeriodCount at hroom
      cases hentry : r.state.getSender tx.sender with
      | some s => simpa [hentry] using hroom
      | none => simpa [hentry] using hroom
    obtain ⟨start', hstart', hwindowed, hcounts⟩ := windowed_addTx tx.txBytes h.windowed hperiod
      (Nat.le_trans h.started hheight) hend config.maxPerSenderPerPeriod_lt hs hroom'
    refine ⟨start', hstart', haccepted ▸ hwindowed, fun s hs => ?_, fun hnone => ?_⟩
    · rw [haccepted, ← Option.some.inj (hsender.symm.trans hs)]
      exact hcounts
    · cases hsender.symm.trans hnone
  · refine ⟨start, h.of_frame hheight ?_ ?_⟩
    · rw [MempoolRun.add, heightsOf_cons, if_neg ha]
    · rw [MempoolRun.add, getSender_addTx, if_neg (Ne.symm ha)]

theorem RateKept.remove {a : Address} (h : RateKept config r a start) (hheight : r.height ≤ height)
    (hlast : ∀ s, r.state.getSender tx.sender = some s → s.pendingCount ≤ 1 →
      s.periodStartBlock + config.rateLimitPeriodBlocks ≤ height) : RateKept config (r.remove tx height) a start := by
  have hsender := getSender_removeTx r.state tx.sender a tx.txBytes
  by_cases ha : a = tx.sender
  · subst ha
    rw [if_pos rfl] at hsender
    cases hentry : r.state.getSender tx.sender with
    | none =>
      refine h.of_frame hheight rfl ?_
      rw [hentry, MempoolRun.remove, hsender, hentry, Option.bind_none]
    | some s =>
      have hcounts := h.entry s hentry
      rw [hentry, Option.bind_some] at hsender
      by_cases hone : s.pendingCount ≤ 1
      · rw [if_pos hone] at hsender
        refine ⟨Nat.le_trans h.started hheight, h.windowed, fun s' hs' => ?_, fun _ => .inr ?_⟩
        · cases hsender.symm.trans hs'
        · exact hcounts.starts ▸ hlast s hentry hone
      · rw [if_neg hone] at hsender
        refine ⟨Nat.le_trans h.started hheight, h.windowed, fun s' hs' => ?_, fun hnone => ?_⟩
        · rw [← Option.some.inj (hsender.symm.trans hs')]
          exact ⟨hcounts.starts, hcounts.count⟩
        · cases hsender.symm.trans hnone
  · rw [if_neg ha] at hsender
    exact h.of_frame hheight rfl hsender

theorem RateKept.play {a : Address} {step : MempoolStep} (h : RateKept config r a start)
    (hperiod : 0 < config.rateLimitPeriodBlocks) (hvalid : ValidStep r step) (hkeeps : KeepsPeriod config r step) :
    ∃ start', RateKept config (r.play config step) a start' := by
  unfold MempoolRun.play
  cases hop : step.op with
  | admitTransaction tx feeParams =>
    by_cases hallowed : admitTransaction tx feeParams config r.state step.height = .accepted
    · simp only [hallowed, if_true]
      exact h.add hvalid.height hperiod hkeeps.height hallowed
    · simp only [hallowed, if_false]
      exact ⟨start, h.of_frame hvalid.height rfl rfl⟩
  | remove tx => exact ⟨start, h.remove hvalid.height fun s hs hone => hkeeps.last tx s hop hs hone⟩

end

/-- In every run the counters are those of the transactions that are present and stay within the limits. In every run
that forgets no sender's period before its end, no stretch of heights as long as a period has more than twice the
quota of one sender's transactions. -/
theorem mempool_limits_hold_over_runs (config : MempoolConfig) (steps : List MempoolStep)
    (hvalid : Along (MempoolRun.play config) ValidStep {} steps) :
    let r := run (MempoolRun.play config) {} steps
    (Counted r ∧ WithinLimits config r.state) ∧
      (Along (MempoolRun.play config) (KeepsPeriod config) {} steps → ∀ a lo,
        countIn lo (lo + config.rateLimitPeriodBlocks) (heightsOf r.accepted a) ≤ 2 * config.maxPerSenderPerPeriod) := by
  have hcounted : Counted {} ∧ WithinLimits config (MempoolRun.state {}) :=
    ⟨⟨rfl, rfl, fun _ => rfl⟩, Nat.zero_le _, Nat.zero_le _, fun _ => Nat.zero_le _⟩
  have hstep : ∀ r step, ValidStep r step → Counted r ∧ WithinLimits config r.state →
      Counted (r.play config step) ∧ WithinLimits config (r.play config step).state :=
    fun r step hvalid h => h.1.play h.2 hvalid
  refine ⟨hvalid.invariant hstep hcounted, fun hkeeps a lo => ?_⟩
  by_cases hperiod : 0 < config.rateLimitPeriodBlocks
  · have hinit : ∃ start, RateKept config {} a start :=
      ⟨0, Nat.zero_le _, .nil _ _ _, nofun, fun _ => .inl ⟨rfl, rfl⟩⟩
    obtain ⟨start, hrate⟩ := (hvalid.and hkeeps).invariant (I := fun r => ∃ start, RateKept config r a start)
      (fun r step hstep ⟨start, h⟩ => h.play hperiod hstep.1 hstep.2) hinit
    exact hrate.windowed.stretch lo
  · rw [Nat.eq_zero_of_not_pos hperiod, Nat.add_zero, countIn_eq_zero fun _ _ hle hlt => Nat.not_lt.mpr hle hlt]
    exact Nat.zero_le _

/-! ## A sender that comes back -/

def oneInTen : MempoolConfig := { maxPerSenderPerPeriod := 1 }

def smallTx : AdmitTx where
  fee := 100000
  txBytes := 500
  witnessBytes := 200
  inputCount := 2
  outputCount := 2
  sigCount := 1
  txKind := .nativeTransfer
  sigScheme := .dilithium5
  sender := 0
  computeUnits := 100
  stateReads := 5
  stateWrites := 2
  stateWriteBytes := 100

def admitAt (height : Nat) : MempoolStep := ⟨height, .admitTransaction smallTx {}⟩

def removeAt (height : Nat) : MempoolStep := ⟨height, .remove smallTx⟩

theorem mempool_limits_hold_for_a_later_period :
    let r := run (MempoolRun.play oneInTen) {} [admitAt 100, removeAt 110, admitAt 110]
    r.accepted.length = 2 ∧ Counted r ∧ ∀ a lo, countIn lo (lo + 10) (heightsOf r.accepted a) ≤ 2 * 1 := by
  have hvalid : Along (MempoolRun.play oneInTen) ValidStep {} [admitAt 100, removeAt 110, admitAt 110] := by
    refine ⟨⟨by decide, nofun⟩, ⟨by decide +kernel, ?_⟩, ⟨by decide +kernel, nofun⟩, trivial⟩
    rintro tx ⟨⟩
    decide +kernel
  have hkeeps : Along (MempoolRun.play oneInTen) (KeepsPeriod oneInTen) {} [admitAt 100, removeAt 110, admitAt 110] := by
    refine ⟨⟨by decide, nofun⟩, ⟨by decide, ?_⟩, ⟨by decide, nofun⟩, trivial⟩
    rintro tx s ⟨⟩ hs -
    have hentry : (MempoolRun.play oneInTen {} (admitAt 100)).state.getSender 0 = some ⟨1, 500, 1, 100⟩ := by decide +kernel
    cases hentry.symm.trans hs
    decide
  have hlimits := mempool_limits_hold_over_runs oneInTen [admitAt 100, removeAt 110, admitAt 110] hvalid
  exact ⟨by decide +kernel, hlimits.1.1, hlimits.2 hkeeps⟩

/-- A transaction that is removed and sent again counts as the first of its sender each time. -/
theorem removal_resets_rate_limit :
    let steps := [admitAt 100, removeAt 100, admitAt 100, removeAt 100, admitAt 100]
    let r := run (MempoolRun.play oneInTen) {} steps
    Along (MempoolRun.play oneInTen) ValidStep {} steps ∧
      countIn 100 (100 + oneInTen.rateLimitPeriodBlocks) (heightsOf r.accepted 0) = 3 ∧
      2 * oneInTen.maxPerSenderPerPeriod = 2 := by
  refine ⟨⟨⟨by decide, nofun⟩, ⟨by decide +kernel, ?_⟩, ⟨by decide +kernel, nofun⟩, ⟨by decide +kernel, ?_⟩,
    ⟨by decide +kernel, nofun⟩, trivial⟩, by decide +kernel, rfl⟩
  all_goals
    rintro tx ⟨⟩
    decide +kernel

end SovereignNetwork.Mempool
