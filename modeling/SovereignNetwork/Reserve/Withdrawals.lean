import Mathlib.Data.List.Nodup
import SovereignNetwork.Lib.FirstMatch
import SovereignNetwork.Lib.Run
import SovereignNetwork.Lib.Totals
import SovereignNetwork.Reserve.Emergency

/-!
# Withdrawals from the emergency reserve are authorised once

Next to the reserve a ledger keeps the withdrawals that went through.
-/

namespace SovereignNetwork.Reserve

open Lib Execution

variable {X : ReserveExternals}

/-! ## The message determines the withdrawal -/

namespace WithdrawalMessage

structure Framed (m : WithdrawalMessage) : Prop where
  domain : (bytesOf m.domain).length < 2 ^ 32
  recipient : m.recipient.length < 2 ^ 32
  amount : m.amount < 2 ^ 64
  nonce : m.nonce < 2 ^ 64
  expiryPeriodId : m.expiryPeriodId < 2 ^ 64

theorem encode_inj {m m' : WithdrawalMessage} (hm : m.Framed) (hm' : m'.Framed) (h : m.encode = m'.encode) :
    m = m' := by
  simp only [encode, List.append_assoc] at h
  obtain ⟨hlength, h⟩ := List.append_inj h (by simp)
  obtain ⟨hdomain, h⟩ := List.append_inj h (toBeBytes_inj hm.domain hm'.domain hlength)
  obtain ⟨hcontract, h⟩ := List.append_inj h (by simp)
  obtain ⟨hlength, h⟩ := List.append_inj h (by simp)
  obtain ⟨hrecipient, h⟩ := List.append_inj h (toBeBytes_inj hm.recipient hm'.recipient hlength)
  obtain ⟨hamount, h⟩ := List.append_inj h (by simp)
  obtain ⟨hnonce, hexpiry⟩ := List.append_inj h (by simp)
  cases m
  cases m'
  congr
  · exact bytesOf_inj hdomain
  · exact Bytes.asSlice_inj hcontract
  · exact toBeBytes_inj hm.amount hm'.amount hamount
  · exact toBeBytes_inj hm.nonce hm'.nonce hnonce
  · exact toBeBytes_inj hm.expiryPeriodId hm'.expiryPeriodId hexpiry

end WithdrawalMessage

namespace EmergencyReserve

variable {r r' : EmergencyReserve} {messageHash : List UInt8} {signers : List PublicKey} {sigs : List Signature}
  {signer : PublicKey}

theorem message_framed {recipient : PublicKey} {amount nonce expiryPeriodId : Nat} (hamount : amount < 2 ^ 64)
    (hnonce : nonce < 2 ^ 64) (hexpiry : expiryPeriodId < 2 ^ 64) :
    (r.message recipient amount nonce expiryPeriodId).Framed := by
  refine ⟨?_, ?_, hamount, hnonce, hexpiry⟩
  · rw [length_bytesOf]
    show "SOV_EMERGENCY_RESERVE_WITHDRAW_V1".utf8ByteSize < 2 ^ 32
    decide
  · rw [message, asBytes, Bytes.length_asSlice]
    decide

/-! ## The signers -/

theorem verifies_eq_true {sig : Signature} :
    verifies X messageHash sig signer = true ↔
      X.verifySignature messageHash sig.signature (asBytes signer) = .ok true := by
  unfold verifies
  split
  · next h => simp [h]
  · next h => simp [h]
  · next h => simp [h]

/-- A signer that counts is the first one to verify a signature. -/
def Counted (X : ReserveExternals) (messageHash : List UInt8) (signers : List PublicKey) (sigs : List Signature)
    (signer : PublicKey) : Prop :=
  ∃ sig ∈ sigs, signers.find? (verifies X messageHash sig) = some signer

theorem Counted.mem (h : Counted X messageHash signers sigs signer) : signer ∈ signers := by
  obtain ⟨sig, -, hfind⟩ := h
  exact List.mem_of_find?_eq_some hfind

theorem Counted.verified (h : Counted X messageHash signers sigs signer) :
    ∃ sig ∈ sigs, X.verifySignature messageHash sig.signature (asBytes signer) = .ok true := by
  obtain ⟨sig, hsig, hfind⟩ := h
  exact ⟨sig, hsig, verifies_eq_true.mp (List.find?_some hfind)⟩

theorem Counted.eq_of_asBytes {other : PublicKey} (h : Counted X messageHash signers sigs signer)
    (hother : Counted X messageHash signers sigs other) (heq : asBytes signer = asBytes other) : signer = other := by
  obtain ⟨sig, -, hfind⟩ := h
  obtain ⟨sig', -, hfind'⟩ := hother
  have hsame : ∀ sig, verifies X messageHash sig signer = verifies X messageHash sig other := by
    intro sig
    rw [verifies, verifies, heq]
  refine find?_unique hfind hfind' ?_ ?_
  · rw [← hsame]
    exact List.find?_some hfind
  · rw [hsame]
    exact List.find?_some hfind'

theorem validSigners_spec (X : ReserveExternals) (messageHash : List UInt8) (signers : List PublicKey)
    (sigs : List Signature) : (validSigners X messageHash signers sigs).Nodup ∧
    ∀ signer ∈ validSigners X messageHash signers sigs, Counted X messageHash signers sigs signer := by
  have hsigs : Along (countSigner X messageHash signers) (fun _ sig => sig ∈ sigs) [] sigs := .of_mem [] fun _ h => h
  refine hsigs.invariant
    (I := fun valid => valid.Nodup ∧ ∀ signer ∈ valid, Counted X messageHash signers sigs signer) ?_ (by simp)
  rintro valid sig hsig ⟨hnodup, hcounted⟩
  unfold countSigner
  split
  · next signer hfind =>
    refine ⟨hnodup.insert, fun other hother => ?_⟩
    obtain rfl | hother := List.mem_insert_iff.mp hother
    · exact ⟨sig, hsig, hfind⟩
    · exact hcounted other hother
  · exact ⟨hnodup, hcounted⟩

/-! ## What the calls do -/

theorem init_eq_ok {collector : PublicKey} {threshold : Nat} {contractId : Bytes 32}
    (h : init collector signers threshold contractId = .ok r) :
    r.totalReceived = 0 ∧ r.totalWithdrawn = 0 ∧ r.receivedByPeriod = ∅ ∧ r.nextNonce = 1 := by
  simp only [init, guard_eq_ok] at h
  obtain ⟨-, -, h⟩ := h
  split at h
  · cases h
  · simp only [guard_eq_ok, pure_eq_ok] at h
    obtain ⟨-, -, rfl⟩ := h
    exact ⟨rfl, rfl, rfl, rfl⟩

theorem credit_atomic (caller : PublicKey) (amount periodId : Nat) : Method.Atomic (credit caller amount periodId) :=
  .get_bind fun _ => .check_bind (.check_bind (.check_bind (.check_bind .modify)))

theorem withdraw_atomic (recipient : PublicKey) (amount nonce expiryPeriodId currentPeriodId : Nat)
    (sigs : List Signature) :
    Method.Atomic (withdraw X recipient amount nonce expiryPeriodId currentPeriodId sigs) :=
  .get_bind fun _ => .check_bind (.check_bind (.okOr_bind fun _ =>
    .check_bind (.check_bind (.check_bind (.check_bind .modify)))))

theorem credit_eq_ok {caller : PublicKey} {amount periodId : Nat} (h : credit caller amount periodId r = (.ok (), r')) :
    r.totalReceived + amount < 2 ^ 64 ∧ r' =
      { r with
        totalReceived := r.totalReceived + amount
        lastPeriodId := periodId
        receivedByPeriod :=
          r.receivedByPeriod.insert periodId (wrapU64 ((r.receivedByPeriod.lookup periodId).getD 0 + amount)) } := by
  rw [credit, Method.get_bind] at h
  simp only [Method.bind_eq_ok, Method.check_eq_ok] at h
  obtain ⟨_, _, ⟨-, rfl⟩, _, _, ⟨-, rfl⟩, _, _, ⟨hfits, rfl⟩, _, _, ⟨-, rfl⟩, hmodify⟩ := h
  cases hmodify
  exact ⟨hfits, rfl⟩

theorem withdraw_eq_ok {recipient : PublicKey} {amount nonce expiryPeriodId currentPeriodId : Nat}
    (h : withdraw X recipient amount nonce expiryPeriodId currentPeriodId sigs r = (.ok (), r')) :
    amount ≠ 0 ∧ r.totalWithdrawn + amount ≤ r.totalReceived ∧ nonce = r.nextNonce ∧
      r.threshold ≤ (validSigners X ((r.message recipient amount nonce expiryPeriodId).hash X) r.signers sigs).length ∧
      r' =
        { r with
          totalWithdrawn := wrapU64 (r.totalWithdrawn + amount)
          nextNonce := wrapU64 (r.nextNonce + 1) } := by
  rw [withdraw, Method.get_bind] at h
  simp only [Method.bind_eq_ok, Method.check_eq_ok, Method.okOr_eq_ok, balance, checkedSub_eq_some] at h
  obtain ⟨_, _, ⟨-, rfl⟩, _, _, ⟨hzero, rfl⟩, _, _, ⟨⟨hle, rfl⟩, rfl⟩, _, _, ⟨hbalance, rfl⟩, _, _, ⟨hnonce, rfl⟩, _, _,
    ⟨-, rfl⟩, _, _, ⟨hthreshold, rfl⟩, hmodify⟩ := h
  cases hmodify
  exact ⟨hzero, by omega, hnonce, hthreshold, rfl⟩

end EmergencyReserve

/-! ## Runs -/

structure Withdrawal where
  recipient : PublicKey
  amount : Nat
  nonce : Nat
  expiryPeriodId : Nat
  sigs : List Signature

structure Withdrawal.Bounded (w : Withdrawal) : Prop where
  amount : w.amount < 2 ^ 64
  nonce : w.nonce < 2 ^ 64
  expiryPeriodId : w.expiryPeriodId < 2 ^ 64

/-- What the signers of a reserve sign for a withdrawal. -/
def Withdrawal.message (w : Withdrawal) (r : EmergencyReserve) : WithdrawalMessage :=
  r.message w.recipient w.amount w.nonce w.expiryPeriodId

/-- A message is that of one contract and one withdrawal, up to the parts of the recipient's key that are not signed. -/
theorem Withdrawal.message_inj {r r' : EmergencyReserve} {w w' : Withdrawal} (hw : w.Bounded) (hw' : w'.Bounded)
    (h : (w.message r).encode = (w'.message r').encode) :
    r.contractId = r'.contractId ∧ w.recipient.dilithiumPk = w'.recipient.dilithiumPk ∧ w.amount = w'.amount ∧
      w.nonce = w'.nonce ∧ w.expiryPeriodId = w'.expiryPeriodId := by
  have hmessage := WithdrawalMessage.encode_inj
    (EmergencyReserve.message_framed hw.amount hw.nonce hw.expiryPeriodId)
    (EmergencyReserve.message_framed hw'.amount hw'.nonce hw'.expiryPeriodId) h
  obtain ⟨-, hcontract, hrecipient, hamount, hnonce, hexpiry⟩ := WithdrawalMessage.mk.inj hmessage
  exact ⟨hcontract, Bytes.asSlice_inj hrecipient, hamount, hnonce, hexpiry⟩

inductive ReserveCall
  | credit (caller : PublicKey) (amount periodId : Nat)
  | withdraw (recipient : PublicKey) (amount nonce expiryPeriodId currentPeriodId : Nat) (sigs : List Signature)

def ReserveCall.exec (X : ReserveExternals) : ReserveCall → Method EmergencyReserve String Unit
  | .credit caller amount periodId => EmergencyReserve.credit caller amount periodId
  | .withdraw recipient amount nonce expiryPeriodId currentPeriodId sigs =>
    EmergencyReserve.withdraw X recipient amount nonce expiryPeriodId currentPeriodId sigs

/-- What a call that succeeded takes out. -/
def ReserveCall.withdrawal? : ReserveCall → Option Withdrawal
  | .credit _ _ _ => none
  | .withdraw recipient amount nonce expiryPeriodId _ sigs => some ⟨recipient, amount, nonce, expiryPeriodId, sigs⟩

structure ReserveLedger where
  reserve : EmergencyReserve
  withdrawals : List Withdrawal

def ReserveLedger.step (X : ReserveExternals) (s : ReserveLedger) (call : ReserveCall) : ReserveLedger :=
  match call.exec X s.reserve with
  | (.ok _, reserve) => ⟨reserve, call.withdrawal?.toList ++ s.withdrawals⟩
  | (.error _, reserve) => ⟨reserve, s.withdrawals⟩

/-- A threshold of signers with different keys has signed the message of the withdrawal. -/
structure Authorised (X : ReserveExternals) (r : EmergencyReserve) (w : Withdrawal) (approvers : List PublicKey) :
    Prop where
  signers : ∀ signer ∈ approvers, signer ∈ r.signers
  distinct : (approvers.map asBytes).Nodup
  threshold : r.threshold ≤ approvers.length
  signed : ∀ signer ∈ approvers, ∃ sig ∈ w.sigs,
    X.verifySignature ((w.message r).hash X) sig.signature (asBytes signer) = .ok true

theorem EmergencyReserve.authorised_of_withdraw {r r' : EmergencyReserve} {recipient : PublicKey}
    {amount nonce expiryPeriodId currentPeriodId : Nat} {sigs : List Signature}
    (h : withdraw X recipient amount nonce expiryPeriodId currentPeriodId sigs r = (.ok (), r')) :
    ∃ approvers, Authorised X r ⟨recipient, amount, nonce, expiryPeriodId, sigs⟩ approvers := by
  obtain ⟨-, -, -, hthreshold, -⟩ := withdraw_eq_ok h
  obtain ⟨hnodup, hcounted⟩ :=
    validSigners_spec X ((r.message recipient amount nonce expiryPeriodId).hash X) r.signers sigs
  refine ⟨_, fun signer hsigner => (hcounted signer hsigner).mem, ?_, hthreshold,
    fun signer hsigner => (hcounted signer hsigner).verified⟩
  exact hnodup.map_on fun signer hsigner other hother heq =>
    (hcounted signer hsigner).eq_of_asBytes (hcounted other hother) heq

theorem Authorised.congr {r r' : EmergencyReserve} {w : Withdrawal} {approvers : List PublicKey}
    (h : Authorised X r w approvers) (hsigners : r'.signers = r.signers) (hthreshold : r'.threshold = r.threshold)
    (hcontract : r'.contractId = r.contractId) : Authorised X r' w approvers := by
  have hmessage : w.message r' = w.message r := by
    rw [Withdrawal.message, EmergencyReserve.message, hcontract]
    rfl
  refine ⟨hsigners ▸ h.signers, h.distinct, hthreshold ▸ h.threshold, ?_⟩
  rw [hmessage]
  exact h.signed

namespace ReserveLedger

variable {start : EmergencyReserve} {s : ReserveLedger}

structure Inv (X : ReserveExternals) (start : EmergencyReserve) (s : ReserveLedger) : Prop where
  signers : s.reserve.signers = start.signers
  threshold : s.reserve.threshold = start.threshold
  contractId : s.reserve.contractId = start.contractId
  withdrawn : s.reserve.totalWithdrawn ≤ s.reserve.totalReceived
  fits : s.reserve.totalReceived < 2 ^ 64
  periods : total (fun _ received => received) s.reserve.receivedByPeriod = s.reserve.totalReceived
  /-- Every withdrawal took something, so that the nonce does not wrap while there is a balance. -/
  spent : s.withdrawals.length ≤ s.reserve.totalWithdrawn
  nextNonce : s.reserve.nextNonce = wrapU64 (s.withdrawals.length + 1)
  used : ∀ w ∈ s.withdrawals, w.nonce ≤ s.withdrawals.length
  once : (s.withdrawals.map Withdrawal.nonce).Nodup
  authorised : ∀ w ∈ s.withdrawals, ∃ approvers, Authorised X start w approvers

namespace Inv

theorem init {collector : PublicKey} {signers : List PublicKey} {threshold : Nat} {contractId : Bytes 32}
    {reserve : EmergencyReserve} (h : EmergencyReserve.init collector signers threshold contractId = .ok reserve) :
    Inv X reserve ⟨reserve, []⟩ := by
  obtain ⟨hreceived, hwithdrawn, hperiods, hnonce⟩ := EmergencyReserve.init_eq_ok h
  refine ⟨rfl, rfl, rfl, ?_, ?_, ?_, Nat.zero_le _, hnonce, by simp, List.nodup_nil, by simp⟩
  · rw [hreceived, hwithdrawn]
  · rw [hreceived]
    exact Nat.two_pow_pos 64
  · rw [hperiods, hreceived]
    rfl

theorem credit {caller : PublicKey} {amount periodId : Nat} {reserve : EmergencyReserve} (h : Inv X start s)
    (hrun : EmergencyReserve.credit caller amount periodId s.reserve = (.ok (), reserve)) :
    Inv X start ⟨reserve, s.withdrawals⟩ := by
  obtain ⟨hfits, rfl⟩ := EmergencyReserve.credit_eq_ok hrun
  have hinsert := total_insert (w := fun _ received => received) s.reserve.receivedByPeriod periodId
    (wrapU64 ((s.reserve.receivedByPeriod.lookup periodId).getD 0 + amount))
  have hle := weight_le_total (w := fun _ received => received) s.reserve.receivedByPeriod periodId
  have hold : weight (fun _ received => received) periodId (s.reserve.receivedByPeriod.lookup periodId) =
      (s.reserve.receivedByPeriod.lookup periodId).getD 0 := by
    cases s.reserve.receivedByPeriod.lookup periodId <;> rfl
  rw [hold, h.periods] at hle
  have hwrap : wrapU64 ((s.reserve.receivedByPeriod.lookup periodId).getD 0 + amount) =
      (s.reserve.receivedByPeriod.lookup periodId).getD 0 + amount := Nat.mod_eq_of_lt (by omega)
  rw [hold, h.periods, hwrap] at hinsert
  have hperiods : total (fun _ received => received) (s.reserve.receivedByPeriod.insert periodId
      ((s.reserve.receivedByPeriod.lookup periodId).getD 0 + amount)) = s.reserve.totalReceived + amount := by
    omega
  rw [hwrap]
  exact ⟨h.signers, h.threshold, h.contractId, h.withdrawn.trans (Nat.le_add_right _ _), hfits, hperiods, h.spent,
    h.nextNonce, h.used, h.once, h.authorised⟩

theorem withdraw {recipient : PublicKey} {amount nonce expiryPeriodId currentPeriodId : Nat} {sigs : List Signature}
    {reserve : EmergencyReserve} (h : Inv X start s)
    (hrun : EmergencyReserve.withdraw X recipient amount nonce expiryPeriodId currentPeriodId sigs s.reserve =
      (.ok (), reserve)) :
    Inv X start ⟨reserve, ⟨recipient, amount, nonce, expiryPeriodId, sigs⟩ :: s.withdrawals⟩ := by
  obtain ⟨approvers, happrovers⟩ := EmergencyReserve.authorised_of_withdraw hrun
  obtain ⟨hzero, hbalance, hnonce, -, rfl⟩ := EmergencyReserve.withdraw_eq_ok hrun
  have hfits := h.fits
  have hspent := h.spent
  have hwithdrawn : wrapU64 (s.reserve.totalWithdrawn + amount) = s.reserve.totalWithdrawn + amount :=
    Nat.mod_eq_of_lt (by omega)
  have hnext : s.reserve.nextNonce = s.withdrawals.length + 1 := by
    rw [h.nextNonce]
    exact Nat.mod_eq_of_lt (by omega)
  rw [hwithdrawn]
  refine ⟨h.signers, h.threshold, h.contractId, hbalance, hfits, h.periods, ?_, ?_, ?_, ?_, ?_⟩
  · show s.withdrawals.length + 1 ≤ s.reserve.totalWithdrawn + amount
    omega
  · rw [hnext]
    rfl
  · intro w hw
    cases hw with
    | head => exact (hnonce.trans hnext).le
    | tail _ hw => exact (h.used w hw).trans (Nat.le_succ _)
  · refine List.nodup_cons.mpr ⟨fun hmem => ?_, h.once⟩
    obtain ⟨w, hw, heq⟩ := List.mem_map.mp hmem
    have hused := h.used w hw
    have : w.nonce = nonce := heq
    omega
  · intro w hw
    cases hw with
    | head => exact ⟨approvers, happrovers.congr h.signers.symm h.threshold.symm h.contractId.symm⟩
    | tail _ hw => exact h.authorised w hw

end Inv

theorem exec_atomic (call : ReserveCall) : Method.Atomic (call.exec X) := by
  cases call with
  | credit caller amount periodId => exact EmergencyReserve.credit_atomic caller amount periodId
  | withdraw recipient amount nonce expiryPeriodId currentPeriodId sigs =>
    exact EmergencyReserve.withdraw_atomic recipient amount nonce expiryPeriodId currentPeriodId sigs

theorem Inv.step {call : ReserveCall} (h : Inv X start s) : Inv X start (s.step X call) := by
  unfold ReserveLedger.step
  split
  · next hrun =>
    cases call with
    | credit caller amount periodId => exact h.credit hrun
    | withdraw recipient amount nonce expiryPeriodId currentPeriodId sigs => exact h.withdraw hrun
  · next hrun =>
    rw [exec_atomic call _ _ _ hrun]
    exact h

/-- Whatever calls are made on a reserve that `init` built, no more is withdrawn than was received, the receipts of the
periods add up, every nonce is used once, every withdrawal was signed by a threshold of signers over its own message,
and a call that is rejected changes nothing. -/
theorem withdrawals_are_authorised_once (X : ReserveExternals) {collector : PublicKey} {signers : List PublicKey}
    {threshold : Nat} {contractId : Bytes 32} {reserve : EmergencyReserve}
    (hinit : EmergencyReserve.init collector signers threshold contractId = .ok reserve) (calls : List ReserveCall) :
    let s := run (step X) ⟨reserve, []⟩ calls
    s.reserve.totalWithdrawn ≤ s.reserve.totalReceived ∧
      total (fun _ received => received) s.reserve.receivedByPeriod = s.reserve.totalReceived ∧
      (s.withdrawals.map Withdrawal.nonce).Nodup ∧
      (∀ w ∈ s.withdrawals, ∃ approvers, Authorised X reserve w approvers) ∧
      (∀ (other : EmergencyReserve) (w w' : Withdrawal), w.Bounded → w'.Bounded →
        (w.message reserve).encode = (w'.message other).encode →
        reserve.contractId = other.contractId ∧ w.recipient.dilithiumPk = w'.recipient.dilithiumPk ∧
          w.amount = w'.amount ∧ w.nonce = w'.nonce ∧ w.expiryPeriodId = w'.expiryPeriodId) ∧
      Along (step X) (fun s call => ∀ e r, call.exec X s.reserve = (.error e, r) → r = s.reserve) ⟨reserve, []⟩
        calls := by
  have hcalls : Along (step X) (fun _ _ => True) ⟨reserve, []⟩ calls := .of_forall (fun _ _ => trivial) _ _
  have hinv : Inv X reserve (run (step X) ⟨reserve, []⟩ calls) :=
    hcalls.invariant (fun _ _ _ h => h.step) (Inv.init hinit)
  exact ⟨hinv.withdrawn, hinv.periods, hinv.once, hinv.authorised, fun _ _ _ => Withdrawal.message_inj,
    .of_forall (fun (s : ReserveLedger) call e r => exec_atomic call s.reserve e r) _ _⟩

/-- A signature is the last byte of the key it is checked against. -/
def byteKeys : ReserveExternals where
  hashData _ := 0
  verifySignature _ signature key := .ok (signature == key.getLast?.toList)

def guardian (i : Nat) : PublicKey := ⟨i, 0, i⟩

/-- The second call lacks a signer and the last one is a replay. -/
def reserveCalls : List ReserveCall :=
  let sigs : List Signature := [⟨[3], guardian 3⟩, ⟨[1], guardian 1⟩]
  [.credit (guardian 9) 100 1, .withdraw (guardian 5) 40 1 8 2 [⟨[1], guardian 1⟩, ⟨[1], guardian 1⟩],
    .withdraw (guardian 5) 40 1 8 2 sigs, .withdraw (guardian 5) 40 1 8 2 sigs]

theorem replayed_withdrawal_is_rejected :
    ∃ reserve, EmergencyReserve.init (guardian 9) [guardian 1, guardian 2, guardian 3] 2 7 = .ok reserve ∧
      let s := run (step byteKeys) ⟨reserve, []⟩ reserveCalls
      (s.withdrawals.map Withdrawal.nonce, s.reserve.totalWithdrawn) = ([1], 40) ∧
        ∀ w ∈ s.withdrawals, ∃ approvers, Authorised byteKeys reserve w approvers := by
  obtain ⟨reserve, hinit, hrun⟩ := exists_ok_of_map_eq_some
    (x := EmergencyReserve.init (guardian 9) [guardian 1, guardian 2, guardian 3] 2 7)
    (f := fun reserve =>
      let s := run (step byteKeys) ⟨reserve, []⟩ reserveCalls
      (s.withdrawals.map Withdrawal.nonce, s.reserve.totalWithdrawn))
    (b := ([1], 40)) (by decide +kernel)
  exact ⟨reserve, hinit, hrun, (withdrawals_are_authorised_once byteKeys hinit reserveCalls).2.2.2.1⟩

end ReserveLedger

end SovereignNetwork.Reserve
