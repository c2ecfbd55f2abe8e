import SovereignNetwork.Execution.Bytes
import SovereignNetwork.Lib.SortedKeys

/-!
# The sweep of expired names

A name past its grace period is finalized when it is touched. The sweep touches the names that are past it in the order of
the heights at which their grace periods end, also those that are finalized already. Data of a record that no part of this
reads or writes is left out, and so is the data of a status or a class.
-/

namespace SovereignNetwork.Naming

open Lib Execution

/-! ## Records -/

inductive NameClass
  | reserved
  | commercial
  | welfareChild
  | daoPrefixed
  deriving DecidableEq

inductive NameStatus
  | active
  | suspended
  | suspendedByParent
  | revocationPending
  | revoked
  | expired
  | released
  deriving DecidableEq

inductive EffectiveStatus
  | active
  | expiredInGrace
  | revokedInGrace
  | suspended
  | returnedToGovernance
  | released
  deriving DecidableEq

def EffectiveStatus.isTerminal : EffectiveStatus → Bool
  | released | returnedToGovernance => true
  | _ => false

inductive CustodianId
  | rootGovernance
  | sectorDao (dao : Bytes 32)
  deriving DecidableEq

structure CoreNameRecord where
  owner : Bytes 32
  controller : Option (Bytes 32) := none
  classification : NameClass
  governancePointer : Option (Bytes 32) := none
  status : NameStatus := .active
  expiresAtHeight : Nat
  renewGraceUntilHeight : Nat
  revokeGraceUntilHeight : Option Nat := none
  custodian : Option CustodianId := none
  deriving DecidableEq

namespace CoreNameRecord

def terminalStatusForClass (record : CoreNameRecord) : EffectiveStatus :=
  match record.classification with
  | .commercial => .released
  | .welfareChild | .reserved | .daoPrefixed => .returnedToGovernance

def expiryStatus (record : CoreNameRecord) (height : Nat) : EffectiveStatus :=
  if height ≤ record.expiresAtHeight then .active
  else if height ≤ record.renewGraceUntilHeight then .expiredInGrace
  else record.terminalStatusForClass

def effectiveStatus (record : CoreNameRecord) (height : Nat) : EffectiveStatus :=
  match record.status, record.custodian, record.revokeGraceUntilHeight with
  | .released, _, _ => .released
  | .revoked, some _, _ => .returnedToGovernance
  | .revocationPending, _, some graceUntil =>
    if height ≤ graceUntil then .revokedInGrace else record.terminalStatusForClass
  | .suspended, _, _ | .suspendedByParent, _, _ => .suspended
  | _, _, _ => record.expiryStatus height

def finalizeRelease (record : CoreNameRecord) : CoreNameRecord :=
  { record with status := .released, owner := 0, controller := none, custodian := none, governancePointer := none }

def finalizeReturnToGovernance (record : CoreNameRecord) (sectorDao : Option (Bytes 32)) : CoreNameRecord :=
  { record with
    status := .revoked
    custodian := match record.classification with
      | .welfareChild => some (.sectorDao (sectorDao.getD 0))
      | _ => some .rootGovernance }

end CoreNameRecord

structure LegacyDomainRecord where
  domain : String
  owner : String
  expiresAt : Nat

inductive CoreStoredRecord
  | v1 (legacy : LegacyDomainRecord)
  | v2 (record : CoreNameRecord)

def expirationGraceBlocks : Nat := 30 * 8600

/-- The first bytes of the owner, and zeros after them. -/
def legacyOwner (owner : String) : Bytes 32 :=
  BitVec.ofNat _ (((bytesOf owner ++ List.replicate 32 0).take 32).foldl (fun n (b : UInt8) => n * 256 + b.toNat) 0)

/-- A block takes ten seconds. -/
def migrateLegacyRecord (legacy : LegacyDomainRecord) : CoreNameRecord where
  owner := legacyOwner legacy.owner
  classification := .commercial
  expiresAtHeight := legacy.expiresAt / 10
  renewGraceUntilHeight := saturatingAddU64 (legacy.expiresAt / 10) expirationGraceBlocks

def loadRecord : CoreStoredRecord → CoreNameRecord
  | .v1 legacy => migrateLegacyRecord legacy
  | .v2 record => record

/-! ## The registry -/

abbrev RootRegistry := HashMap Hash CoreStoredRecord

namespace RootRegistry

def getRecord (s : RootRegistry) (nameHash : Hash) : Option CoreNameRecord := (s.lookup nameHash).map loadRecord

/-- The transition that is due at the height is stored. There is no record of a name that is released. -/
def touch (s : RootRegistry) (nameHash : Hash) (height : Nat) : Option CoreNameRecord × RootRegistry :=
  match s.getRecord nameHash with
  | none => (none, s)
  | some record =>
    match record.effectiveStatus height with
    | .released => (none, AList.insert nameHash (.v2 record.finalizeRelease) s)
    | .returnedToGovernance =>
      let returned := record.finalizeReturnToGovernance record.governancePointer
      (some returned, AList.insert nameHash (.v2 returned) s)
    | _ => (some record, s)

/-- The names past their grace period with the height at which it ended. `order` is the order in which the map is read. -/
def candidates (s : RootRegistry) (height : Nat) (order : List Hash) : List (Hash × Nat) :=
  order.filterMap fun nameHash => (s.getRecord nameHash).bind fun record =>
    if (record.effectiveStatus height).isTerminal then some (nameHash, record.renewGraceUntilHeight) else none

/-- The sort keeps the order of names whose grace periods end together. -/
def sweepExpired (s : RootRegistry) (height limit : Nat) (order : List Hash) : Nat × RootRegistry :=
  let due := ((s.candidates height order).insertionSort fun a b => a.2 ≤ b.2).take limit
  due.foldl (fun acc candidate => (acc.1 + 1, (touch acc.2 candidate.1 height).2)) (0, s)

end RootRegistry

/-! ## What a touch does -/

namespace CoreNameRecord

def isFinalized (record : CoreNameRecord) : Bool :=
  record.status = .released || record.status = .revoked && record.custodian.isSome

def touched (record : CoreNameRecord) (height : Nat) : CoreNameRecord :=
  match record.effectiveStatus height with
  | .released => record.finalizeRelease
  | .returnedToGovernance => record.finalizeReturnToGovernance record.governancePointer
  | _ => record

theorem isFinalized_touched {record : CoreNameRecord} {height : Nat}
    (h : (record.effectiveStatus height).isTerminal = true) : (record.touched height).isFinalized = true := by
  unfold touched
  cases hstatus : record.effectiveStatus height <;> rw [hstatus] at h
  case released => rfl
  case returnedToGovernance =>
    unfold finalizeReturnToGovernance isFinalized
    cases record.classification <;> rfl
  all_goals cases h

end CoreNameRecord

namespace RootRegistry

variable {s : RootRegistry} {height limit : Nat} {order : List Hash} {name : Hash}

theorem getRecord_insert (s : RootRegistry) (nameHash : Hash) (record : CoreNameRecord) (name : Hash) :
    getRecord (AList.insert nameHash (.v2 record) s) name = if name = nameHash then some record else s.getRecord name := by
  rw [getRecord, HashMap.lookup_insert_eq_ite]
  split <;> rfl

theorem getRecord_touch (s : RootRegistry) (nameHash : Hash) (height : Nat) (name : Hash) :
    getRecord (s.touch nameHash height).2 name =
      if name = nameHash then (s.getRecord name).map (·.touched height) else s.getRecord name := by
  have hsame : ∀ record, s.getRecord nameHash = some record →
      s.getRecord name = if name = nameHash then some record else s.getRecord name := by
    intro record hrecord
    split
    · next heq => rw [heq, hrecord]
    · rfl
  unfold touch
  cases hrecord : s.getRecord nameHash with
  | none => split <;> simp_all
  | some record =>
    have htouched : (if name = nameHash then (s.getRecord name).map (·.touched height) else s.getRecord name) =
        if name = nameHash then some (record.touched height) else s.getRecord name := by
      split
      · next heq => rw [heq, hrecord, Option.map_some]
      · rfl
    rw [htouched, CoreNameRecord.touched]
    dsimp only
    cases record.effectiveStatus height
    case released => exact getRecord_insert _ _ _ _
    case returnedToGovernance => exact getRecord_insert _ _ _ _
    all_goals exact hsame record hrecord

theorem foldl_touch (height : Nat) (due : List (Hash × Nat)) (hnodup : (due.map Prod.fst).Nodup)
    (acc : Nat × RootRegistry) :
    let swept := due.foldl (fun acc candidate => (acc.1 + 1, (touch acc.2 candidate.1 height).2)) acc
    swept.1 = acc.1 + due.length ∧ ∀ name, getRecord swept.2 name =
      if name ∈ due.map Prod.fst then (getRecord acc.2 name).map (·.touched height) else getRecord acc.2 name := by
  induction due generalizing acc with
  | nil => simp
  | cons candidate due ih =>
    rw [List.map_cons, List.nodup_cons] at hnodup
    obtain ⟨hcount, hrecords⟩ := ih hnodup.2 (acc.1 + 1, (touch acc.2 candidate.1 height).2)
    refine ⟨by rw [List.foldl_cons, hcount, List.length_cons]; omega, fun name => ?_⟩
    rw [List.foldl_cons, hrecords, getRecord_touch]
    by_cases hname : name = candidate.1
    · subst hname
      simp [hnodup.1]
    · have hmem : name ∈ (candidate :: due).map Prod.fst ↔ name ∈ due.map Prod.fst := by simp [hname]
      rw [if_neg hname, if_congr hmem rfl rfl]

/-! ## Names that are due -/

def isDue (s : RootRegistry) (height : Nat) (name : Hash) : Bool :=
  (s.getRecord name).any fun record => (record.effectiveStatus height).isTerminal

def isFinal (s : RootRegistry) (name : Hash) : Bool := (s.getRecord name).any (·.isFinalized)

/-- The names past their grace period that are not finalized. -/
def pending (s : RootRegistry) (height : Nat) : List Hash :=
  s.keys.filter fun name => s.isDue height name && !s.isFinal name

def graceEnd (s : RootRegistry) (name : Hash) : Nat := ((s.getRecord name).map (·.renewGraceUntilHeight)).getD 0

def due (s : RootRegistry) (height limit : Nat) (order : List Hash) : List Hash :=
  ((order.filter (s.isDue height)).insertionSort fun a b => s.graceEnd a ≤ s.graceEnd b).take limit

theorem candidates_eq (s : RootRegistry) (height : Nat) (order : List Hash) :
    s.candidates height order = (order.filter (s.isDue height)).map fun name => (name, s.graceEnd name) := by
  induction order with
  | nil => rfl
  | cons name order ih =>
    unfold candidates at ih ⊢
    rw [List.filterMap_cons, List.filter_cons, isDue]
    cases hrecord : s.getRecord name with
    | none => exact ih
    | some record =>
      cases hterminal : (record.effectiveStatus height).isTerminal with
      | false => simpa [hterminal] using ih
      | true => simpa [hterminal, graceEnd, hrecord] using ih

theorem mem_keys_of_isDue (h : s.isDue height name = true) : name ∈ s.keys := by
  by_contra hnot
  rw [isDue, getRecord, AList.lookup_eq_none.mpr hnot] at h
  cases h

theorem isDue_of_isFinal (h : s.isFinal name = true) : s.isDue height name = true := by
  unfold isFinal at h
  unfold isDue
  cases hrecord : s.getRecord name with
  | none => rw [hrecord] at h; cases h
  | some record =>
    rw [hrecord, Option.any_some] at h
    rw [Option.any_some]
    obtain ⟨owner, controller, class', pointer, status, expires, renew, revoke, custodian⟩ := record
    cases status <;> cases custodian <;> first | rfl | cases h

theorem mem_pending : name ∈ s.pending height ↔ s.isDue height name = true ∧ s.isFinal name = false := by
  rw [pending, List.mem_filter, Bool.and_eq_true, Bool.not_eq_true']
  exact and_iff_right_of_imp fun h => mem_keys_of_isDue h.1

theorem nodup_pending (s : RootRegistry) (height : Nat) : (s.pending height).Nodup := (AList.keys_nodup s).filter _

theorem isDue_of_mem_due (h : name ∈ s.due height limit order) : s.isDue height name = true :=
  (List.mem_filter.mp ((List.mem_insertionSort _).mp (List.mem_of_mem_take h))).2

theorem nodup_due (horder : order.Perm s.keys) : (s.due height limit order).Nodup := by
  refine List.Nodup.sublist (List.take_sublist _ _) ((List.perm_insertionSort _ _).nodup_iff.mpr ?_)
  exact (horder.nodup_iff.mpr (AList.keys_nodup s)).filter _

theorem countP_pending_le (height : Nat) (horder : order.Perm s.keys) (p : Hash → Bool) :
    (s.pending height).countP p ≤ (order.filter (s.isDue height)).countP p := by
  rw [(horder.filter _).countP_eq, pending, List.countP_filter, List.countP_filter]
  refine List.countP_mono_left fun name _ h => ?_
  simp only [Bool.and_eq_true] at h ⊢
  exact ⟨h.1, h.2.1⟩

theorem sweepExpired_spec (height limit : Nat) (horder : order.Perm s.keys) :
    (s.sweepExpired height limit order).1 = (s.due height limit order).length ∧
      ∀ name, getRecord (s.sweepExpired height limit order).2 name =
        if name ∈ s.due height limit order then (s.getRecord name).map (·.touched height) else s.getRecord name := by
  have hsort := List.map_insertionSort (fun a b => s.graceEnd a ≤ s.graceEnd b) (fun a b : Hash × Nat => a.2 ≤ b.2)
    (fun name => (name, s.graceEnd name)) (order.filter (s.isDue height)) fun _ _ _ _ => Iff.rfl
  have hnames : ((s.due height limit order).map fun name => (name, s.graceEnd name)).map Prod.fst =
      s.due height limit order := by
    rw [List.map_map]
    exact List.map_id _
  have hspec := foldl_touch height _ (hnames.symm ▸ nodup_due horder) (0, s)
  rw [hnames, List.length_map, Nat.zero_add] at hspec
  rw [sweepExpired, candidates_eq, ← hsort, ← List.map_take]
  exact hspec

theorem isFinal_of_mem_due (horder : order.Perm s.keys) (h : name ∈ s.due height limit order) :
    isFinal (s.sweepExpired height limit order).2 name = true := by
  have hdue := isDue_of_mem_due h
  rw [isFinal, (sweepExpired_spec _ _ horder).2, if_pos h]
  unfold isDue at hdue
  cases hrecord : s.getRecord name with
  | none => rw [hrecord] at hdue; cases hdue
  | some record =>
    rw [hrecord, Option.any_some] at hdue
    exact CoreNameRecord.isFinalized_touched hdue

/-! ## What a sweep has to do -/

/-- The limit does not fall among names whose grace periods ended together, and as many pending names as it says come
before the first finalized one. -/
structure Clear (s : RootRegistry) (height limit : Nat) : Prop where
  finalized : ∀ name ∈ s.keys, s.isFinal name = true →
    limit ≤ (s.pending height).countP fun earlier => s.graceEnd earlier < s.graceEnd name
  pending : ∀ name ∈ s.pending height,
    ((s.pending height).countP fun other => s.graceEnd other ≤ s.graceEnd name) ≤ limit ∨
      limit ≤ (s.pending height).countP fun earlier => s.graceEnd earlier < s.graceEnd name

/-- The sweep finalizes the pending names whose grace periods ended first, as many as the limit allows. -/
structure FinalizesFirst (s : RootRegistry) (height limit : Nat) (order swept : List Hash) : Prop where
  nodup : swept.Nodup
  length : swept.length = min limit (s.pending height).length
  count : (s.sweepExpired height limit order).1 = swept.length
  ascending : swept.Pairwise (s.graceEnd · ≤ s.graceEnd ·)
  finalized : ∀ name ∈ swept, name ∈ s.pending height ∧ isFinal (s.sweepExpired height limit order).2 name = true
  first : ∀ name ∈ s.pending height, name ∉ swept → ∀ earlier ∈ swept, s.graceEnd earlier ≤ s.graceEnd name
  kept : ∀ name ∉ swept, getRecord (s.sweepExpired height limit order).2 name = s.getRecord name

theorem Clear.mem_due_iff (h : s.Clear height limit) (horder : order.Perm s.keys) :
    name ∈ s.due height limit order ↔ name ∈ s.pending height ∧
      ((s.pending height).countP fun other => s.graceEnd other ≤ s.graceEnd name) ≤ limit := by
  have hpending : ∀ name ∈ s.due height limit order, name ∈ s.pending height ∧
      ((s.pending height).countP fun other => s.graceEnd other ≤ s.graceEnd name) ≤ limit := by
    intro name hname
    have hdue := isDue_of_mem_due hname
    have hlt := (countP_pending_le _ horder _).trans_lt (countP_lt_of_mem_take hname)
    have hfresh : s.isFinal name = false :=
      Bool.eq_false_iff.mpr fun hfinal => Nat.not_le.mpr hlt (h.finalized name (mem_keys_of_isDue hdue) hfinal)
    have hmem := mem_pending.mpr ⟨hdue, hfresh⟩
    exact ⟨hmem, (h.pending name hmem).resolve_right (Nat.not_le.mpr hlt)⟩
  refine ⟨hpending name, fun ⟨hmem, hle⟩ => ?_⟩
  by_contra hnot
  have hin : name ∈ order.filter (s.isDue height) :=
    List.mem_filter.mpr ⟨horder.mem_iff.mpr (mem_keys_of_isDue (mem_pending.mp hmem).1), (mem_pending.mp hmem).1⟩
  obtain ⟨hfull, hearlier⟩ := le_of_notMem_take hin hnot
  -- the touched names and this one are all among those that the limit covers
  have hsub : name :: s.due height limit order ⊆ (s.pending height).filter (s.graceEnd · ≤ s.graceEnd name) := by
    intro other hother
    rcases List.mem_cons.mp hother with rfl | hother
    · exact List.mem_filter.mpr ⟨hmem, decide_eq_true (Nat.le_refl _)⟩
    · exact List.mem_filter.mpr ⟨(hpending other hother).1, decide_eq_true (hearlier other hother)⟩
  have hlength := (List.subperm_of_subset (List.nodup_cons.mpr ⟨hnot, nodup_due horder⟩) hsub).length_le
  rw [← List.countP_eq_length_filter, List.length_cons] at hlength
  have hfull : (s.due height limit order).length = limit := hfull
  omega

theorem Clear.finalizesFirst (h : s.Clear height limit) (horder : order.Perm s.keys) :
    FinalizesFirst s height limit order (s.due height limit order) := by
  obtain ⟨hcount, hrecords⟩ := sweepExpired_spec height limit horder
  have hpending : ∀ name ∈ s.due height limit order, name ∈ s.pending height :=
    fun _ hname => ((h.mem_due_iff horder).mp hname).1
  have hall : (s.pending height).length ≤ (order.filter (s.isDue height)).length := by
    have hle := countP_pending_le height horder fun _ => true
    rwa [List.countP_true] at hle
  refine ⟨nodup_due horder, ?_, hcount, ?_, fun name hname => ⟨hpending name hname, isFinal_of_mem_due horder hname⟩, ?_, ?_⟩
  · have hle := (List.subperm_of_subset (nodup_due horder) hpending).length_le
    have hlength : (s.due height limit order).length = min limit (order.filter (s.isDue height)).length := by
      rw [due, List.length_take, List.length_insertionSort]
    omega
  · exact (pairwise_insertionSort_key s.graceEnd _).sublist (List.take_sublist _ _)
  · intro name hname hnot
    refine (le_of_notMem_take ?_ hnot).2
    have hdue := (mem_pending.mp hname).1
    exact List.mem_filter.mpr ⟨horder.mem_iff.mpr (mem_keys_of_isDue hdue), hdue⟩
  · intro name hname
    rw [hrecords, if_neg hname]

theorem FinalizesFirst.pending_of_mem_due {swept : List Hash} (h : FinalizesFirst s height limit order swept)
    (horder : order.Perm s.keys) : ∀ name ∈ s.due height limit order, name ∈ s.pending height := by
  obtain ⟨hcount, hrecords⟩ := sweepExpired_spec height limit horder
  have hsub : swept ⊆ s.due height limit order := by
    intro name hname
    obtain ⟨hpending, hfinal⟩ := h.finalized name hname
    by_contra hnot
    rw [isFinal, hrecords, if_neg hnot, ← isFinal, (mem_pending.mp hpending).2] at hfinal
    cases hfinal
  have hperm := (List.subperm_of_subset h.nodup hsub).perm_of_length_le (by rw [← hcount, h.count])
  exact fun name hname => (h.finalized name (hperm.mem_iff.mpr hname)).1

theorem mem_due_or_le {rest : List Hash} (hpending : ∀ other ∈ s.due height limit (name :: rest), other ∈ s.pending height)
    (horder : (name :: rest).Perm s.keys) (hdue : s.isDue height name = true) :
    name ∈ s.due height limit (name :: rest) ∨
      limit ≤ (s.pending height).countP fun earlier => s.graceEnd earlier < s.graceEnd name := by
  refine or_iff_not_imp_left.mpr fun hnot => ?_
  have heq : s.due height limit (name :: rest) =
      ((name :: rest.filter (s.isDue height)).insertionSort fun a b => s.graceEnd a ≤ s.graceEnd b).take limit := by
    rw [due, List.filter_cons, if_pos hdue]
  obtain ⟨hfull, hearlier⟩ := lt_of_notMem_take_cons (heq ▸ hnot)
  rw [← heq] at hfull hearlier
  have hsub : s.due height limit (name :: rest) ⊆ (s.pending height).filter (s.graceEnd · < s.graceEnd name) :=
    fun other hother => List.mem_filter.mpr ⟨hpending other hother, decide_eq_true (hearlier other hother)⟩
  have hlength := (List.subperm_of_subset (nodup_due horder) hsub).length_le
  rwa [hfull, ← List.countP_eq_length_filter] at hlength

theorem clear_of_finalizesFirst
    (hfirst : ∀ order, order.Perm s.keys → ∃ swept, FinalizesFirst s height limit order swept)
    (hsame : ∀ order, order.Perm s.keys → ∀ name, getRecord (s.sweepExpired height limit s.keys).2 name =
      getRecord (s.sweepExpired height limit order).2 name) : s.Clear height limit := by
  have hpending : ∀ order, order.Perm s.keys → ∀ name ∈ s.due height limit order, name ∈ s.pending height := by
    intro order horder
    obtain ⟨swept, hswept⟩ := hfirst order horder
    exact hswept.pending_of_mem_due horder
  have hcases : ∀ name ∈ s.keys, s.isDue height name = true → name ∈ s.due height limit (name :: s.keys.erase name) ∨
      limit ≤ (s.pending height).countP fun earlier => s.graceEnd earlier < s.graceEnd name := by
    intro name hkey hdue
    have horder := (List.perm_cons_erase hkey).symm
    exact mem_due_or_le (hpending _ horder) horder hdue
  refine ⟨fun name hkey hfinal => ?_, fun name hname => or_iff_not_imp_right.mpr fun hlt => ?_⟩
  · refine (hcases name hkey (isDue_of_isFinal hfinal)).resolve_left fun hmem => ?_
    have hfresh := (mem_pending.mp (hpending _ (List.perm_cons_erase hkey).symm name hmem)).2
    rw [hfinal] at hfresh
    cases hfresh
  · -- each name that ended no later is finalized where it is read first, so it is finalized
    have hsub : (s.pending height).filter (s.graceEnd · ≤ s.graceEnd name) ⊆ s.due height limit s.keys := by
      intro other hother
      obtain ⟨hother, hle⟩ := List.mem_filter.mp hother
      have hdue := (mem_pending.mp hother).1
      have hkey := mem_keys_of_isDue hdue
      have horder := (List.perm_cons_erase hkey).symm
      have hmem := (hcases other hkey hdue).resolve_right fun hlimit => hlt (hlimit.trans ?_)
      · have hfinal := isFinal_of_mem_due horder hmem
        rw [isFinal, ← hsame _ horder, (sweepExpired_spec _ _ (List.Perm.refl _)).2] at hfinal
        by_contra hnot
        rw [if_neg hnot, ← isFinal, (mem_pending.mp hother).2] at hfinal
        cases hfinal
      · refine List.countP_mono_left fun earlier _ hearlier => ?_
        exact decide_eq_true ((of_decide_eq_true hearlier).trans_le (of_decide_eq_true hle))
    have hlength := (List.subperm_of_subset ((nodup_pending s height).filter _) hsub).length_le
    rw [← List.countP_eq_length_filter] at hlength
    exact hlength.trans (List.length_take_le _ _)

/-- The sweep finalizes the names whose grace periods ended first and does not depend on the order in which the map is read,
just if no finalized name is in the way and the limit does not fall among names that ended together. -/
theorem sweepExpired_finalizes_first (s : RootRegistry) (height limit : Nat) :
    (∀ order, order.Perm s.keys → (∃ swept, FinalizesFirst s height limit order swept) ∧
      ∀ order', order'.Perm s.keys → ∀ name, getRecord (s.sweepExpired height limit order').2 name =
        getRecord (s.sweepExpired height limit order).2 name) ↔ s.Clear height limit := by
  refine ⟨fun h => ?_, fun h order horder => ⟨⟨_, h.finalizesFirst horder⟩, fun order' horder' name => ?_⟩⟩
  · exact clear_of_finalizesFirst (fun order horder => (h order horder).1)
      fun order horder => (h order horder).2 s.keys (List.Perm.refl _)
  · have hmem : name ∈ s.due height limit order' ↔ name ∈ s.due height limit order := by
      rw [h.mem_due_iff horder, h.mem_due_iff horder']
    rw [(sweepExpired_spec _ _ horder').2, (sweepExpired_spec _ _ horder).2, if_congr hmem rfl rfl]

/-! ## Sweeps that make no progress -/

def twoNames (graceEnd graceEnd' : Nat) : RootRegistry :=
  AList.insert 1 (.v2 { owner := 7, classification := .commercial, expiresAtHeight := 5, renewGraceUntilHeight := graceEnd })
    (AList.insert 2
      (.v2 { owner := 7, classification := .commercial, expiresAtHeight := 5, renewGraceUntilHeight := graceEnd' }) ∅)

instance (s : RootRegistry) (height limit : Nat) : Decidable (s.Clear height limit) :=
  @decidable_of_iff _ (_ ∧ _) ⟨fun h => ⟨h.1, h.2⟩, fun h => ⟨h.1, h.2⟩⟩
    (@instDecidableAnd _ _ (List.decidableBAll _ _) (List.decidableBAll _ _))

/-- Of two names that ended apart one is swept, and of two that ended together both. -/
theorem sweepExpired_of_two_names :
    ((∃ swept, FinalizesFirst (twoNames 10 20) 100 1 [1, 2] swept) ∧
      ∀ name, getRecord (sweepExpired (twoNames 10 20) 100 1 [2, 1]).2 name =
        getRecord (sweepExpired (twoNames 10 20) 100 1 [1, 2]).2 name) ∧
    ∃ swept, FinalizesFirst (twoNames 10 10) 100 2 [2, 1] swept := by
  have hapart := (sweepExpired_finalizes_first (twoNames 10 20) 100 1).mpr (by decide +kernel) [1, 2] (by decide)
  exact ⟨⟨hapart.1, hapart.2 [2, 1] (by decide)⟩,
    ((sweepExpired_finalizes_first (twoNames 10 10) 100 2).mpr (by decide +kernel) [2, 1] (by decide)).1⟩

/-- A second sweep touches the name that the first one finalized and reports it again. Which of two names with one height is
swept first depends on the order in which the map is read. -/
theorem sweepExpired_stalls :
    let s := (sweepExpired (twoNames 10 20) 100 1 [1, 2]).2
    (s.pending 100 = [2] ∧ (s.sweepExpired 100 1 [1, 2]).1 = 1 ∧ pending (s.sweepExpired 100 1 [1, 2]).2 100 = [2]) ∧
      pending (sweepExpired (twoNames 10 10) 100 1 [1, 2]).2 100 = [2] ∧
      pending (sweepExpired (twoNames 10 10) 100 1 [2, 1]).2 100 = [1] := by
  decide

end RootRegistry

end SovereignNetwork.Naming
