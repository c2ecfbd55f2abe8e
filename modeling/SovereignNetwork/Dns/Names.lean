import Mathlib.Data.Fintype.Pigeonhole
import Mathlib.Data.Fintype.Card
import SovereignNetwork.Execution.Bytes
import SovereignNetwork.Lib.Loop

/-!
# Domain names in a buffer

A name is a sequence of labels. In a buffer a label has its length before it, and a length byte of `0xC0` or more starts
a pointer to another position.
-/

namespace SovereignNetwork.Dns

open Lib
open Execution (bytesOf bytesOf_inj byteArray_toList_loop)

/-! ## Labels -/

/-- `split('.')`. -/
def labels (fqdn : String) : List String := (fqdn.toList.splitOn '.').map String.ofList

/-- `join(".")`. -/
def joinDot (parts : List String) : String := String.ofList (['.'].intercalate (parts.map String.toList))

theorem joinDot_labels (fqdn : String) : joinDot (labels fqdn) = fqdn := by
  have hparts : (labels fqdn).map String.toList = fqdn.toList.splitOn '.' := by
    simp [labels, Function.comp_def]
  rw [joinDot, hparts, List.intercalate_splitOn, String.ofList_toList]

/-- `from_utf8`. -/
def fromUtf8 (bytes : List UInt8) : Option String := String.fromUTF8? ⟨bytes.toArray⟩

theorem fromUtf8_bytesOf (text : String) : fromUtf8 (bytesOf text) = some text := by
  have hbytes : (⟨(bytesOf text).toArray⟩ : ByteArray) = text.toUTF8 := by
    unfold bytesOf ByteArray.toList
    rw [byteArray_toList_loop]
    simp
  rw [fromUtf8, hbytes]
  simpa [String.fromUTF8?] using ⟨text.isValidUTF8, rfl⟩

/-! ## Packing -/

def packLabel (label : String) : List UInt8 := UInt8.ofNat (bytesOf label).length :: bytesOf label

/-- `none` where the assertion on the length of a label fails. -/
def packFqdn (fqdn : String) : Option (List UInt8) :=
  if fqdn = "" then some [0]
  else if ∀ label ∈ labels fqdn, (bytesOf label).length ≤ 63 then some ((labels fqdn).flatMap packLabel ++ [0])
  else none

/-! ## Unpacking -/

structure Unpacking where
  pos : Nat
  jumped : Bool
  originalPos : Nat
  builder : List String
  deriving DecidableEq

def Unpacking.finish (off : Nat) (s : Unpacking) : String × Nat :=
  (joinDot s.builder, (if s.jumped then s.originalPos else s.pos) - off)

/-- Where a pointer with these two bytes leads. -/
def pointerTarget (high low : UInt8) : Nat := (high.toNat &&& 0x3F) <<< 8 ||| low.toNat

def unpackTurn (buf : List UInt8) (off : Nat) (s : Unpacking) : Turn Unpacking (String × Nat) :=
  match buf[s.pos]? with
  | none => .done (s.finish off)
  | some byte =>
    if byte.toNat = 0 then .done ({ s with pos := s.pos + 1 } |>.finish off)
    else if byte.toNat &&& 0xC0 = 0xC0 then
      match buf[s.pos + 1]? with
      | none => .done ({ s with pos := s.pos + 1 } |>.finish off)
      | some low =>
        .next { s with
          pos := pointerTarget byte low
          jumped := true
          originalPos := if s.jumped then s.originalPos else s.pos + 2 }
    else if buf.length < s.pos + 1 + byte.toNat then .done ({ s with pos := s.pos + 1 } |>.finish off)
    else
      match fromUtf8 ((buf.drop (s.pos + 1)).take byte.toNat) with
      | none => .panic
      | some label => .next { s with pos := s.pos + 1 + byte.toNat, builder := s.builder ++ [label] }

def unpackFqdn (buf : List UInt8) (off turns : Nat) : Outcome (String × Nat) :=
  loop (unpackTurn buf off) turns ⟨off, false, off, []⟩

/-! ## Positions -/

/-- Where reading goes on after a position, if it does. -/
def nextPos (buf : List UInt8) (pos : Nat) : Option Nat :=
  match buf[pos]? with
  | none => none
  | some byte =>
    if byte.toNat = 0 then none
    else if byte.toNat &&& 0xC0 = 0xC0 then (buf[pos + 1]?).map (pointerTarget byte)
    else if buf.length < pos + 1 + byte.toNat then none
    else some (pos + 1 + byte.toNat)

/-- The position after `n` labels and pointers. -/
def visited (buf : List UInt8) : Nat → Nat → Option Nat
  | 0, pos => some pos
  | n + 1, pos => (nextPos buf pos).bind (visited buf n)

/-- The bytes of the label at a position, if one is read there. -/
def labelAt (buf : List UInt8) (pos : Nat) : Option (List UInt8) :=
  match buf[pos]? with
  | none => none
  | some byte =>
    if byte.toNat = 0 then none
    else if byte.toNat &&& 0xC0 = 0xC0 then none
    else if buf.length < pos + 1 + byte.toNat then none
    else some ((buf.drop (pos + 1)).take byte.toNat)

def IsText (buf : List UInt8) (pos : Nat) : Prop := ∀ label, labelAt buf pos = some label → (fromUtf8 label).isSome

/-- No position is visited twice, and the labels there are texts. -/
structure Readable (buf : List UInt8) (off : Nat) : Prop where
  once : ∀ m n pos, m < n → visited buf m off = some pos → visited buf n off ≠ some pos
  text : ∀ n pos, visited buf n off = some pos → IsText buf pos

variable {buf : List UInt8} {off pos n m : Nat} {s s' : Unpacking}

theorem visited_add (buf : List UInt8) (m n pos : Nat) :
    visited buf (m + n) pos = (visited buf m pos).bind (visited buf n) := by
  induction m generalizing pos with
  | zero => simp [visited]
  | succ m ih =>
    rw [Nat.succ_add, visited, visited, Option.bind_assoc]
    exact congrArg _ (funext ih)

theorem lt_length_of_nextPos {pos' : Nat} (h : nextPos buf pos = some pos') : pos < buf.length := by
  by_contra hge
  rw [nextPos, List.getElem?_eq_none (Nat.not_lt.mp hge)] at h
  cases h

theorem unpackTurn_cases (buf : List UInt8) (off : Nat) (s : Unpacking) :
    (∃ result, unpackTurn buf off s = .done result ∧ nextPos buf s.pos = none ∧ IsText buf s.pos) ∨
    (unpackTurn buf off s = .panic ∧ ¬ IsText buf s.pos) ∨
    ∃ s', unpackTurn buf off s = .next s' ∧ nextPos buf s.pos = some s'.pos ∧ IsText buf s.pos := by
  unfold unpackTurn nextPos IsText labelAt
  cases buf[s.pos]? with
  | none => exact .inl ⟨_, rfl, rfl, nofun⟩
  | some byte =>
    dsimp only
    by_cases hzero : byte.toNat = 0
    · simp [hzero]
    · by_cases hptr : byte.toNat &&& 0xC0 = 0xC0
      · cases buf[s.pos + 1]? <;> simp [hzero, hptr]
      · by_cases hroom : buf.length < s.pos + 1 + byte.toNat
        · simp [hzero, hptr, hroom]
        · cases htext : fromUtf8 ((buf.drop (s.pos + 1)).take byte.toNat) <;> simp [hzero, hptr, hroom, htext]

theorem visited_of_reached (h : reached (unpackTurn buf off) n s = some s') : visited buf n s.pos = some s'.pos := by
  induction n generalizing s with
  | zero =>
    cases h
    rfl
  | succ n ih =>
    rw [reached] at h
    rcases unpackTurn_cases buf off s with ⟨_, hturn, -⟩ | ⟨hturn, -⟩ | ⟨next, hturn, hnext, -⟩
    · rw [hturn] at h
      cases h
    · rw [hturn] at h
      cases h
    · rw [hturn] at h
      rw [visited, hnext]
      exact ih h

theorem Readable.unpackFqdn_ends (h : Readable buf off) : ∃ result, unpackFqdn buf off (buf.length + 1) = .done result := by
  cases hloop : unpackFqdn buf off (buf.length + 1) with
  | done result => exact ⟨result, rfl⟩
  | panic =>
    obtain ⟨m, s, hreached, hpanic⟩ := exists_reached_of_panic hloop
    have htext := h.text m _ (visited_of_reached hreached)
    rcases unpackTurn_cases buf off s with ⟨_, hturn, -⟩ | ⟨-, hno⟩ | ⟨_, hturn, -⟩
    · cases hpanic.symm.trans hturn
    · exact absurd htext hno
    · cases hpanic.symm.trans hturn
  | running =>
    -- more positions than the buffer has
    obtain ⟨s, hreached⟩ := exists_reached_of_running hloop
    have hvisited := visited_of_reached hreached
    have hbefore (i : Fin (buf.length + 1)) : ∃ pos : Fin buf.length, visited buf i off = some pos.1 := by
      have hadd := visited_add buf i (buf.length + 1 - i - 1 + 1) off
      rw [show i.1 + (buf.length + 1 - i - 1 + 1) = buf.length + 1 by omega, hvisited] at hadd
      obtain ⟨pos, hpos, hrest⟩ := Option.bind_eq_some_iff.mp hadd.symm
      obtain ⟨pos', hnext, -⟩ := Option.bind_eq_some_iff.mp hrest
      exact ⟨⟨pos, lt_length_of_nextPos hnext⟩, hpos⟩
    choose place hplace using hbefore
    obtain ⟨i, j, hne, heq⟩ := Fintype.exists_ne_map_eq_of_card_lt place (by simp)
    rcases Nat.lt_or_gt_of_ne (Fin.val_ne_of_ne hne) with hlt | hlt
    · exact absurd (heq ▸ hplace j) (h.once i j _ hlt (hplace i))
    · exact absurd (heq.symm ▸ hplace i) (h.once j i _ hlt (hplace j))

theorem passed_of_done {turns : Nat} {result : String × Nat} (h : loop (unpackTurn buf off) turns s = .done result)
    (hvisited : visited buf n s.pos = some pos) : n < turns ∧ IsText buf pos := by
  induction turns generalizing n s with
  | zero => cases h
  | succ turns ih =>
    rw [loop] at h
    rcases unpackTurn_cases buf off s with ⟨_, hturn, hnone, htext⟩ | ⟨hturn, -⟩ | ⟨s', hturn, hnext, htext⟩
    · cases n with
      | zero =>
        cases hvisited
        exact ⟨Nat.succ_pos _, htext⟩
      | succ n =>
        rw [visited, hnone] at hvisited
        cases hvisited
    · rw [hturn] at h
      cases h
    · cases n with
      | zero =>
        cases hvisited
        exact ⟨Nat.succ_pos _, htext⟩
      | succ n =>
        rw [hturn] at h
        rw [visited, hnext] at hvisited
        obtain ⟨hlt, htext⟩ := ih h hvisited
        exact ⟨Nat.succ_lt_succ hlt, htext⟩

theorem visited_ne_none_of_twice (hlt : m < n) (hm : visited buf m off = some pos) (hn : visited buf n off = some pos)
    (k : Nat) : visited buf k off ≠ none := by
  induction k using Nat.strongRecOn with
  | _ k ih =>
    intro hnone
    rcases Nat.le_total k n with hle | hle
    · rw [← Nat.add_sub_cancel' hle, visited_add, hnone] at hn
      cases hn
    · -- the steps after the second visit are those after the first
      refine ih (m + (k - n)) (by omega) ?_
      rw [visited_add, hm, ← hn, ← visited_add, Nat.add_sub_cancel' hle]
      exact hnone

theorem unpackFqdn_ends_iff (buf : List UInt8) (off : Nat) :
    (∃ turns result, unpackFqdn buf off turns = .done result) ↔ Readable buf off := by
  constructor
  · rintro ⟨turns, result, hdone⟩
    refine ⟨fun m n pos hlt hm hn => ?_, fun n pos hvisited => (passed_of_done hdone hvisited).2⟩
    obtain ⟨pos', hpos'⟩ := Option.ne_none_iff_exists'.mp (visited_ne_none_of_twice hlt hm hn turns)
    exact Nat.lt_irrefl _ (passed_of_done hdone hpos').1
  · exact fun h => ⟨buf.length + 1, h.unpackFqdn_ends⟩

/-! ## Round trip -/

/-- A label that can be packed and is not taken for the end. -/
def LabelOk (label : String) : Prop := label ≠ "" ∧ (bytesOf label).length ≤ 63

instance (label : String) : Decidable (LabelOk label) := inferInstanceAs (Decidable (_ ∧ _))

theorem LabelOk.length_pos {label : String} (h : LabelOk label) : 0 < (bytesOf label).length := by
  refine List.length_pos_iff.mpr fun hnil => h.1 (bytesOf_inj (hnil.trans ?_))
  decide +kernel

theorem not_pointer_of_lt {length : Nat} (h : length < 64) : length &&& 0xC0 ≠ 0xC0 := by
  have hall : ∀ i : Fin 64, i.1 &&& 0xC0 ≠ 0xC0 := by decide
  exact hall ⟨length, h⟩

theorem unpackTurn_label {pre : List UInt8} {label : String} (off : Nat) (rest : List UInt8) (hpos : s.pos = pre.length)
    (hlabel : LabelOk label) :
    unpackTurn (pre ++ (packLabel label ++ rest)) off s =
      .next { s with pos := (pre ++ packLabel label).length, builder := s.builder ++ [label] } := by
  have hlength : (bytesOf label).length % 256 = (bytesOf label).length := Nat.mod_eq_of_lt (by have := hlabel.2; omega)
  have hfirst : (pre ++ (packLabel label ++ rest))[s.pos]? = some (UInt8.ofNat (bytesOf label).length) := by
    simp [hpos, packLabel]
  have hbytes : ((pre ++ (packLabel label ++ rest)).drop (s.pos + 1)).take (bytesOf label).length = bytesOf label := by
    rw [hpos, ← List.drop_drop, List.drop_left]
    simp [packLabel]
  have hroom : ¬ (pre ++ (packLabel label ++ rest)).length < s.pos + 1 + (bytesOf label).length := by
    simp [hpos, packLabel]
    omega
  simp only [unpackTurn, hfirst, UInt8.toNat_ofNat', hlength, hbytes, fromUtf8_bytesOf]
  rw [if_neg hlabel.length_pos.ne', if_neg (not_pointer_of_lt (Nat.lt_succ_of_le hlabel.2)), if_neg hroom]
  simp [hpos, packLabel, Nat.add_assoc, Nat.add_comm]

theorem loop_labels {pre : List UInt8} {parts : List String} (off : Nat) (rest : List UInt8) (hpos : s.pos = pre.length)
    (hjumped : s.jumped = false) (hparts : ∀ label ∈ parts, LabelOk label) :
    loop (unpackTurn (pre ++ (parts.flatMap packLabel ++ 0 :: rest)) off) (parts.length + 1) s =
      .done (joinDot (s.builder ++ parts), (pre ++ parts.flatMap packLabel).length + 1 - off) := by
  induction parts generalizing pre s with
  | nil =>
    apply loop_of_done
    simp [unpackTurn, hpos, hjumped, Unpacking.finish]
  | cons label parts ih =>
    obtain ⟨hlabel, hparts⟩ := List.forall_mem_cons.mp hparts
    have hturn := unpackTurn_label off (parts.flatMap packLabel ++ 0 :: rest) hpos hlabel
    rw [List.flatMap_cons, List.append_assoc, List.length_cons, loop_of_next hturn]
    have hnext : ({ s with pos := (pre ++ packLabel label).length, builder := s.builder ++ [label] } : Unpacking).pos =
        (pre ++ packLabel label).length := rfl
    simpa using ih hnext hjumped hparts

/-- The root, or labels that can be packed. -/
def NameOk (name : String) : Prop := name = "" ∨ ∀ label ∈ labels name, LabelOk label

theorem unpackFqdn_packFqdn {name : String} (h : NameOk name) (pre rest : List UInt8) :
    ∃ packed, packFqdn name = some packed ∧
      ∃ turns, unpackFqdn (pre ++ packed ++ rest) pre.length turns = .done (name, packed.length) := by
  have hpos : (⟨pre.length, false, pre.length, []⟩ : Unpacking).pos = pre.length := rfl
  by_cases hroot : name = ""
  · subst hroot
    refine ⟨[0], rfl, 1, ?_⟩
    have hloop := loop_labels pre.length rest hpos rfl (List.forall_mem_nil LabelOk)
    have hempty : joinDot [] = "" := by decide +kernel
    simpa [unpackFqdn, hempty] using hloop
  · have hlabels := h.resolve_left hroot
    refine ⟨(labels name).flatMap packLabel ++ [0], ?_, (labels name).length + 1, ?_⟩
    · rw [packFqdn, if_neg hroot, if_pos fun label hmem => (hlabels label hmem).2]
    · have hloop := loop_labels pre.length rest hpos rfl hlabels
      simpa [unpackFqdn, joinDot_labels, Nat.add_assoc, Nat.add_sub_cancel_left] using hloop

/-- Reading a name ends exactly where no position is visited twice and every label is a text. A packed name is read back
from wherever it stands. -/
theorem name_parsing_ends (buf pre rest : List UInt8) (off : Nat) (name : String) :
    ((∃ turns result, unpackFqdn buf off turns = .done result) ↔ Readable buf off) ∧
    (NameOk name → ∃ packed, packFqdn name = some packed ∧
      ∃ turns, unpackFqdn (pre ++ packed ++ rest) pre.length turns = .done (name, packed.length)) :=
  ⟨unpackFqdn_ends_iff buf off, fun h => unpackFqdn_packFqdn h pre rest⟩

def labelThenPointer : List UInt8 := [1, 97, 0, 0xC0, 0]

theorem readable_labelThenPointer : Readable labelThenPointer 3 where
  once m n pos hlt hm hn := by
    match n, m with
    | 1, 0 => exact absurd (hm.trans hn.symm) (by decide)
    | 2, 0 => exact absurd (hm.trans hn.symm) (by decide)
    | 2, 1 => exact absurd (hm.trans hn.symm) (by decide)
    | k + 3, _ => cases hn
  text n pos hpos := by
    match n with
    | 0 =>
      cases hpos
      rintro _ ⟨⟩
    | 1 =>
      cases hpos
      rintro _ ⟨⟩
      decide +kernel
    | 2 =>
      cases hpos
      rintro _ ⟨⟩
    | k + 3 => cases hpos

theorem name_parsing_ends_samples :
    (∃ turns result, unpackFqdn labelThenPointer 3 turns = .done result) ∧
      ∃ packed, packFqdn "www.zhtp" = some packed ∧
        ∃ turns, unpackFqdn ([7] ++ packed ++ [9]) [7].length turns = .done ("www.zhtp", packed.length) := by
  obtain ⟨hends, hread⟩ := name_parsing_ends labelThenPointer [7] [9] 3 "www.zhtp"
  exact ⟨hends.mpr readable_labelThenPointer, hread (.inr (by decide +kernel))⟩

/-- A pointer to itself is followed for ever, and a byte that is no text is a panic. -/
theorem name_parsing_stuck :
    (∀ turns, unpackFqdn [0xC0, 0] 0 turns = .running) ∧ ∀ turns, unpackFqdn [1, 0xFF] 0 (turns + 1) = .panic := by
  have hcircle (turns : Nat) (s : Unpacking) (hpos : s.pos = 0) :
      loop (unpackTurn [0xC0, 0] 0) turns s = .running := by
    induction turns generalizing s with
    | zero => rfl
    | succ turns ih =>
      have hturn : unpackTurn [0xC0, 0] 0 s = .next { s with
          pos := 0, jumped := true, originalPos := if s.jumped then s.originalPos else s.pos + 2 } := by
        rw [unpackTurn, hpos]
        rfl
      rw [loop_of_next hturn]
      exact ih _ rfl
  have hpanic : unpackTurn [1, 0xFF] 0 ⟨0, false, 0, []⟩ = .panic := by decide +kernel
  exact ⟨fun turns => hcircle turns _ rfl, fun turns => by rw [unpackFqdn, loop, hpanic]⟩

end SovereignNetwork.Dns
