import Mathlib.Data.List.DropRight
import SovereignNetwork.Blocks.LightClient
import SovereignNetwork.Lib.HashChain

/-!
# The window of headers of an edge node

Headers are added one after the other and cut off at both ends: old ones at the front when the window is full, new ones
at the back in a rollback.
-/

namespace SovereignNetwork.Blocks

open Lib Execution
open Contracts (CollisionFree)

variable {X : BlockExternals} {maxHeaders : Nat} {s : EdgeNodeState} {header : BlockHeader}

namespace EdgeNodeState

/-- The outputs of the blocks that are undone stay. -/
def rollbackToHeight (s : EdgeNodeState) (targetHeight : Nat) : Except String EdgeNodeState := do
  if targetHeight > s.currentHeight then
    throw s!"Cannot rollback to future height {targetHeight}"
  return { s with
    headers := s.headers.rdropWhile fun header => targetHeight < header.height
    currentHeight := targetHeight }

end EdgeNodeState

inductive NodeCall
  | addAddress (address : List UInt8)
  | addHeader (header : BlockHeader)
  | processBlock (block : Block)
  | rollbackToHeight (targetHeight : Nat)

/-- A call that fails leaves the node as it found it, but for a block whose header was added. -/
def nodeStep (X : BlockExternals) (s : EdgeNodeState) : NodeCall → EdgeNodeState
  | .addAddress address => s.addAddress address
  | .addHeader header => (s.addHeader X header).toOption.getD s
  | .processBlock block => (s.processBlock X block.header block.transactions).2
  | .rollbackToHeight targetHeight => (s.rollbackToHeight targetHeight).toOption.getD s

def Follows (latest header : BlockHeader) : Prop :=
  header.height = wrapU64 (latest.height + 1) ∧ header.previousHash = latest.blockHash ∧
    latest.timestamp < header.timestamp

structure Chained (X : BlockExternals) (maxHeaders : Nat) (s : EdgeNodeState) : Prop where
  size : s.maxHeaders = maxHeaders
  bounded : s.headers.length ≤ maxHeaders
  sealed : ∀ header ∈ s.headers, calculateHash X header = header.blockHash
  follows : s.headers.IsChain Follows

/-! ## Calls -/

open EdgeNodeState

theorem follows_of_validateHeader (h : s.validateHeader X header = .ok ()) :
    calculateHash X header = header.blockHash ∧ ∀ latest ∈ s.headers.getLast?, Follows latest header := by
  simp only [validateHeader, guard_eq_ok, not_not] at h
  obtain ⟨-, hsealed, -, h⟩ := h
  refine ⟨hsealed, fun latest hlatest => ?_⟩
  rw [getLatestHeader, Option.mem_def.mp hlatest] at h
  simp only [validateContinuity, guard_eq_ok, not_not] at h
  obtain ⟨hheight, hprevious, h⟩ := h
  split at h
  · cases h
  · next htime => exact ⟨hheight, hprevious, not_le.mp htime⟩

theorem Chained.sameWindow {s' : EdgeNodeState} (h : Chained X maxHeaders s) (hsame : SameWindow s s') :
    Chained X maxHeaders s' := by
  obtain ⟨hheaders, hmax⟩ := hsame
  exact ⟨hmax.trans h.size, hheaders ▸ h.bounded, hheaders ▸ h.sealed, hheaders ▸ h.follows⟩

theorem Chained.addHeader {s' : EdgeNodeState} (h : Chained X maxHeaders s) (hadd : s.addHeader X header = .ok s') :
    Chained X maxHeaders s' := by
  simp only [EdgeNodeState.addHeader, bind_eq_ok, pure_eq_ok] at hadd
  obtain ⟨_, hvalid, rfl⟩ := hadd
  obtain ⟨hsealed, hfollows⟩ := follows_of_validateHeader hvalid
  refine ⟨h.size, ?_, fun a ha => ?_, List.IsChain.drop (List.isChain_append.mpr ⟨h.follows, .singleton _, ?_⟩) _⟩
  · simp only [trimmed, List.length_drop, h.size]
    omega
  · rcases List.mem_append.mp (List.mem_of_mem_drop ha) with ha | ha
    · exact h.sealed a ha
    · rwa [List.mem_singleton.mp ha]
  · rintro latest hlatest _ ⟨⟩
    exact hfollows latest hlatest

theorem Chained.rollbackToHeight {s' : EdgeNodeState} {targetHeight : Nat} (h : Chained X maxHeaders s)
    (hroll : s.rollbackToHeight targetHeight = .ok s') : Chained X maxHeaders s' := by
  simp only [EdgeNodeState.rollbackToHeight, guard_eq_ok, pure_eq_ok] at hroll
  obtain ⟨-, rfl⟩ := hroll
  have hfront := List.rdropWhile_prefix (fun header : BlockHeader => decide (targetHeight < header.height)) s.headers
  exact ⟨h.size, hfront.length_le.trans h.bounded, fun a ha => h.sealed a (hfront.subset ha), h.follows.prefix hfront⟩

theorem Chained.step (h : Chained X maxHeaders s) (call : NodeCall) : Chained X maxHeaders (nodeStep X s call) := by
  cases call with
  | addAddress address => exact h.sameWindow (s.sameWindow_addAddress address)
  | addHeader header =>
    simp only [nodeStep]
    cases hadd : s.addHeader X header with
    | error text => exact h
    | ok s' => exact h.addHeader hadd
  | processBlock block =>
    simp only [nodeStep, processBlock]
    cases hadd : s.addHeader X block.header with
    | error text => exact h
    | ok s' =>
      dsimp only
      split
      · exact h.addHeader hadd
      · exact (h.addHeader hadd).sameWindow (SameWindow.foldl (fun s tx => s.sameWindow_scanTransaction tx) _ s')
  | rollbackToHeight targetHeight =>
    simp only [nodeStep]
    cases hroll : s.rollbackToHeight targetHeight with
    | error text => exact h
    | ok s' => exact h.rollbackToHeight hroll

theorem chained_run (X : BlockExternals) (maxHeaders : Nat) (calls : List NodeCall) :
    Chained X maxHeaders (run (nodeStep X) (.new maxHeaders) calls) := by
  have hany : Along (nodeStep X) (fun _ _ => True) (.new maxHeaders) calls := .of_forall (fun _ _ => trivial) _ calls
  exact hany.invariant (fun _ call _ h => h.step call)
    ⟨rfl, Nat.zero_le _, fun _ hmem => absurd hmem List.not_mem_nil, .nil⟩

theorem Chained.linked (h : Chained X maxHeaders s) :
    HashChain.Linked BlockHeader.blockHash BlockHeader.previousHash s.headers :=
  h.follows.imp fun _ _ hfollows => hfollows.2.1

theorem previousHash_of_headerInput {header header' : BlockHeader} (h : headerInput header = headerInput header') :
    header.previousHash = header'.previousHash := by
  simp only [headerInput, List.append_assoc] at h
  have h := (List.append_inj h (by simp [length_toLeBytes])).2
  have h := (List.append_inj h (by simp [length_toLeBytes])).2
  exact Bytes.asSlice_inj (List.append_inj h (by simp)).1

/-- Two nodes with any calls behind them, rollbacks and refused blocks among these: if their latest headers have one hash,
the window of one is the end of the window of the other. -/
theorem same_tip_same_window (X : BlockExternals) (maxHeaders maxHeaders' : Nat) (calls calls' : List NodeCall)
    (hfree : CollisionFree X.blake3 (((run (nodeStep X) (.new maxHeaders) calls).headers ++
      (run (nodeStep X) (.new maxHeaders') calls').headers).map headerInput))
    (htip : (run (nodeStep X) (.new maxHeaders) calls).getLatestHeader.map BlockHeader.blockHash =
      (run (nodeStep X) (.new maxHeaders') calls').getLatestHeader.map BlockHeader.blockHash) :
    let hashes := (run (nodeStep X) (.new maxHeaders) calls).headers.map BlockHeader.blockHash
    let hashes' := (run (nodeStep X) (.new maxHeaders') calls').headers.map BlockHeader.blockHash
    hashes <:+ hashes' ∨ hashes' <:+ hashes := by
  have h := chained_run X maxHeaders calls
  have h' := chained_run X maxHeaders' calls'
  refine HashChain.suffix_or_suffix (fun a ha b hb hhash => ?_) h.linked h'.linked htip
  rw [← h.sealed a ha, ← h'.sealed b hb] at hhash
  exact previousHash_of_headerInput (hfree _ (List.mem_map_of_mem (List.mem_append_left _ ha)) _
    (List.mem_map_of_mem (List.mem_append_right _ hb)) hhash)

/-- One node has room for one header. The other one went back to the first header and took the second one again. -/
theorem same_tip_after_rollback :
    let short := run (nodeStep LightLedger.summing) (.new 1)
      [.processBlock LightLedger.sampleFirst, .processBlock LightLedger.sampleSecond]
    let long := run (nodeStep LightLedger.summing) (.new 5)
      [.processBlock LightLedger.sampleFirst, .processBlock LightLedger.sampleSecond, .rollbackToHeight 7,
        .addHeader LightLedger.sampleSecond.header]
    short.headers.length = 1 ∧ long.headers.length = 2 ∧
      (short.headers.map BlockHeader.blockHash <:+ long.headers.map BlockHeader.blockHash ∨
        long.headers.map BlockHeader.blockHash <:+ short.headers.map BlockHeader.blockHash) :=
  ⟨by decide +kernel, by decide +kernel, same_tip_same_window _ 1 5 _ _ (by decide +kernel) (by decide +kernel)⟩

end SovereignNetwork.Blocks
