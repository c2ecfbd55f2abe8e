import SovereignNetwork.Lib.HashMap
import SovereignNetwork.Lib.Loop
import SovereignNetwork.Types

/-!
# Chunks of a content

A content is cut at fixed distances, or where a rolling hash of the last bytes is zero under a mask. Sizes and offsets are
`usize`, whose sums wrap; a slice whose end is before its start panics.
-/

namespace SovereignNetwork.Storage

open Lib

/-- A slice of bytes is never longer than `isize::MAX`. -/
structure Content where
  bytes : List UInt8
  bound : bytes.length < 2 ^ 63

structure Chunk where
  hash : Hash
  data : List UInt8
  offset : Nat

inductive ChunkingAlgorithm
  | fixed (size : Nat)
  | contentDefined (minSize avgSize maxSize : Nat)

/-- `data[start..stop]`. -/
def slice (data : List UInt8) (start stop : Nat) : Option (List UInt8) :=
  if start ≤ stop ∧ stop ≤ data.length then some ((data.take stop).drop start) else none

variable (H : List UInt8 → Hash)

/-! ## Chunking -/

structure Cursor where
  offset : Nat
  chunks : List Chunk

def Cursor.push (cursor : Cursor) (piece : List UInt8) : List Chunk :=
  cursor.chunks ++ [⟨H piece, piece, cursor.offset⟩]

/-- Cuts off the piece up to `stop`. -/
def Cursor.cut (cursor : Cursor) (data : List UInt8) (stop : Nat) : Turn Cursor (List Chunk) :=
  match slice data cursor.offset stop with
  | none => .panic
  | some piece => .next ⟨stop, cursor.push H piece⟩

def fixedTurn (data : List UInt8) (size : Nat) (cursor : Cursor) : Turn Cursor (List Chunk) :=
  if cursor.offset < data.length then
    cursor.cut H data (min (wrapU64 (cursor.offset + size)) data.length)
  else .done cursor.chunks

def rollingHash (window : List UInt8) : Nat :=
  window.zipIdx.foldl (fun hash entry =>
    wrapU64 (wrapU64 (wrapU64 (hash * 31) + entry.1.toNat) + entry.2)) 0

def trailingZeros (x : Nat) : Nat := ((List.range 64).find? fun i => x.testBit i).getD 64

def boundaryMask (avgSize : Nat) : Nat := 1 <<< (trailingZeros avgSize % 64) - 1

/-- The rolling hash is zero under the mask. The window has up to 33 bytes. -/
def isBoundary (data : List UInt8) (mask pos : Nat) : Bool :=
  rollingHash ((data.take (pos + 1)).drop (pos - 32)) &&& mask = 0

/-- The end of the chunk at the first boundary from `chunkEnd` on. -/
def findBoundary (data : List UInt8) (mask chunkEnd searchEnd : Nat) : Option Nat :=
  ((List.range' chunkEnd (searchEnd - chunkEnd)).find? (isBoundary data mask)).map (· + 1)

def contentTurn (data : List UInt8) (minSize avgSize maxSize : Nat) (cursor : Cursor) : Turn Cursor (List Chunk) :=
  if cursor.offset < data.length then
    let chunkEnd := wrapU64 (cursor.offset + minSize)
    if data.length ≤ chunkEnd then .done (cursor.push H (data.drop cursor.offset))
    else
      let searchEnd := min (wrapU64 (cursor.offset + maxSize)) data.length
      cursor.cut H data ((findBoundary data (boundaryMask avgSize) chunkEnd searchEnd).getD searchEnd)
  else .done cursor.chunks

/-- What `turns` turns of the loop come to. -/
def chunk (algorithm : ChunkingAlgorithm) (data : List UInt8) (turns : Nat) : Outcome (List Chunk) :=
  match algorithm with
  | .fixed size => loop (fixedTurn H data size) turns ⟨0, []⟩
  | .contentDefined minSize avgSize maxSize => loop (contentTurn H data minSize avgSize maxSize) turns ⟨0, []⟩

/-! ## Deduplication -/

structure DedupStats where
  totalChunks : Nat := 0
  uniqueChunks : Nat := 0
  duplicateChunks : Nat := 0
  bytesStored : Nat := 0
  bytesSaved : Nat := 0

structure Deduplicator where
  chunkStore : HashMap Hash (List UInt8)
  stats : DedupStats

structure BlockReference where
  hash : Hash
  size : Nat

/-- "Chunk not found" -/
inductive ReconstructError
  | chunkNotFound (hash : Hash)

namespace Deduplicator

def new : Deduplicator := ⟨∅, {}⟩

def deduplicateChunk (dedup : Deduplicator) (chunk : List UInt8) : Deduplicator :=
  let stats := dedup.stats
  if (dedup.chunkStore.lookup (H chunk)).isSome then
    { dedup with stats := { stats with
        totalChunks := wrapU64 (stats.totalChunks + 1)
        duplicateChunks := wrapU64 (stats.duplicateChunks + 1)
        bytesSaved := wrapU64 (stats.bytesSaved + chunk.length) } }
  else
    ⟨dedup.chunkStore.insert (H chunk) chunk, { stats with
        totalChunks := wrapU64 (stats.totalChunks + 1)
        uniqueChunks := wrapU64 (stats.uniqueChunks + 1)
        bytesStored := wrapU64 (stats.bytesStored + chunk.length) }⟩

def deduplicateChunks (dedup : Deduplicator) (chunks : List (List UInt8)) : Deduplicator × List BlockReference :=
  (chunks.foldl (deduplicateChunk H) dedup, chunks.map fun chunk => ⟨H chunk, chunk.length⟩)

def reconstruct (dedup : Deduplicator) (references : List BlockReference) : Except ReconstructError (List (List UInt8)) :=
  references.mapM fun reference =>
    match dedup.chunkStore.lookup reference.hash with
    | some chunk => .ok chunk
    | none => .error (.chunkNotFound reference.hash)

/-- Stores the chunks of several contents one after the other. -/
def storeContents : Deduplicator → List (List Chunk) → Deduplicator × List (List BlockReference)
  | dedup, [] => (dedup, [])
  | dedup, chunks :: rest =>
    let (dedup, references) := dedup.deduplicateChunks H (chunks.map Chunk.data)
    let (dedup, others) := storeContents dedup rest
    (dedup, references :: others)

end Deduplicator

/-! ## Partitions -/

/-- Each chunk starts where the one before it ends. -/
def Consecutive : Nat → List Chunk → Prop
  | _, [] => True
  | offset, chunk :: chunks => chunk.offset = offset ∧ Consecutive (offset + chunk.data.length) chunks

structure Partition (data : List UInt8) (chunks : List Chunk) : Prop where
  consecutive : Consecutive 0 chunks
  joined : chunks.flatMap Chunk.data = data

/-- All chunks but the last have at least `low` bytes, and none has more than `high`. -/
structure Sized (low high : Nat) (chunks : List Chunk) : Prop where
  low_le : ∀ chunk ∈ chunks.dropLast, low ≤ chunk.data.length
  le_high : ∀ chunk ∈ chunks, chunk.data.length ≤ high

theorem consecutive_concat {offset : Nat} {chunks : List Chunk} {chunk : Chunk} (h : Consecutive offset chunks)
    (hchunk : chunk.offset = offset + (chunks.flatMap Chunk.data).length) : Consecutive offset (chunks ++ [chunk]) := by
  induction chunks generalizing offset with
  | nil => exact ⟨hchunk, trivial⟩
  | cons first chunks ih =>
    refine ⟨h.1, ih h.2 ?_⟩
    rw [hchunk, List.flatMap_cons, List.length_append, Nat.add_assoc]

namespace Cursor

variable {data : List UInt8} {low high stop : Nat} {cursor : Cursor}

structure Inv (data : List UInt8) (low high : Nat) (cursor : Cursor) : Prop where
  offset_le : cursor.offset ≤ data.length
  taken : Partition (data.take cursor.offset) cursor.chunks
  sizes : ∀ chunk ∈ cursor.chunks, low ≤ chunk.data.length ∧ chunk.data.length ≤ high

theorem inv_start (data : List UInt8) (low high : Nat) : Inv data low high ⟨0, []⟩ where
  offset_le := Nat.zero_le _
  taken := ⟨trivial, rfl⟩
  sizes := nofun

variable {H}

theorem Inv.partition_push (h : Inv data low high cursor) (hle : cursor.offset ≤ stop) :
    Partition (data.take stop) (cursor.push H ((data.take stop).drop cursor.offset)) where
  consecutive := by
    refine consecutive_concat h.taken.consecutive ?_
    rw [h.taken.joined, List.length_take, Nat.min_eq_left h.offset_le, Nat.zero_add]
  joined := by
    have htake : data.take cursor.offset = (data.take stop).take cursor.offset := by
      rw [List.take_take, Nat.min_eq_left hle]
    rw [push, List.flatMap_append, h.taken.joined, htake]
    simp

theorem Inv.cut (h : Inv data low high cursor) (hlt : cursor.offset < stop) (hstop : stop ≤ data.length)
    (hlow : cursor.offset + low ≤ stop) (hhigh : stop ≤ cursor.offset + high) :
    ∃ cursor', cursor.cut H data stop = .next cursor' ∧ Inv data low high cursor' ∧ cursor'.offset = stop := by
  have hlength : ((data.take stop).drop cursor.offset).length = stop - cursor.offset := by
    rw [List.length_drop, List.length_take, Nat.min_eq_left hstop]
  refine ⟨⟨stop, cursor.push H ((data.take stop).drop cursor.offset)⟩, ?_, ?_, rfl⟩
  · rw [Cursor.cut, slice, if_pos ⟨Nat.le_of_lt hlt, hstop⟩]
  · refine ⟨hstop, h.partition_push (Nat.le_of_lt hlt), fun chunk hmem => ?_⟩
    rcases List.mem_append.mp hmem with hmem | hmem
    · exact h.sizes chunk hmem
    · obtain rfl := List.mem_singleton.mp hmem
      dsimp only
      omega

theorem Inv.done (h : Inv data low high cursor) (hend : ¬ cursor.offset < data.length) :
    Partition data cursor.chunks ∧ Sized low high cursor.chunks := by
  have htaken := h.taken
  rw [List.take_of_length_le (Nat.not_lt.mp hend)] at htaken
  exact ⟨htaken, fun chunk hmem => (h.sizes chunk (List.dropLast_subset _ hmem)).1, fun chunk hmem => (h.sizes chunk hmem).2⟩

theorem Inv.done_push (h : Inv data low high cursor) (hrest : data.length ≤ cursor.offset + high) :
    Partition data (cursor.push H (data.drop cursor.offset)) ∧ Sized low high (cursor.push H (data.drop cursor.offset)) := by
  have hpush := h.partition_push (H := H) h.offset_le
  rw [List.take_length] at hpush
  refine ⟨hpush, fun chunk hmem => ?_, fun chunk hmem => ?_⟩
  · rw [push, List.dropLast_concat] at hmem
    exact (h.sizes chunk hmem).1
  · rcases List.mem_append.mp hmem with hmem | hmem
    · exact (h.sizes chunk hmem).2
    · obtain rfl := List.mem_singleton.mp hmem
      rw [List.length_drop]
      omega

end Cursor

/-! ## The two loops -/

section Loops

variable {H} {data : List UInt8} {cursor : Cursor} {size minSize avgSize maxSize : Nat}

theorem wrapU64_of_lt {x : Nat} (h : x < 2 ^ 64) : wrapU64 x = x := Nat.mod_eq_of_lt h

/-- The sum does not wrap: after the first chunk the size is smaller than the data. -/
def NoWrap (data : List UInt8) (size : Nat) (cursor : Cursor) : Prop :=
  cursor.offset < data.length → cursor.offset + size < 2 ^ 64

theorem fixedTurn_spec (hdata : data.length < 2 ^ 63) (hsize : 1 ≤ size)
    (h : cursor.Inv data 0 size ∧ NoWrap data size cursor) :
    (∃ chunks, fixedTurn H data size cursor = .done chunks ∧ Partition data chunks ∧ Sized 0 size chunks) ∨
      ∃ cursor', fixedTurn H data size cursor = .next cursor' ∧ (cursor'.Inv data 0 size ∧ NoWrap data size cursor') ∧
        data.length - cursor'.offset < data.length - cursor.offset := by
  obtain ⟨hinv, hwrap⟩ := h
  by_cases hlt : cursor.offset < data.length
  · rw [fixedTurn, if_pos hlt, wrapU64_of_lt (hwrap hlt)]
    have hstop : cursor.offset < min (cursor.offset + size) data.length := by omega
    obtain ⟨cursor', hcut, hinv', hoffset⟩ := hinv.cut (H := H) hstop (Nat.min_le_right _ _) (by omega) (Nat.min_le_left _ _)
    exact .inr ⟨cursor', hcut, ⟨hinv', fun hlt' => by omega⟩, by omega⟩
  · exact .inl ⟨_, if_neg hlt, hinv.done hlt⟩

/-- A cut that boundaries alone make: the first boundary at least `minSize` after the cut before it ends there. -/
inductive CutAt (data : List UInt8) (minSize mask : Nat) : Nat → Prop
  | start : CutAt data minSize mask 0
  | next {offset pos : Nat} (before : CutAt data minSize mask offset) (far : offset + minSize ≤ pos)
      (inside : pos < data.length) (boundary : isBoundary data mask pos)
      (first : ∀ pos', offset + minSize ≤ pos' → pos' < pos → ¬ isBoundary data mask pos') : CutAt data minSize mask (pos + 1)

theorem findBoundary_eq_some {mask chunkEnd searchEnd stop : Nat} :
    findBoundary data mask chunkEnd searchEnd = some stop ↔
      ∃ pos, pos + 1 = stop ∧ (chunkEnd ≤ pos ∧ pos < searchEnd) ∧ isBoundary data mask pos ∧
        ∀ pos', chunkEnd ≤ pos' → pos' < pos → ¬ isBoundary data mask pos' := by
  rw [findBoundary, Option.map_eq_some_iff]
  refine exists_congr fun pos => ?_
  rw [List.find?_range'_eq_some, List.mem_range'_1]
  simp only [Bool.not_eq_true', Bool.not_eq_true]
  constructor
  · rintro ⟨⟨hboundary, hmem, hfirst⟩, hstop⟩
    exact ⟨hstop, by omega, hboundary, hfirst⟩
  · rintro ⟨hstop, hmem, hboundary, hfirst⟩
    exact ⟨⟨hboundary, by omega, hfirst⟩, hstop⟩

theorem CutAt.add_lt {mask offset : Nat} (h : CutAt data minSize mask offset) (hdata : data.length < 2 ^ 63)
    (hmin : minSize < 2 ^ 64) (hlt : offset < data.length) : offset + minSize < 2 ^ 64 := by
  cases h with
  | start => rwa [Nat.zero_add]
  | next _ far inside => omega

theorem contentTurn_of_lt (hdata : data.length < 2 ^ 63) (hlt : cursor.offset + minSize < data.length) :
    contentTurn H data minSize avgSize maxSize cursor =
      cursor.cut H data ((findBoundary data (boundaryMask avgSize) (cursor.offset + minSize)
        (min (wrapU64 (cursor.offset + maxSize)) data.length)).getD (min (wrapU64 (cursor.offset + maxSize)) data.length)) := by
  rw [contentTurn, if_pos (by omega), wrapU64_of_lt (by omega)]
  exact if_neg (Nat.not_le.mpr hlt)

theorem contentTurn_of_wraps (hdata : data.length < 2 ^ 63) (hmax : maxSize < 2 ^ 64)
    (hlt : cursor.offset + minSize < data.length) (hwrap : 2 ^ 64 ≤ cursor.offset + maxSize) :
    contentTurn H data minSize avgSize maxSize cursor = .panic := by
  have hend : min (wrapU64 (cursor.offset + maxSize)) data.length < cursor.offset := by
    rw [wrapU64, Nat.mod_eq_sub_mod hwrap, Nat.mod_eq_of_lt (by omega)]
    omega
  have hnone : findBoundary data (boundaryMask avgSize) (cursor.offset + minSize)
      (min (wrapU64 (cursor.offset + maxSize)) data.length) = none := by
    refine Option.eq_none_iff_forall_ne_some.mpr fun stop hstop => ?_
    obtain ⟨pos, -, hmem, -⟩ := findBoundary_eq_some.mp hstop
    omega
  rw [contentTurn_of_lt hdata hlt, hnone, Option.getD_none, Cursor.cut, slice, if_neg (by omega)]

/-- A chunk that may be as long as any data ends at a boundary or with the data. -/
def OnCut (data : List UInt8) (minSize avgSize maxSize : Nat) (cursor : Cursor) : Prop :=
  2 ^ 63 ≤ maxSize → cursor.offset < data.length → CutAt data minSize (boundaryMask avgSize) cursor.offset

/-- The sum of an offset and the greatest size never wraps where one is computed. -/
def Fits (data : List UInt8) (minSize avgSize maxSize : Nat) : Prop :=
  ∀ offset, CutAt data minSize (boundaryMask avgSize) offset → offset + minSize < data.length → offset + maxSize < 2 ^ 64

theorem contentTurn_spec (hdata : data.length < 2 ^ 63) (hmin : 1 ≤ minSize) (hmax : minSize ≤ maxSize)
    (hword : maxSize < 2 ^ 64) (hfits : Fits data minSize avgSize maxSize)
    (h : cursor.Inv data minSize maxSize ∧ OnCut data minSize avgSize maxSize cursor) :
    (∃ chunks, contentTurn H data minSize avgSize maxSize cursor = .done chunks ∧ Partition data chunks ∧
        Sized minSize maxSize chunks) ∨
      ∃ cursor', contentTurn H data minSize avgSize maxSize cursor = .next cursor' ∧
        (cursor'.Inv data minSize maxSize ∧ OnCut data minSize avgSize maxSize cursor') ∧
        data.length - cursor'.offset < data.length - cursor.offset := by
  obtain ⟨hinv, hcut⟩ := h
  by_cases hlt : cursor.offset < data.length
  · have hsum : cursor.offset + minSize < 2 ^ 64 := by
      by_cases hbig : 2 ^ 63 ≤ maxSize
      · exact (hcut hbig hlt).add_lt hdata (by omega) hlt
      · omega
    by_cases hrest : data.length ≤ cursor.offset + minSize
    · refine .inl ⟨cursor.push H (data.drop cursor.offset), ?_, hinv.done_push (by omega)⟩
      rw [contentTurn, if_pos hlt, wrapU64_of_lt hsum]
      exact if_pos hrest
    · have hsum' : cursor.offset + maxSize < 2 ^ 64 := by
        by_cases hbig : 2 ^ 63 ≤ maxSize
        · exact hfits _ (hcut hbig hlt) (by omega)
        · omega
      rw [contentTurn_of_lt hdata (by omega), wrapU64_of_lt hsum']
      -- wherever the boundary is, it is between the two sizes
      obtain ⟨stop, hstop, hlow, hhigh, hon⟩ : ∃ stop, stop = (findBoundary data (boundaryMask avgSize)
          (cursor.offset + minSize) (min (cursor.offset + maxSize) data.length)).getD
            (min (cursor.offset + maxSize) data.length) ∧
          cursor.offset + minSize ≤ stop ∧ stop ≤ min (cursor.offset + maxSize) data.length ∧
          (2 ^ 63 ≤ maxSize → stop < data.length → CutAt data minSize (boundaryMask avgSize) stop) := by
        cases hfind : findBoundary data (boundaryMask avgSize) (cursor.offset + minSize)
            (min (cursor.offset + maxSize) data.length) with
        | none => exact ⟨_, rfl, by rw [Option.getD_none]; omega, le_refl _, fun _ _ => by simp at *; omega⟩
        | some stop =>
          obtain ⟨pos, rfl, hpos, hboundary, hfirst⟩ := findBoundary_eq_some.mp hfind
          exact ⟨pos + 1, rfl, by omega, by omega, fun hbig _ =>
            .next (hcut hbig hlt) hpos.1 (by omega) hboundary hfirst⟩
      rw [← hstop]
      have hlt' : cursor.offset < stop := by omega
      obtain ⟨cursor', hnext, hinv', rfl⟩ := hinv.cut (H := H) hlt' (by omega) hlow (by omega)
      exact .inr ⟨cursor', hnext, ⟨hinv', hon⟩, by omega⟩
  · exact .inl ⟨_, if_neg hlt, hinv.done hlt⟩

theorem reached_cutAt {offset : Nat} (hdata : data.length < 2 ^ 63) (hword : maxSize < 2 ^ 64) (hbig : 2 ^ 63 ≤ maxSize)
    (h : CutAt data minSize (boundaryMask avgSize) offset) :
    ∃ n cursor, reached (contentTurn H data minSize avgSize maxSize) n ⟨0, []⟩ = some cursor ∧
      (cursor.offset = offset ∨ contentTurn H data minSize avgSize maxSize cursor = .panic) := by
  induction h with
  | start => exact ⟨0, _, rfl, .inl rfl⟩
  | @next offset pos _ far inside boundary first ih =>
    obtain ⟨n, cursor, hreached, rfl | hpanic⟩ := ih
    · by_cases hwrap : 2 ^ 64 ≤ cursor.offset + maxSize
      · exact ⟨n, cursor, hreached, .inr (contentTurn_of_wraps hdata hword (by omega) hwrap)⟩
      · have hend : min (wrapU64 (cursor.offset + maxSize)) data.length = data.length := by
          rw [wrapU64_of_lt (by omega)]
          omega
        refine ⟨n + 1, ⟨pos + 1, cursor.push H ((data.take (pos + 1)).drop cursor.offset)⟩, reached_succ hreached ?_, .inl rfl⟩
        rw [contentTurn_of_lt hdata (Nat.lt_of_le_of_lt far inside), hend,
          findBoundary_eq_some.mpr ⟨pos, rfl, ⟨far, inside⟩, boundary, first⟩, Option.getD_some, Cursor.cut, slice,
          if_pos (by omega)]
    · exact ⟨n, cursor, hreached, .inr hpanic⟩

theorem panics_of_not_fits (hdata : data.length < 2 ^ 63) (hword : maxSize < 2 ^ 64)
    (h : ¬ Fits data minSize avgSize maxSize) :
    ∃ n, ∀ turns, loop (contentTurn H data minSize avgSize maxSize) (n + turns + 1) ⟨0, []⟩ = .panic := by
  simp only [Fits, not_forall, Nat.not_lt] at h
  obtain ⟨offset, hcut, hlt, hwrap⟩ := h
  obtain ⟨n, cursor, hreached, hend⟩ := reached_cutAt (H := H) hdata hword (by omega) hcut
  have hpanic : contentTurn H data minSize avgSize maxSize cursor = .panic := by
    rcases hend with rfl | hpanic
    · exact contentTurn_of_wraps hdata hword hlt hwrap
    · exact hpanic
  refine ⟨n, fun turns => ?_⟩
  rw [Nat.add_assoc, loop_of_reached hreached, loop, hpanic]

end Loops

namespace ChunkingAlgorithm

def Configured : ChunkingAlgorithm → Prop
  | fixed size => 1 ≤ size ∧ size < 2 ^ 64
  | contentDefined minSize avgSize maxSize =>
    (1 ≤ minSize ∧ minSize ≤ maxSize ∧ maxSize < 2 ^ 64) ∧ 1 ≤ avgSize ∧ avgSize < 2 ^ 64

/-- Fixed sizes fit every content. -/
def FitsContent (content : Content) : ChunkingAlgorithm → Prop
  | fixed _ => True
  | contentDefined minSize avgSize maxSize => Fits content.bytes minSize avgSize maxSize

def SizedBy (chunks : List Chunk) : ChunkingAlgorithm → Prop
  | fixed _ => True
  | contentDefined minSize _ maxSize => Sized minSize maxSize chunks

end ChunkingAlgorithm

/-- What chunking a content has to come to. -/
structure ChunkedAs (job : ChunkingAlgorithm × Content) (chunks : List Chunk) : Prop where
  ends : ∀ turns, job.2.bytes.length < turns → chunk H job.1 job.2.bytes turns = .done chunks
  partition : Partition job.2.bytes chunks
  sized : job.1.SizedBy chunks

variable {algorithm : ChunkingAlgorithm} {content : Content} {chunks : List Chunk}

theorem exists_chunkedAs (h : algorithm.Configured) (hfits : algorithm.FitsContent content) :
    ∃ chunks, ChunkedAs H (algorithm, content) chunks := by
  cases algorithm with
  | fixed size =>
    obtain ⟨chunks, hloop, hpartition, -⟩ := loop_of_variant
      (fun cursor => cursor.Inv content.bytes 0 size ∧ NoWrap content.bytes size cursor)
      (fun chunks => Partition content.bytes chunks ∧ Sized 0 size chunks) (fun cursor => content.bytes.length - cursor.offset)
      (fun cursor => fixedTurn_spec content.bound h.1) ⟨Cursor.inv_start _ _ _, fun _ => by simpa using h.2⟩
    exact ⟨chunks, hloop, hpartition, trivial⟩
  | contentDefined minSize avgSize maxSize =>
    obtain ⟨chunks, hloop, hpartition, hsized⟩ := loop_of_variant
      (fun cursor => cursor.Inv content.bytes minSize maxSize ∧ OnCut content.bytes minSize avgSize maxSize cursor) _
      (fun cursor => content.bytes.length - cursor.offset)
      (fun cursor => contentTurn_spec content.bound h.1.1 h.1.2.1 h.1.2.2 hfits) ⟨Cursor.inv_start _ _ _, fun _ _ => .start⟩
    exact ⟨chunks, hloop, hpartition, hsized⟩

theorem ChunkedAs.fitsContent (hchunks : ChunkedAs H (algorithm, content) chunks) (h : algorithm.Configured) :
    algorithm.FitsContent content := by
  cases algorithm with
  | fixed size => trivial
  | contentDefined minSize avgSize maxSize =>
    by_contra hfits
    obtain ⟨n, hpanic⟩ := panics_of_not_fits (H := H) content.bound h.1.2.2 hfits
    have hdone := hchunks.ends (n + content.bytes.length + 1) (by simp only; omega)
    rw [chunk, hpanic] at hdone
    cases hdone

/-! ## Reconstruction -/

namespace Deduplicator

variable {H} {P : List UInt8 → Prop} {dedup : Deduplicator} {piece : List UInt8}

/-- Every stored piece is under its own hash. -/
def Inv (H : List UInt8 → Hash) (P : List UInt8 → Prop) (dedup : Deduplicator) : Prop :=
  ∀ hash piece, dedup.chunkStore.lookup hash = some piece → P piece ∧ H piece = hash

def Keeps (dedup dedup' : Deduplicator) : Prop :=
  ∀ hash piece, dedup.chunkStore.lookup hash = some piece → dedup'.chunkStore.lookup hash = some piece

section Collisions

variable (hinj : ∀ c c', P c → P c' → H c = H c' → c = c')
include hinj

theorem Inv.deduplicateChunk (h : dedup.Inv H P) (hpiece : P piece) :
    (dedup.deduplicateChunk H piece).Inv H P ∧ Keeps dedup (dedup.deduplicateChunk H piece) ∧
      (dedup.deduplicateChunk H piece).chunkStore.lookup (H piece) = some piece := by
  rw [Deduplicator.deduplicateChunk]
  split
  · rename_i hsome
    obtain ⟨piece', hlookup⟩ := Option.isSome_iff_exists.mp hsome
    obtain ⟨hP, hhash⟩ := h _ _ hlookup
    obtain rfl := hinj piece' piece hP hpiece hhash
    exact ⟨h, fun _ _ => id, hlookup⟩
  · rename_i hnone
    refine ⟨fun hash piece' hlookup => ?_, fun hash piece' hlookup => ?_, ?_⟩
    · rcases HashMap.lookup_insert_cases hlookup with ⟨rfl, rfl⟩ | ⟨-, hold⟩
      · exact ⟨hpiece, rfl⟩
      · exact h hash piece' hold
    · rw [HashMap.lookup_insert_eq_ite, if_neg]
      · exact hlookup
      · rintro rfl
        rw [hlookup] at hnone
        exact hnone rfl
    · rw [HashMap.lookup_insert_eq_ite, if_pos rfl]

theorem Inv.foldl {pieces : List (List UInt8)} (h : dedup.Inv H P) (hpieces : ∀ piece ∈ pieces, P piece) :
    (pieces.foldl (Deduplicator.deduplicateChunk H) dedup).Inv H P ∧
      Keeps dedup (pieces.foldl (Deduplicator.deduplicateChunk H) dedup) ∧
      ∀ piece ∈ pieces,
        (pieces.foldl (Deduplicator.deduplicateChunk H) dedup).chunkStore.lookup (H piece) = some piece := by
  induction pieces generalizing dedup with
  | nil => exact ⟨h, fun _ _ => id, nofun⟩
  | cons piece pieces ih =>
    obtain ⟨hpiece, hpieces⟩ := List.forall_mem_cons.mp hpieces
    obtain ⟨hinv, hkeep, hlookup⟩ := h.deduplicateChunk hinj hpiece
    obtain ⟨hinv', hkeep', hlookups⟩ := ih hinv hpieces
    exact ⟨hinv', fun hash c hc => hkeep' hash c (hkeep hash c hc),
      List.forall_mem_cons.mpr ⟨hkeep' _ _ hlookup, hlookups⟩⟩

omit hinj in
theorem reconstruct_of_lookup {pieces : List (List UInt8)}
    (h : ∀ piece ∈ pieces, dedup.chunkStore.lookup (H piece) = some piece) :
    dedup.reconstruct (pieces.map fun piece => ⟨H piece, piece.length⟩) = .ok pieces := by
  induction pieces with
  | nil => rfl
  | cons piece pieces ih =>
    obtain ⟨hpiece, hpieces⟩ := List.forall_mem_cons.mp h
    have ih := ih hpieces
    rw [reconstruct] at ih ⊢
    rw [List.map_cons, List.mapM_cons, hpiece, ih]
    rfl

theorem Inv.storeContents {contents : List (List Chunk)} (h : dedup.Inv H P)
    (hP : ∀ chunks ∈ contents, ∀ chunk ∈ chunks, P chunk.data) :
    Keeps dedup (dedup.storeContents H contents).1 ∧
      List.Forall₂ (fun chunks references =>
        (dedup.storeContents H contents).1.reconstruct references = .ok (chunks.map Chunk.data)) contents
        (dedup.storeContents H contents).2 := by
  induction contents generalizing dedup with
  | nil => exact ⟨fun _ _ => id, .nil⟩
  | cons chunks contents ih =>
    obtain ⟨hchunks, hcontents⟩ := List.forall_mem_cons.mp hP
    have hpieces : ∀ piece ∈ chunks.map Chunk.data, P piece := by simpa using hchunks
    obtain ⟨hinv, hkeep, hlookups⟩ := h.foldl hinj hpieces
    obtain ⟨hkeep', hrest⟩ := ih hinv hcontents
    refine ⟨fun hash c hc => hkeep' hash c (hkeep hash c hc), .cons ?_ hrest⟩
    exact reconstruct_of_lookup fun piece hpiece => hkeep' _ _ (hlookups piece hpiece)

end Collisions

end Deduplicator

/-- No two different chunks of the contents have the same hash. -/
def CollisionFree (H : List UInt8 → Hash) (contents : List (List Chunk)) : Prop :=
  ∀ chunk ∈ contents.flatten, ∀ chunk' ∈ contents.flatten, H chunk.data = H chunk'.data → chunk.data = chunk'.data

theorem reconstructs_jobs {dedup : Deduplicator} {jobs : List (ChunkingAlgorithm × Content)}
    {contents : List (List Chunk)} {references : List (List BlockReference)}
    (hcontents : List.Forall₂ (ChunkedAs H) jobs contents)
    (h : List.Forall₂ (fun chunks refs => dedup.reconstruct refs = .ok (chunks.map Chunk.data)) contents references) :
    List.Forall₂ (fun job refs => ∃ pieces, dedup.reconstruct refs = .ok pieces ∧ pieces.flatten = job.2.bytes)
      jobs references := by
  induction hcontents generalizing references with
  | nil =>
    cases h
    exact .nil
  | cons hjob _ ih =>
    cases h with
    | cons hreconstruct h =>
      refine .cons ⟨_, hreconstruct, ?_⟩ (ih h)
      rw [← hjob.partition.joined, List.flatMap_def]

/-- Configured chunking ends and cuts a content into consecutive chunks of the configured sizes exactly if no sum wraps.
Contents whose chunks are stored one after the other are all reconstructed. -/
theorem chunking_partitions (H : List UInt8 → Hash) (jobs : List (ChunkingAlgorithm × Content))
    (hjobs : ∀ job ∈ jobs, job.1.Configured) :
    (∀ job ∈ jobs, (∃ chunks, ChunkedAs H job chunks) ↔ job.1.FitsContent job.2) ∧
    ∀ contents, List.Forall₂ (ChunkedAs H) jobs contents → CollisionFree H contents →
      List.Forall₂ (fun job refs => ∃ pieces,
        (Deduplicator.new.storeContents H contents).1.reconstruct refs = .ok pieces ∧ pieces.flatten = job.2.bytes)
        jobs (Deduplicator.new.storeContents H contents).2 := by
  refine ⟨fun job hmem => ⟨fun ⟨_, hchunks⟩ => hchunks.fitsContent H (hjobs job hmem), exists_chunkedAs H (hjobs job hmem)⟩,
    fun contents hcontents hfree => reconstructs_jobs H hcontents ?_⟩
  have hinj : ∀ c c', (∃ chunk ∈ contents.flatten, chunk.data = c) → (∃ chunk ∈ contents.flatten, chunk.data = c') →
      H c = H c' → c = c' := by
    rintro _ _ ⟨chunk, hchunk, rfl⟩ ⟨chunk', hchunk', rfl⟩
    exact hfree chunk hchunk chunk' hchunk'
  have hempty : Deduplicator.new.Inv H fun c => ∃ chunk ∈ contents.flatten, chunk.data = c := nofun
  exact (hempty.storeContents hinj fun chunks hmem chunk hchunk =>
    ⟨chunk, List.mem_flatten.mpr ⟨chunks, hmem, hchunk⟩, rfl⟩).2

def fourBytes : Content := ⟨[1, 2, 3, 4], by decide⟩

def lengthAndFirst (bytes : List UInt8) : Hash := BitVec.ofNat _ (256 * bytes.length + (bytes.headD 0).toNat)

def twoByteJob : ChunkingAlgorithm × Content := (.contentDefined 1 1 2, fourBytes)

/-- The first chunk takes all the data, so that no sum with the greatest size is computed from an offset behind it. -/
def oneChunkJob : ChunkingAlgorithm × Content := (.contentDefined 4 1 (2 ^ 64 - 1), fourBytes)

def chunkOf (data : List UInt8) (offset : Nat) : Chunk := ⟨lengthAndFirst data, data, offset⟩

def twoByteChunks : List Chunk := [chunkOf [1, 2] 0, chunkOf [3, 4] 2]

def oneChunk : List Chunk := [chunkOf [1, 2, 3, 4] 0]

theorem chunking_partitions_four_bytes : ∃ contents,
    List.Forall₂ (ChunkedAs lengthAndFirst) [twoByteJob, oneChunkJob] contents ∧ CollisionFree lengthAndFirst contents ∧
      List.Forall₂ (fun job refs => ∃ pieces,
        (Deduplicator.new.storeContents lengthAndFirst contents).1.reconstruct refs = .ok pieces ∧
          pieces.flatten = job.2.bytes)
        [twoByteJob, oneChunkJob] (Deduplicator.new.storeContents lengthAndFirst contents).2 := by
  have hjobs : ∀ job ∈ [twoByteJob, oneChunkJob], job.1.Configured := by
    simp [twoByteJob, oneChunkJob, ChunkingAlgorithm.Configured]
  obtain ⟨hchunked, hstored⟩ := chunking_partitions lengthAndFirst [twoByteJob, oneChunkJob] hjobs
  obtain ⟨chunks, hchunks⟩ := (hchunked twoByteJob (by simp)).mpr fun offset _ hlt => by
    change offset + 1 < 4 at hlt
    omega
  obtain ⟨chunks', hchunks'⟩ := (hchunked oneChunkJob (by simp)).mpr fun offset _ hlt => by
    change offset + 4 < 4 at hlt
    omega
  have hfree : CollisionFree lengthAndFirst [chunks, chunks'] := by
    obtain rfl : twoByteChunks = chunks := Outcome.done.inj (hchunks.ends 5 (by decide))
    obtain rfl : oneChunk = chunks' := Outcome.done.inj (hchunks'.ends 5 (by decide))
    simp [CollisionFree, twoByteChunks, oneChunk, chunkOf, lengthAndFirst]
  have hcontents := List.Forall₂.cons hchunks (.cons hchunks' .nil)
  exact ⟨_, hcontents, hfree, hstored _ hcontents hfree⟩

/-- From the second chunk on, an offset and the greatest size have a sum that wraps. -/
theorem greatest_size_panics :
    fourBytes.bytes.length = 4 ∧
      ∀ turns, chunk lengthAndFirst (.contentDefined 1 1 (2 ^ 64 - 1)) fourBytes.bytes (turns + 2) = .panic :=
  ⟨rfl, fun _ => rfl⟩

end SovereignNetwork.Storage
