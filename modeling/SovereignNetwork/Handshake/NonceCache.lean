import SovereignNetwork.Handshake.Hello
import SovereignNetwork.Lib.Run

/-!
# Nonces of hellos

Nonces that were seen are kept in a table on disk, the latest ones in memory as well, and are pruned by the time they
were first seen.
-/

namespace SovereignNetwork.Handshake

open Lib
open Execution (PublicKey)

/-! ## The cache -/

/-- A 64-bit number as a signed one. -/
def asI64 (x : Int) : Int := x.bmod (2 ^ 64)

structure NonceEntry where
  firstSeenUnix : Int
  messageTimestamp : Nat
  deriving DecidableEq

/-- The entries in memory are listed by use, the latest first. -/
structure NonceCache where
  memory : List (Bytes 32 × NonceEntry)
  db : HashMap (Bytes 32) NonceEntry
  ttl : Nat
  maxMemorySize : Nat
  insertCount : Nat
  stored : ∀ entry ∈ memory, db.lookup entry.1 = some entry.2

namespace NonceCache

def pruneEveryNInserts : Nat := 10000

def pruneSeenNonces (cache : NonceCache) (cutoff : Int) : NonceCache :=
  { cache with
    db := HashMap.retain (fun _ entry => ¬ entry.firstSeenUnix < cutoff) cache.db
    memory := cache.memory.filter fun entry => ¬ entry.2.firstSeenUnix < cutoff
    stored := by
      intro entry hentry
      obtain ⟨hmem, hkept⟩ := List.mem_filter.mp hentry
      simp only [HashMap.lookup_retain, cache.stored entry hmem, Option.filter_some, hkept, if_true] }

/-- The time to live is cast to a signed number, and the difference wraps. -/
def cutoff (cache : NonceCache) (now : Nat) : Int := asI64 (asI64 now - asI64 cache.ttl)

/-- The entry used least is evicted. -/
def put (cache : NonceCache) (nonce : Bytes 32) (entry : NonceEntry) : NonceCache :=
  { cache with
    db := cache.db.insert nonce entry
    memory := ((nonce, entry) :: cache.memory.filter (·.1 ≠ nonce)).take cache.maxMemorySize
    insertCount := wrapU64 (cache.insertCount + 1)
    stored := by
      intro e he
      rcases List.mem_cons.mp (List.mem_of_mem_take he) with rfl | hmem
      · simp
      · obtain ⟨hmem, hne⟩ := List.mem_filter.mp hmem
        rw [AList.lookup_insert_ne (of_decide_eq_true hne), cache.stored e hmem] }

/-- Whether the nonce is new, with the cache. Every insertion counts towards the next pruning. -/
def markNonceSeen (cache : NonceCache) (nonce : Bytes 32) (now : Int) (prunedAt : Nat) : Bool × NonceCache :=
  if cache.memory.any (·.1 = nonce) then (false, cache)
  else if (cache.db.lookup nonce).isSome then (false, cache)
  else
    let cache := cache.put nonce ⟨now, (now % 2 ^ 64).toNat⟩
    (true, if cache.insertCount % pruneEveryNInserts = 0 then cache.pruneSeenNonces (cache.cutoff prunedAt) else cache)

/-- The nonce itself is the fingerprint, and the time of the message is not used. -/
def checkAndStore (cache : NonceCache) (nonce : Bytes 32) (now prunedAt : Nat) : Except String Unit × NonceCache :=
  let (isNew, cache) := cache.markNonceSeen nonce (asI64 now) prunedAt
  (if isNew then .ok () else .error "Replay detected: nonce already used", cache)

/-! ### One nonce -/

variable {cache : NonceCache} {nonce nonce' : Bytes 32}

/-- The entry of the nonce, if there is one, is not pruned at the time given. -/
def Keeps (cache : NonceCache) (nonce : Bytes 32) (prunedAt : Nat) : Prop :=
  ∀ entry ∈ cache.db.lookup nonce, ¬ entry.firstSeenUnix < cache.cutoff prunedAt

theorem markNonceSeen_fst (cache : NonceCache) (nonce : Bytes 32) (now : Int) (prunedAt : Nat) :
    (cache.markNonceSeen nonce now prunedAt).1 = (cache.db.lookup nonce).isNone := by
  unfold markNonceSeen
  split
  · next hmem =>
    obtain ⟨entry, hentry, heq⟩ := List.any_eq_true.mp hmem
    have hstored := cache.stored entry hentry
    rw [of_decide_eq_true heq] at hstored
    simp [hstored]
  · cases cache.db.lookup nonce <;> rfl

theorem ttl_markNonceSeen (cache : NonceCache) (nonce : Bytes 32) (now : Int) (prunedAt : Nat) :
    (cache.markNonceSeen nonce now prunedAt).2.ttl = cache.ttl := by
  unfold markNonceSeen
  dsimp only
  repeat' split
  all_goals rfl

theorem lookup_markNonceSeen (hne : nonce ≠ nonce') {prunedAt : Nat} (hkeeps : cache.Keeps nonce prunedAt)
    (now : Int) : (cache.markNonceSeen nonce' now prunedAt).2.db.lookup nonce = cache.db.lookup nonce := by
  have hput : ∀ entry, (cache.put nonce' entry).db.lookup nonce = cache.db.lookup nonce :=
    fun entry => AList.lookup_insert_ne hne
  unfold markNonceSeen
  dsimp only
  split
  · rfl
  · split
    · rfl
    · split
      · rw [pruneSeenNonces, HashMap.lookup_retain, hput]
        cases hlookup : cache.db.lookup nonce with
        | none => rfl
        | some entry => exact Option.filter_eq_some_iff.mpr ⟨rfl, decide_eq_true (hkeeps entry hlookup)⟩
      · exact hput _

end NonceCache

/-! ## Verification -/

/-- A hello with its context and the readings of the clock. -/
structure Verification where
  hello : ClientHello
  ctx : HandshakeContext
  checkedAt : Nat
  storedAt : Nat
  prunedAt : Nat

namespace Verification

variable (X : Externals)

def checksBefore (v : Verification) : Except String Unit := v.hello.checksBeforeNonce X v.ctx v.checkedAt

/-- The result with the cache after it: the nonce stays stored when a later check fails. -/
def verifySignature (v : Verification) (cache : NonceCache) : Except String Unit × NonceCache :=
  match v.checksBefore X with
  | .error e => (.error e, cache)
  | .ok () =>
    match cache.checkAndStore v.hello.challengeNonce v.storedAt v.prunedAt with
    | (.error e, cache) => (.error e, cache)
    | (.ok (), cache) => (v.hello.checksAfterNonce X v.ctx, cache)

def next (cache : NonceCache) (v : Verification) : NonceCache := (v.verifySignature X cache).2

variable {X}

theorem next_cases (cache : NonceCache) (v : Verification) :
    next X cache v = cache ∨ v.checksBefore X = .ok () ∧
      next X cache v = (cache.markNonceSeen v.hello.challengeNonce (asI64 v.storedAt) v.prunedAt).2 := by
  unfold next verifySignature
  split
  · exact Or.inl rfl
  · next hok =>
    refine Or.inr ⟨hok, ?_⟩
    split
    all_goals next hstore => exact (congrArg Prod.snd hstore).symm

theorem verifySignature_congr {cache cache' : NonceCache} (m : Verification)
    (h : cache.db.lookup m.hello.challengeNonce = cache'.db.lookup m.hello.challengeNonce) :
    (m.verifySignature X cache).1 = (m.verifySignature X cache').1 := by
  unfold verifySignature NonceCache.checkAndStore
  simp only [NonceCache.markNonceSeen_fst, h]
  split
  · rfl
  · cases (cache'.db.lookup m.hello.challengeNonce).isNone <;> rfl

theorem run_keeps {cache : NonceCache} {nonce : Bytes 32} {others : List Verification}
    (hothers : ∀ v ∈ others, v.checksBefore X = .ok () → v.hello.challengeNonce ≠ nonce)
    (hkeeps : ∀ v ∈ others, cache.Keeps nonce v.prunedAt) :
    (run (next X) cache others).db.lookup nonce = cache.db.lookup nonce := by
  have hrun : Along (next X) (fun _ v => (v.checksBefore X = .ok () → v.hello.challengeNonce ≠ nonce) ∧
      cache.Keeps nonce v.prunedAt) cache others :=
    Along.of_mem cache fun v hv => ⟨hothers v hv, hkeeps v hv⟩
  -- the time to live stays, so that the times of pruning mean the same in every cache of the run
  refine (hrun.invariant (I := fun c => c.db.lookup nonce = cache.db.lookup nonce ∧ c.ttl = cache.ttl)
    ?_ ⟨rfl, rfl⟩).1
  rintro c v ⟨hother, hkeep⟩ ⟨hlookup, httl⟩
  rcases next_cases (X := X) c v with hnext | ⟨hok, hnext⟩
  · rw [hnext]
    exact ⟨hlookup, httl⟩
  · have hc : c.Keeps nonce v.prunedAt := by
      unfold NonceCache.Keeps NonceCache.cutoff
      rw [hlookup, httl]
      exact hkeep
    rw [hnext, NonceCache.lookup_markNonceSeen (hother hok).symm hc, NonceCache.ttl_markNonceSeen]
    exact ⟨hlookup, httl⟩

/-- Hellos that fail a check before their nonce is stored, or carry another nonce, do not change the result of a later
one, unless a pruning drops its nonce. -/
theorem verifySignature_after_others (cache : NonceCache) (m : Verification) (others : List Verification)
    (hothers : ∀ v ∈ others, v.checksBefore X = .ok () → v.hello.challengeNonce ≠ m.hello.challengeNonce)
    (hkeeps : ∀ v ∈ others, cache.Keeps m.hello.challengeNonce v.prunedAt) :
    (m.verifySignature X (run (next X) cache others)).1 = (m.verifySignature X cache).1 :=
  verifySignature_congr m (run_keeps hothers hkeeps)

end Verification

/-! ### A copy with another signature -/

/-- Node ids are zero, and a signature is valid when it starts with a one. -/
def sampleExternals : Externals where
  serializeCapabilities := fun _ => []
  nodeIdFromDidDevice := fun _ _ => .ok 0
  dilithiumVerify := fun _ _ signature => signature.head? = some 1

def NonceCache.empty : NonceCache := ⟨[], ∅, 300, 1000, 0, by simp⟩

def sampleCapabilities : HandshakeCapabilities where
  protocols := ["quic"]
  maxThroughput := 0
  maxMessageSize := 0
  encryptionMethods := []
  pqcCapability := .kyber1024Dilithium5
  dhtCapable := false
  relayCapable := false
  storageCapacity := 0
  web4Capable := false
  customFeatures := []

def sampleHello (nonce : Bytes 32) (signature : List UInt8) : ClientHello where
  identity := ⟨"did:zhtp:a", .ofKeyId 1, 0, "phone"⟩
  capabilities := sampleCapabilities
  networkId := "net"
  protocolId := "uhp"
  purpose := "mesh"
  role := .client
  channelBinding := [7]
  challengeNonce := nonce
  signature := signature
  timestamp := 1700000000
  protocolVersion := 2
  pqcOffer := some ⟨.kyber1024Dilithium5, [], [], []⟩

def sampleContext : HandshakeContext where
  domain := ⟨"net", "uhp", "mesh"⟩
  peerRole := .client
  channelBinding := [7]

def sampleVerification (nonce : Bytes 32) (signature : List UInt8) : Verification where
  hello := sampleHello nonce signature
  ctx := sampleContext
  checkedAt := 1700000000
  storedAt := 1700000000
  prunedAt := 1700000000

namespace Verification

/-- An unsigned hello with another nonce, and one with the same nonce for another role. -/
theorem verifySignature_after_two_others :
    (verifySignature sampleExternals (sampleVerification 5 (List.replicate 4595 1))
        (run (next sampleExternals) .empty
          [sampleVerification 6 [],
            { sampleVerification 5 [] with hello := { sampleHello 5 [] with role := .router } }])).1 =
      (verifySignature sampleExternals (sampleVerification 5 (List.replicate 4595 1)) .empty).1 := by
  refine verifySignature_after_others .empty _ _ ?_ ?_
  · intro v hv hok
    rcases List.mem_pair.mp hv with rfl | rfl
    · decide
    · revert hok
      decide +kernel
  · intro v _ entry hentry
    simp [NonceCache.empty] at hentry

/-- A copy of a hello with another signature fails, and its nonce stays stored. -/
theorem forged_copy_blocks_hello :
    (verifySignature sampleExternals (sampleVerification 5 (List.replicate 4595 1)) .empty).1 = .ok () ∧
      (verifySignature sampleExternals (sampleVerification 5 []) .empty).1 = .error "Signature verification failed" ∧
      (verifySignature sampleExternals (sampleVerification 5 (List.replicate 4595 1))
        (run (next sampleExternals) .empty [sampleVerification 5 []])).1 =
          .error "Replay detected: nonce already used" := by
  decide +kernel

end Verification

end SovereignNetwork.Handshake
