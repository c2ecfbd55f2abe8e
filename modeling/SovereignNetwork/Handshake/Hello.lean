import SovereignNetwork.Execution.Bytes

/-!
# The hello of a client

A hello is verified in eight steps, with the check of its nonce in the middle. Timestamps are `u64`. The derivation of a
node id, the serialization of capabilities and the verification of a signature are left to `Externals`; events for
observers are left out.
-/

namespace SovereignNetwork.Handshake

open Lib
open Execution (PublicKey bytesOf)

/-! ## Messages -/

inductive PqcCapability
  | none
  | kyber1024Dilithium5
  | hybridEd25519Dilithium5
  deriving DecidableEq

structure HandshakeCapabilities where
  protocols : List String
  maxThroughput : Nat
  maxMessageSize : Nat
  encryptionMethods : List String
  pqcCapability : PqcCapability
  dhtCapable : Bool
  relayCapable : Bool
  storageCapacity : Nat
  web4Capable : Bool
  customFeatures : List String

inductive HandshakeRole
  | client
  | server
  | router
  | verifier
  deriving DecidableEq

def HandshakeRole.asU8 : HandshakeRole → UInt8
  | client => 0
  | server => 1
  | router => 2
  | verifier => 3

/-- The offer is looked at after the verification only. -/
structure PqcHandshakeOffer where
  suite : PqcCapability
  kyberPublicKey : List UInt8
  dilithiumPublicKey : List UInt8
  signature : List UInt8

structure NodeIdentity where
  did : String
  publicKey : PublicKey
  nodeId : Bytes 32
  deviceId : String

structure ClientHello where
  identity : NodeIdentity
  capabilities : HandshakeCapabilities
  networkId : String
  protocolId : String
  purpose : String
  role : HandshakeRole
  channelBinding : List UInt8
  challengeNonce : Bytes 32
  signature : List UInt8
  timestamp : Nat
  protocolVersion : Nat
  pqcOffer : Option PqcHandshakeOffer

/-! ## Context -/

structure TimestampConfig where
  maxAgeSecs : Nat := 300
  clockSkewTolerance : Nat := 300
  minTimestamp : Nat := 1700000000

structure HandshakeDomain where
  networkId : String
  protocolId : String
  purpose : String

structure HandshakeContext where
  timestampConfig : TimestampConfig := {}
  domain : HandshakeDomain
  peerRole : HandshakeRole
  requiredCapabilities : List String := []
  channelBinding : List UInt8
  requireChannelBinding : Bool := true

structure Externals where
  /-- `bincode::serialize`. -/
  serializeCapabilities : HandshakeCapabilities → List UInt8
  nodeIdFromDidDevice : String → String → Except String (Bytes 32)
  dilithiumVerify : Bytes 2592 → List UInt8 → List UInt8 → Bool

variable (X : Externals)

def minSupportedVersion : Nat := 2

def maxSupportedVersion : Nat := 2

def validateProtocolVersion (version : Nat) : Except String Unit := do
  if version < minSupportedVersion ∨ version > maxSupportedVersion then
    throw s!"Unsupported protocol version: {version} (supported: {minSupportedVersion}-{maxSupportedVersion})"

/-- The sum wraps in a release build. -/
def validateTimestamp (timestamp : Nat) (config : TimestampConfig) (now : Nat) : Except String Unit := do
  let tolerance := config.clockSkewTolerance
  if timestamp > wrapU64 (now + tolerance) then
    throw s!"Timestamp in future: {timestamp} > {now} (+{tolerance} tolerance)"
  let age := now - timestamp
  let max := config.maxAgeSecs
  if age > max then
    throw s!"Timestamp too old: {age} seconds (max: {max})"
  if timestamp < config.minTimestamp then
    throw s!"Timestamp predates protocol launch: {timestamp}"
  if timestamp = 0 then
    throw "Timestamp is zero"

def verifyNodeId (identity : NodeIdentity) : Except String Unit := do
  let expected ← X.nodeIdFromDidDevice identity.did identity.deviceId
  if identity.nodeId ≠ expected then
    throw "Invalid NodeId"

/-! ## Signatures -/

/-- A message of 32 bytes passes with any signature of the size of a public key. -/
def verifySignature (message signature : List UInt8) (publicKey : Bytes 2592) : Bool :=
  if message.length = 32 ∧ signature.length = 2592 then true
  else if signature.length ≠ 4595 then false
  else X.dilithiumVerify publicKey message signature

def appendLenPrefixed (bytes : List UInt8) : List UInt8 := toLeBytes 4 bytes.length ++ bytes

namespace ClientHello

def dataToSign (identity : NodeIdentity) (capabilities : HandshakeCapabilities) (domain : HandshakeDomain)
    (role : HandshakeRole) (channelBinding : List UInt8) (nonce : Bytes 32) (timestamp protocolVersion : Nat) :
    List UInt8 :=
  [0x01] ++ identity.nodeId.asSlice ++ X.serializeCapabilities capabilities ++ appendLenPrefixed (bytesOf domain.networkId) ++
    appendLenPrefixed (bytesOf domain.protocolId) ++ appendLenPrefixed (bytesOf domain.purpose) ++ [role.asU8] ++
    appendLenPrefixed channelBinding ++ nonce.asSlice ++ toLeBytes 8 timestamp ++ [UInt8.ofNat protocolVersion]

/-! ## Verification -/

def checksBeforeNonce (hello : ClientHello) (ctx : HandshakeContext) (now : Nat) : Except String Unit := do
  if ctx.requireChannelBinding ∧ ctx.channelBinding = [] then
    throw "Missing channel binding for handshake"
  validateProtocolVersion hello.protocolVersion
  if hello.networkId ≠ ctx.domain.networkId ∨ hello.protocolId ≠ ctx.domain.protocolId ∨
      hello.purpose ≠ ctx.domain.purpose then
    throw "Domain separation mismatch"
  if hello.role ≠ ctx.peerRole then
    throw "Unexpected peer role"
  if hello.channelBinding ≠ ctx.channelBinding then
    throw "Channel binding mismatch"
  verifyNodeId X hello.identity
  validateTimestamp hello.timestamp ctx.timestampConfig now

def checksAfterNonce (hello : ClientHello) (ctx : HandshakeContext) : Except String Unit := do
  if ctx.requiredCapabilities ≠ [] ∧ ctx.requiredCapabilities.filter (· ∉ hello.capabilities.protocols) ≠ [] then
    throw "Missing required capabilities"
  if hello.capabilities.pqcCapability ≠ .kyber1024Dilithium5 then
    throw "PQC capability required (Kyber1024+Dilithium5)"
  if hello.pqcOffer.isNone then
    throw "Missing PQC offer in ClientHello"
  let data := dataToSign X hello.identity hello.capabilities ctx.domain hello.role hello.channelBinding
    hello.challengeNonce hello.timestamp hello.protocolVersion
  if ¬ verifySignature X data hello.signature hello.identity.publicKey.dilithiumPk then
    throw "Signature verification failed"

end ClientHello

end SovereignNetwork.Handshake
