import SovereignNetwork.Handshake.Hello
import SovereignNetwork.Lib.Delimited

/-!
# What the handshake signs, hashes and derives keys from

The signed inputs have length prefixes and a byte for the kind of the message. The context of a session key has zero bytes
between its texts, and the transcript has nothing between its messages.
-/

namespace SovereignNetwork.Handshake

open Lib
open Execution (bytesOf bytesOf_inj)

variable (X : Externals)

def ServerHello.dataToSign (clientNonce clientHelloHash : Bytes 32) (identity : NodeIdentity)
    (capabilities : HandshakeCapabilities) (domain : HandshakeDomain) (role : HandshakeRole)
    (channelBinding : List UInt8) (timestamp protocolVersion : Nat) : List UInt8 :=
  [0x02] ++ clientNonce.asSlice ++ clientHelloHash.asSlice ++ identity.nodeId.asSlice ++ X.serializeCapabilities capabilities ++
    appendLenPrefixed (bytesOf domain.networkId) ++ appendLenPrefixed (bytesOf domain.protocolId) ++
    appendLenPrefixed (bytesOf domain.purpose) ++ [role.asU8] ++ appendLenPrefixed channelBinding ++
    toLeBytes 8 timestamp ++ [UInt8.ofNat protocolVersion]

def ClientFinish.dataToSign (serverNonce transcriptHash : Bytes 32) (domain : HandshakeDomain) (role : HandshakeRole)
    (channelBinding : List UInt8) (timestamp protocolVersion : Nat) : List UInt8 :=
  [0x03] ++ serverNonce.asSlice ++ transcriptHash.asSlice ++ appendLenPrefixed (bytesOf domain.networkId) ++
    appendLenPrefixed (bytesOf domain.protocolId) ++ appendLenPrefixed (bytesOf domain.purpose) ++ [role.asU8] ++
    appendLenPrefixed channelBinding ++ toLeBytes 8 timestamp ++ [UInt8.ofNat protocolVersion]

/-- The bytes that `compute_transcript_hash` hashes. -/
def transcriptInput (parts : List (List UInt8)) : List UInt8 := parts.flatten

@[ext]
structure SessionContext where
  protocolVersion : Nat
  clientDid : String
  serverDid : String
  timestamp : Nat
  networkId : String
  protocolId : String
  purpose : String
  clientRole : UInt8
  serverRole : UInt8
  channelBinding : List UInt8

def buildContextInfo (context : SessionContext) : List UInt8 :=
  bytesOf "ZHTP-NETWORK-SESSION-ONLY-v2" ++ [0x00] ++ toLeBytes 4 context.protocolVersion ++
    (bytesOf context.clientDid ++ [0x00]) ++ (bytesOf context.serverDid ++ [0x00]) ++
    (bytesOf context.networkId ++ [0x00]) ++ (bytesOf context.protocolId ++ [0x00]) ++
    (bytesOf context.purpose ++ [0x00]) ++ [context.clientRole] ++ [context.serverRole] ++ [0x00] ++
    context.channelBinding ++ toLeBytes 8 context.timestamp

/-- `char::is_whitespace`. -/
def isWhitespace (c : Char) : Bool :=
  let n := c.toNat
  (0x09 ≤ n && n ≤ 0x0D) || (0x2000 ≤ n && n ≤ 0x200A) ||
    n ∈ [0x20, 0x85, 0xA0, 0x1680, 0x2028, 0x2029, 0x202F, 0x205F, 0x3000]

def validateDid (did : String) : Except String Unit := do
  let len := did.utf8ByteSize
  if did = "" then
    throw "DID cannot be empty"
  if 256 < len then
    throw s!"DID too long: {len} characters (max 256)"
  if ¬ "did:zhtp:".toList.isPrefixOf did.toList then
    throw s!"Invalid DID format: must start with 'did:zhtp:', got '{did}'"
  let idPart := did.toList.drop 9
  if idPart = [] then
    throw "DID must have an identifier after 'did:zhtp:'"
  if idPart.any isWhitespace then
    throw "DID identifier cannot contain whitespace"
  if idPart.any ("!@#$%^&*()+=[]\x7b\x7d|\\;:'\",<>?/".toList.contains ·) then
    throw "DID identifier contains invalid special characters"

/-! ## Fields -/

theorem toLeBytes_succ (n x : Nat) : toLeBytes (n + 1) x = UInt8.ofNat x :: toLeBytes n (x >>> 8) := by
  rw [toLeBytes, toLeBytes, List.range_succ_eq_map, List.map_cons, List.map_map]
  refine congrArg _ (List.map_congr_left fun i _ => ?_)
  simp only [Function.comp_apply, Nat.succ_eq_add_one, ← Nat.shiftRight_add]
  congr 2
  omega

theorem toLeBytes_inj {n x y : Nat} (hx : x < 2 ^ (8 * n)) (hy : y < 2 ^ (8 * n)) (h : toLeBytes n x = toLeBytes n y) :
    x = y := by
  induction n generalizing x y with
  | zero => omega
  | succ n ih =>
    rw [toLeBytes_succ, toLeBytes_succ, List.cons.injEq] at h
    have hlow : x % 256 = y % 256 := by simpa using congrArg UInt8.toNat h.1
    have hpow : 2 ^ (8 * (n + 1)) = 256 * 2 ^ (8 * n) := by
      rw [Nat.mul_succ, Nat.pow_add, Nat.mul_comm]
    have hhigh := ih (x := x >>> 8) (y := y >>> 8) (by rw [Nat.shiftRight_eq_div_pow]; omega)
      (by rw [Nat.shiftRight_eq_div_pow]; omega) h.2
    rw [Nat.shiftRight_eq_div_pow, Nat.shiftRight_eq_div_pow] at hhigh
    omega

theorem delimited_toLeBytes (n : Nat) : Delimited (toLeBytes n) (· < 2 ^ (8 * n)) :=
  .of_length n (fun x => by simp [toLeBytes]) fun _ _ hx hy h => toLeBytes_inj hx hy h

theorem delimited_asSlice : Delimited (Bytes.asSlice (n := 32)) fun _ => True :=
  .of_length 32 Bytes.length_asSlice fun _ _ _ _ => Bytes.asSlice_inj

theorem delimited_byte : Delimited (fun byte : UInt8 => [byte]) fun _ => True :=
  .of_length 1 (fun _ => rfl) fun _ _ _ _ h => List.singleton_inj.mp h

theorem delimited_appendLenPrefixed : Delimited appendLenPrefixed fun bytes => bytes.length < 2 ^ 32 :=
  (delimited_toLeBytes 4).lengthFirst

theorem delimited_text : Delimited (fun text => appendLenPrefixed (bytesOf text)) fun text => (bytesOf text).length < 2 ^ 32 :=
  delimited_appendLenPrefixed.comp fun _ _ => bytesOf_inj

theorem delimited_version : Delimited (fun version => [UInt8.ofNat version]) (· < 256) :=
  .of_length 1 (fun _ => rfl) fun v v' hv hv' h => by
    have h := congrArg UInt8.toNat (List.singleton_inj.mp h)
    simpa [Nat.mod_eq_of_lt hv, Nat.mod_eq_of_lt hv'] using h

theorem asU8_inj {r r' : HandshakeRole} (h : r.asU8 = r'.asU8) : r = r' := by
  revert h
  cases r <;> cases r' <;> decide

/-! ## Signed inputs -/

inductive SigningInput
  | clientHello (identity : NodeIdentity) (capabilities : HandshakeCapabilities) (domain : HandshakeDomain)
      (role : HandshakeRole) (channelBinding : List UInt8) (nonce : Bytes 32) (timestamp protocolVersion : Nat)
  | serverHello (clientNonce clientHelloHash : Bytes 32) (identity : NodeIdentity) (capabilities : HandshakeCapabilities)
      (domain : HandshakeDomain) (role : HandshakeRole) (channelBinding : List UInt8) (timestamp protocolVersion : Nat)
  | clientFinish (serverNonce transcriptHash : Bytes 32) (domain : HandshakeDomain) (role : HandshakeRole)
      (channelBinding : List UInt8) (timestamp protocolVersion : Nat)

namespace SigningInput

def bytes : SigningInput → List UInt8
  | clientHello identity capabilities domain role binding nonce timestamp version =>
    ClientHello.dataToSign X identity capabilities domain role binding nonce timestamp version
  | serverHello nonce helloHash identity capabilities domain role binding timestamp version =>
    ServerHello.dataToSign X nonce helloHash identity capabilities domain role binding timestamp version
  | clientFinish nonce transcriptHash domain role binding timestamp version =>
    ClientFinish.dataToSign nonce transcriptHash domain role binding timestamp version

/-- Of an identity only the node id is signed. -/
def signed : SigningInput → SigningInput
  | clientHello identity capabilities domain role binding nonce timestamp version =>
    clientHello ⟨"", .ofKeyId 0, identity.nodeId, ""⟩ capabilities domain role binding nonce timestamp version
  | serverHello nonce helloHash identity capabilities domain role binding timestamp version =>
    serverHello nonce helloHash ⟨"", .ofKeyId 0, identity.nodeId, ""⟩ capabilities domain role binding timestamp version
  | input => input

def capabilities? : SigningInput → Option HandshakeCapabilities
  | clientHello _ capabilities .. => some capabilities
  | serverHello _ _ _ capabilities .. => some capabilities
  | clientFinish .. => none

def shared : SigningInput → HandshakeDomain × List UInt8 × Nat × Nat
  | clientHello _ _ domain _ binding _ timestamp version => (domain, binding, timestamp, version)
  | serverHello _ _ _ _ domain _ binding timestamp version => (domain, binding, timestamp, version)
  | clientFinish _ _ domain _ binding timestamp version => (domain, binding, timestamp, version)

/-- Texts and byte strings are shorter than `2^32`, numbers have the size of their types, and capabilities are among those
that are sent. -/
structure InRange (sent : HandshakeCapabilities → Prop) (input : SigningInput) : Prop where
  networkId : (bytesOf input.shared.1.networkId).length < 2 ^ 32
  protocolId : (bytesOf input.shared.1.protocolId).length < 2 ^ 32
  purpose : (bytesOf input.shared.1.purpose).length < 2 ^ 32
  channelBinding : input.shared.2.1.length < 2 ^ 32
  timestamp : input.shared.2.2.1 < 2 ^ 64
  protocolVersion : input.shared.2.2.2 < 256
  capabilities : ∀ c ∈ input.capabilities?, sent c

theorem shared_fields {d d' : HandshakeDomain} {r r' : HandshakeRole} {b b' rest rest' : List UInt8}
    (hnetwork : (bytesOf d.networkId).length < 2 ^ 32 ∧ (bytesOf d'.networkId).length < 2 ^ 32)
    (hprotocol : (bytesOf d.protocolId).length < 2 ^ 32 ∧ (bytesOf d'.protocolId).length < 2 ^ 32)
    (hpurpose : (bytesOf d.purpose).length < 2 ^ 32 ∧ (bytesOf d'.purpose).length < 2 ^ 32)
    (hbinding : b.length < 2 ^ 32 ∧ b'.length < 2 ^ 32)
    (h : appendLenPrefixed (bytesOf d.networkId) ++ (appendLenPrefixed (bytesOf d.protocolId) ++
        (appendLenPrefixed (bytesOf d.purpose) ++ ([r.asU8] ++ (appendLenPrefixed b ++ rest)))) =
      appendLenPrefixed (bytesOf d'.networkId) ++ (appendLenPrefixed (bytesOf d'.protocolId) ++
        (appendLenPrefixed (bytesOf d'.purpose) ++ ([r'.asU8] ++ (appendLenPrefixed b' ++ rest'))))) :
    d = d' ∧ r = r' ∧ b = b' ∧ rest = rest' := by
  obtain ⟨hn, h⟩ := delimited_text _ _ _ _ hnetwork.1 hnetwork.2 h
  obtain ⟨hp, h⟩ := delimited_text _ _ _ _ hprotocol.1 hprotocol.2 h
  obtain ⟨hu, h⟩ := delimited_text _ _ _ _ hpurpose.1 hpurpose.2 h
  obtain ⟨hr, h⟩ := delimited_byte _ _ _ _ trivial trivial h
  obtain ⟨hb, h⟩ := delimited_appendLenPrefixed _ _ _ _ hbinding.1 hbinding.2 h
  refine ⟨?_, asU8_inj hr, hb, h⟩
  cases d
  cases d'
  simp_all

theorem timestamp_version {t t' v v' : Nat} (ht : t < 2 ^ 64 ∧ t' < 2 ^ 64) (hv : v < 256 ∧ v' < 256)
    (h : toLeBytes 8 t ++ [UInt8.ofNat v] = toLeBytes 8 t' ++ [UInt8.ofNat v']) : t = t' ∧ v = v' := by
  obtain ⟨htime, h⟩ := delimited_toLeBytes 8 _ _ _ _ ht.1 ht.2 h
  exact ⟨htime, (delimited_version v v' [] [] hv.1 hv.2 h).1⟩

variable {sent : HandshakeCapabilities → Prop} (hdelimited : Delimited X.serializeCapabilities sent)
include hdelimited

theorem signed_of_bytes {x y : SigningInput} (hx : x.InRange sent) (hy : y.InRange sent) (h : x.bytes X = y.bytes X) :
    x.signed = y.signed := by
  have hnetwork := And.intro hx.networkId hy.networkId
  have hprotocol := And.intro hx.protocolId hy.protocolId
  have hpurpose := And.intro hx.purpose hy.purpose
  have hbinding := And.intro hx.channelBinding hy.channelBinding
  have htime := And.intro hx.timestamp hy.timestamp
  have hversion := And.intro hx.protocolVersion hy.protocolVersion
  -- the first byte tells the kinds apart
  cases x <;> cases y <;> simp only [bytes, ClientHello.dataToSign, ServerHello.dataToSign, ClientFinish.dataToSign,
    List.append_assoc, shared] at h hnetwork hprotocol hpurpose hbinding htime hversion
  case clientHello.clientHello =>
    obtain ⟨-, h⟩ := delimited_byte _ _ _ _ trivial trivial h
    obtain ⟨hid, h⟩ := delimited_asSlice _ _ _ _ trivial trivial h
    obtain ⟨hcapabilities, h⟩ := hdelimited _ _ _ _ (hx.capabilities _ rfl) (hy.capabilities _ rfl) h
    obtain ⟨hdomain, hrole, hbytes, h⟩ := shared_fields hnetwork hprotocol hpurpose hbinding h
    obtain ⟨hnonce, h⟩ := delimited_asSlice _ _ _ _ trivial trivial h
    obtain ⟨hstamp, hnumber⟩ := timestamp_version htime hversion h
    rw [signed, signed, hid, hcapabilities, hdomain, hrole, hbytes, hnonce, hstamp, hnumber]
  case serverHello.serverHello =>
    obtain ⟨-, h⟩ := delimited_byte _ _ _ _ trivial trivial h
    obtain ⟨hnonce, h⟩ := delimited_asSlice _ _ _ _ trivial trivial h
    obtain ⟨hhash, h⟩ := delimited_asSlice _ _ _ _ trivial trivial h
    obtain ⟨hid, h⟩ := delimited_asSlice _ _ _ _ trivial trivial h
    obtain ⟨hcapabilities, h⟩ := hdelimited _ _ _ _ (hx.capabilities _ rfl) (hy.capabilities _ rfl) h
    obtain ⟨hdomain, hrole, hbytes, h⟩ := shared_fields hnetwork hprotocol hpurpose hbinding h
    obtain ⟨hstamp, hnumber⟩ := timestamp_version htime hversion h
    rw [signed, signed, hid, hnonce, hhash, hcapabilities, hdomain, hrole, hbytes, hstamp, hnumber]
  case clientFinish.clientFinish =>
    obtain ⟨-, h⟩ := delimited_byte _ _ _ _ trivial trivial h
    obtain ⟨hnonce, h⟩ := delimited_asSlice _ _ _ _ trivial trivial h
    obtain ⟨hhash, h⟩ := delimited_asSlice _ _ _ _ trivial trivial h
    obtain ⟨hdomain, hrole, hbytes, h⟩ := shared_fields hnetwork hprotocol hpurpose hbinding h
    obtain ⟨hstamp, hnumber⟩ := timestamp_version htime hversion h
    rw [hnonce, hhash, hdomain, hrole, hbytes, hstamp, hnumber]
  all_goals exact absurd (delimited_byte _ _ _ _ trivial trivial h).1 (by decide)

theorem bytes_eq_iff {x y : SigningInput} (hx : x.InRange sent) (hy : y.InRange sent) :
    x.bytes X = y.bytes X ↔ x.signed = y.signed := by
  have hsigned (x : SigningInput) : x.bytes X = x.signed.bytes X := by cases x <;> rfl
  exact ⟨signed_of_bytes X hdelimited hx hy, fun h => by rw [hsigned x, hsigned y, h]⟩

end SigningInput

/-! ## Session contexts and transcripts -/

structure SessionContext.InRange (context : SessionContext) : Prop where
  protocolVersion : context.protocolVersion < 2 ^ 32
  timestamp : context.timestamp < 2 ^ 64

def SessionContext.texts (context : SessionContext) : List String :=
  [context.clientDid, context.serverDid, context.networkId, context.protocolId, context.purpose]

/-- Texts at the same place have the same number of zero bytes, as those without any. -/
def SessionContext.ZerosAlike (context context' : SessionContext) : Prop :=
  List.Forall₂ (fun text text' => (bytesOf text).count 0 = (bytesOf text').count 0) context.texts context'.texts

theorem buildContextInfo_inj {c c' : SessionContext} (hc : c.InRange) (hc' : c'.InRange) (hzero : c.ZerosAlike c')
    (h : buildContextInfo c = buildContextInfo c') : c = c' := by
  have htext {t t' : String} {rest rest' : List UInt8} (ht : (bytesOf t).count 0 = (bytesOf t').count 0)
      (h : bytesOf t ++ ([0x00] ++ rest) = bytesOf t' ++ ([0x00] ++ rest')) : t = t' ∧ rest = rest' := by
    obtain ⟨htext, hrest⟩ := Delimited.terminated (0 : UInt8) _ _ _ rest rest' ht rfl (by simpa using h)
    exact ⟨bytesOf_inj htext, hrest⟩
  simp only [SessionContext.ZerosAlike, SessionContext.texts, List.forall₂_cons] at hzero
  obtain ⟨hz1, hz2, hz3, hz4, hz5, -⟩ := hzero
  -- the timestamp is told apart from the right, as nothing ends the channel binding
  obtain ⟨h, hstamp⟩ := List.append_inj' h (by simp [toLeBytes])
  have hstamp := toLeBytes_inj hc.timestamp hc'.timestamp hstamp
  simp only [List.append_assoc] at h
  have h := List.append_cancel_left (List.append_cancel_left h)
  obtain ⟨hversion, h⟩ := delimited_toLeBytes 4 _ _ _ _ hc.protocolVersion hc'.protocolVersion h
  obtain ⟨hclient, h⟩ := htext hz1 h
  obtain ⟨hserver, h⟩ := htext hz2 h
  obtain ⟨hnetwork, h⟩ := htext hz3 h
  obtain ⟨hprotocol, h⟩ := htext hz4 h
  obtain ⟨hpurpose, h⟩ := htext hz5 h
  obtain ⟨hclientRole, h⟩ := delimited_byte _ _ _ _ trivial trivial h
  obtain ⟨hserverRole, h⟩ := delimited_byte _ _ _ _ trivial trivial h
  have hbinding := List.append_cancel_left h
  exact SessionContext.ext hversion hclient hserver hstamp hnetwork hprotocol hpurpose hclientRole hserverRole hbinding

/-- Messages at the same place are the same, or none begins the other. -/
def NoneBegins (parts parts' : List (List UInt8)) : Prop :=
  List.Forall₂ (fun message message' => message <+: message' ∨ message' <+: message → message = message') parts parts'

theorem transcriptInput_inj {parts parts' : List (List UInt8)} (hbegins : NoneBegins parts parts')
    (h : transcriptInput parts = transcriptInput parts') : parts = parts' := by
  induction hbegins with
  | nil => rfl
  | @cons message message' parts parts' hmessage _ ih =>
    have h : message ++ parts.flatten = message' ++ parts'.flatten := h
    obtain rfl := hmessage (List.prefix_or_prefix_of_prefix (List.prefix_append message parts.flatten)
      (h ▸ List.prefix_append message' parts'.flatten))
    rw [ih (List.append_cancel_left h)]

/-- Signed inputs tell messages apart exactly if these differ in more than what belongs to an identity beside its node id.
Contexts whose texts have the same numbers of zero bytes, and transcripts in which no message begins the one in its place, are
told apart as well. -/
theorem encodings_unambiguous (X : Externals) (sent : HandshakeCapabilities → Prop)
    (hdelimited : Delimited X.serializeCapabilities sent) (x y : SigningInput) (c c' : SessionContext)
    (parts parts' : List (List UInt8)) :
    (x.InRange sent → y.InRange sent → ((x.bytes X = y.bytes X → x = y) ↔ (x.signed = y.signed → x = y))) ∧
    (c.InRange → c'.InRange → c.ZerosAlike c' → buildContextInfo c = buildContextInfo c' → c = c') ∧
    (NoneBegins parts parts' → transcriptInput parts = transcriptInput parts' → parts = parts') := by
  refine ⟨fun hx hy => ?_, buildContextInfo_inj, transcriptInput_inj⟩
  rw [SigningInput.bytes_eq_iff X hdelimited hx hy]

def sampleDomain : HandshakeDomain := ⟨"zhtp-mainnet", "uhp", "zhtp-node-handshake"⟩

def capabilitiesOf (throughput : Nat) : HandshakeCapabilities :=
  ⟨["quic"], throughput, 0, [], .kyber1024Dilithium5, false, false, 0, false, []⟩

/-- Capabilities are told apart by their throughput here. -/
def oneByteExternals : Externals where
  serializeCapabilities capabilities := [UInt8.ofNat capabilities.maxThroughput]
  nodeIdFromDidDevice := fun _ _ => .ok 0
  dilithiumVerify := fun _ _ _ => true

def SmallThroughput (capabilities : HandshakeCapabilities) : Prop :=
  ∃ throughput < 256, capabilities = capabilitiesOf throughput

theorem delimited_oneByteExternals : Delimited oneByteExternals.serializeCapabilities SmallThroughput :=
  .of_length 1 (fun _ => rfl) fun _ _ ⟨t, ht, hc⟩ ⟨t', ht', hc'⟩ h => by
    subst hc hc'
    rw [(delimited_version t t' [] [] ht ht' h).1]

def sampleHelloInput (throughput : Nat) : SigningInput :=
  .clientHello ⟨"did:zhtp:a", .ofKeyId 1, 0, "phone"⟩ (capabilitiesOf throughput) sampleDomain .client [] 1 1700000000 2

def sampleSession (serverDid networkId : String) : SessionContext :=
  ⟨2, "did:zhtp:client", serverDid, 1700000000, networkId, "uhp", "zhtp-node-handshake", 0, 1, []⟩

theorem inRange_sampleHelloInput {throughput : Nat} (h : throughput < 256) :
    (sampleHelloInput throughput).InRange SmallThroughput where
  networkId := (by decide +kernel : (bytesOf sampleDomain.networkId).length < 2 ^ 32)
  protocolId := (by decide +kernel : (bytesOf sampleDomain.protocolId).length < 2 ^ 32)
  purpose := (by decide +kernel : (bytesOf sampleDomain.purpose).length < 2 ^ 32)
  channelBinding := (by decide : 0 < 2 ^ 32)
  timestamp := (by decide : 1700000000 < 2 ^ 64)
  protocolVersion := (by decide : 2 < 256)
  capabilities _ hc := ⟨throughput, h, (Option.some.inj hc).symm⟩

/-- Different values have different encodings, also with a zero byte in both server ids. -/
theorem encodings_unambiguous_sample :
    (sampleHelloInput 2).bytes oneByteExternals ≠ (sampleHelloInput 3).bytes oneByteExternals ∧
      buildContextInfo (sampleSession "did:zhtp:s\x00x" "n") ≠ buildContextInfo (sampleSession "did:zhtp:s\x00x" "m") ∧
      transcriptInput [[1], [0, 1]] ≠ transcriptInput [[0, 1], [1]] := by
  obtain ⟨hsigned, hcontext, htranscript⟩ := encodings_unambiguous oneByteExternals SmallThroughput
    delimited_oneByteExternals (sampleHelloInput 2) (sampleHelloInput 3) (sampleSession "did:zhtp:s\x00x" "n")
    (sampleSession "did:zhtp:s\x00x" "m") [[1], [0, 1]] [[0, 1], [1]]
  have hdiffer : (sampleHelloInput 2).signed ≠ (sampleHelloInput 3).signed := by
    simp [sampleHelloInput, SigningInput.signed, capabilitiesOf]
  refine ⟨fun h => ?_, fun h => ?_, fun h => ?_⟩
  · have heq := (hsigned (inRange_sampleHelloInput (by decide)) (inRange_sampleHelloInput (by decide))).mpr
      (fun h => absurd h hdiffer) h
    exact hdiffer (congrArg SigningInput.signed heq)
  · have hzeros : (sampleSession "did:zhtp:s\x00x" "n").ZerosAlike (sampleSession "did:zhtp:s\x00x" "m") := by
      simp only [SessionContext.ZerosAlike, SessionContext.texts, sampleSession, List.forall₂_cons, List.Forall₂.nil,
        true_and, and_true]
      decide +kernel
    have heq := hcontext ⟨by decide, by decide⟩ ⟨by decide, by decide⟩ hzeros h
    exact absurd (congrArg SessionContext.networkId heq) (by decide)
  · have hbegins : NoneBegins [[1], [0, 1]] [[0, 1], [1]] :=
      .cons (fun h => absurd h (by decide)) (.cons (fun h => absurd h (by decide)) .nil)
    exact absurd (htranscript hbegins h) (by decide)

/-- Valid ids with a zero byte give one context of two, messages can be cut in two ways, and an identity is signed by its
node id only. -/
theorem encodings_collide :
    validateDid "did:zhtp:s\x00x" = .ok () ∧ validateDid "did:zhtp:s" = .ok () ∧
      buildContextInfo (sampleSession "did:zhtp:s\x00x" "n") = buildContextInfo (sampleSession "did:zhtp:s" "x\x00n") ∧
      transcriptInput [[1, 2], [3]] = transcriptInput [[1], [2, 3]] ∧
      ∀ (X : Externals) (identity : NodeIdentity) (did : String) (capabilities : HandshakeCapabilities),
        ClientHello.dataToSign X identity capabilities sampleDomain .client [] 1 1700000000 2 =
          ClientHello.dataToSign X { identity with did := did } capabilities sampleDomain .client [] 1 1700000000 2 :=
  ⟨by decide +kernel, by decide +kernel, by decide +kernel, by decide, fun _ _ _ _ => rfl⟩

end SovereignNetwork.Handshake
