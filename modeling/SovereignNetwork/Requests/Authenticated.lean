import SovereignNetwork.Execution.Bytes

/-!
# Authenticated requests

The client authenticates method, path and body of a request with a key of the session, together with a sequence number.
The server checks the code, and then that the number is greater than the last one. Streams are handled concurrently: the
load of the last number and its exchange are steps of their own.
-/

namespace SovereignNetwork.Requests

open Lib

/-! ## Requests -/

inductive ZhtpMethod where
  | get
  | post
  | put
  | patch
  | delete
  | head
  | options
  | verify
  | connect
  | trace
  deriving DecidableEq

def ZhtpMethod.byte : ZhtpMethod → UInt8
  | get => 0
  | post => 1
  | put => 2
  | delete => 3
  | patch => 4
  | head => 5
  | options => 6
  | _ => 255

/-- A request. `rest` are the fields that are neither checked nor changed. -/
structure ZhtpRequest (ρ : Type) where
  method : ZhtpMethod
  uri : String
  body : List UInt8
  requester : Option IdentityId
  customHeaders : HashMap String String
  rest : ρ

structure AuthContext where
  sessionId : Bytes 32
  clientDid : String
  sequence : UInt64
  requestMac : Bytes 32

structure ZhtpRequestWire (ρ : Type) where
  authContext : Option AuthContext
  request : ZhtpRequest ρ

/-- HMAC-SHA3-256, and the identity in a DID. -/
structure RequestExternals where
  hmac : Bytes 32 → List UInt8 → Bytes 32
  parseDidToIdentityId : String → Option IdentityId

variable {ρ : Type} (E : RequestExternals)

/-- What is authenticated after the bytes of the request. -/
def macInput (bytes : List UInt8) (counter : UInt64) (sessionId : Bytes 32) : List UInt8 :=
  bytes ++ toBeBytes 8 counter.toNat ++ sessionId.asSlice

/-! ## Client -/

/-- The bytes of a request as the client writes them. Lengths that do not fit are cut. -/
def canonicalBytes (request : ZhtpRequest ρ) : List UInt8 :=
  [request.method.byte] ++ toBeBytes 2 (Execution.bytesOf request.uri).length ++ Execution.bytesOf request.uri ++
    toBeBytes 4 request.body.length ++ request.body

def newAuthenticated (request : ZhtpRequest ρ) (sessionId : Bytes 32) (clientDid : String) (sequence : UInt64)
    (sessionKey : Bytes 32) : ZhtpRequestWire ρ where
  authContext := some ⟨sessionId, clientDid, sequence,
    E.hmac sessionKey (macInput (canonicalBytes request) sequence sessionId)⟩
  request := request

/-! ## Server -/

structure CanonicalRequest where
  method : UInt8
  path : String
  body : List UInt8

/-- There are no bytes for a path or a body whose length does not fit: the code panics. -/
def CanonicalRequest.toBytes (r : CanonicalRequest) : Option (List UInt8) :=
  if (Execution.bytesOf r.path).length < 2 ^ 16 ∧ r.body.length < 2 ^ 32 then
    some ([r.method] ++ toBeBytes 2 (Execution.bytesOf r.path).length ++ Execution.bytesOf r.path ++
      toBeBytes 4 r.body.length ++ r.body)
  else
    none

def computeV2Mac (macKey : Bytes 32) (request : CanonicalRequest) (counter : UInt64) (sessionId : Bytes 32) :
    Option (Bytes 32) :=
  request.toBytes.map fun bytes => E.hmac macKey (macInput bytes counter sessionId)

def verifyV2Mac (macKey : Bytes 32) (request : CanonicalRequest) (counter : UInt64) (sessionId expectedMac : Bytes 32) :
    Option Bool :=
  (computeV2Mac E macKey request counter sessionId).map fun computed => computed = expectedMac

structure V2Session where
  sessionId : Bytes 32
  macKey : Bytes 32
  peerDid : String
  lastCounter : UInt64

/-- The error that is answered, or a panic. -/
inductive Rejection where
  | unauthorized (message : String)
  | panicked

def canonicalOf (request : ZhtpRequest ρ) : CanonicalRequest := ⟨request.method.byte, request.uri, request.body⟩

/-- The checks before that of the counter. They read what does not change in a session. -/
def checkRequest (session : V2Session) (wire : ZhtpRequestWire ρ) : Except Rejection AuthContext := do
  let auth ← okOr wire.authContext (.unauthorized "V2 requires authentication context")
  if auth.clientDid ≠ session.peerDid then
    throw (.unauthorized "Invalid client identity")
  if auth.sessionId ≠ session.sessionId then
    throw (.unauthorized "Invalid session")
  let valid ← okOr (verifyV2Mac E session.macKey (canonicalOf wire.request) auth.sequence session.sessionId auth.requestMac)
    .panicked
  if ¬ valid then
    throw (.unauthorized "MAC verification failed")
  return auth

/-- The request as it is routed. -/
def withPeer (session : V2Session) (peerAddr : String) (request : ZhtpRequest ρ) : ZhtpRequest ρ :=
  { request with
    requester := E.parseDidToIdentityId session.peerDid
    customHeaders := (request.customHeaders.insert "peer_addr" peerAddr).insert "peer_addr_source" "quic" }

/-! ## Streams -/

inductive StreamState (ρ : Type) where
  | checked (request : ZhtpRequest ρ) (sequence : UInt64)
  | loaded (request : ZhtpRequest ρ) (sequence last : UInt64)
  | authenticated (request : ZhtpRequest ρ) (sequence : UInt64)
  | routed (request : ZhtpRequest ρ) (sequence : UInt64)
  | answered (sequence : UInt64)
  | rejected (reason : Rejection)

/-- A request that the client made a code for. -/
structure ClientMac (ρ : Type) where
  request : ZhtpRequest ρ
  sessionId : Bytes 32
  sequence : UInt64

def ClientMac.input (m : ClientMac ρ) : List UInt8 := macInput (canonicalBytes m.request) m.sequence m.sessionId

/-- The server with the streams of a session, the codes that the client made with its key and the successful updates of
the counter, in their order. -/
structure RequestServer (ρ : Type) where
  session : V2Session
  streams : List (StreamState ρ)
  clientMacs : List (ClientMac ρ)
  updates : List (Nat × UInt64)

inductive RequestEvent (ρ : Type) where
  | clientSend (request : ZhtpRequest ρ) (sessionId : Bytes 32) (sequence : UInt64)
  | receive (wire : ZhtpRequestWire ρ)
  | load (stream : Nat)
  | exchange (stream : Nat)
  | route (stream : Nat) (peerAddr : String) (gatewayAnswers : Bool)

namespace RequestServer

def start (session : V2Session) : RequestServer ρ := ⟨session, [], [], []⟩

def step (s : RequestServer ρ) : RequestEvent ρ → RequestServer ρ
  | .clientSend request sessionId sequence => { s with clientMacs := ⟨request, sessionId, sequence⟩ :: s.clientMacs }
  | .receive wire =>
    match checkRequest E s.session wire with
    | .ok auth => { s with streams := s.streams ++ [.checked wire.request auth.sequence] }
    | .error reason => { s with streams := s.streams ++ [.rejected reason] }
  | .load stream =>
    match s.streams[stream]? with
    | some (.checked request sequence) =>
      if sequence ≤ s.session.lastCounter then
        { s with streams := s.streams.set stream (.rejected (.unauthorized "Invalid counter - possible replay")) }
      else
        { s with streams := s.streams.set stream (.loaded request sequence s.session.lastCounter) }
    | _ => s
  | .exchange stream =>
    match s.streams[stream]? with
    | some (.loaded request sequence last) =>
      if s.session.lastCounter = last then
        { s with
          session := { s.session with lastCounter := sequence }
          streams := s.streams.set stream (.authenticated request sequence)
          updates := s.updates ++ [(stream, sequence)] }
      else
        -- another stream was faster, and the loop starts again
        { s with streams := s.streams.set stream (.checked request sequence) }
    | _ => s
  | .route stream peerAddr gatewayAnswers =>
    match s.streams[stream]? with
    | some (.authenticated request sequence) =>
      if gatewayAnswers then
        { s with streams := s.streams.set stream (.answered sequence) }
      else
        { s with streams := s.streams.set stream (.routed (withPeer E s.session peerAddr request) sequence) }
    | _ => s

end RequestServer

end SovereignNetwork.Requests
