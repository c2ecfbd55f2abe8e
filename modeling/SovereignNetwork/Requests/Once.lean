import SovereignNetwork.Lib.Run
import SovereignNetwork.Lib.Table
import SovereignNetwork.Requests.Authenticated

/-!
# Routed requests are authentic, and routed once

A request that passes the check of its code has the method, path and body of a request that the client made a code for,
as long as the client's requests can be told apart by their bytes.
-/

namespace SovereignNetwork.Requests

open Lib

variable {ρ : Type} {E : RequestExternals}

/-! ## Bytes determine requests -/

theorem ZhtpMethod.byte_inj {m m' : ZhtpMethod} (hm : m.byte ≠ 255) (h : m.byte = m'.byte) : m = m' := by
  cases m <;> cases m' <;> first | rfl | exact absurd h (by decide) | exact absurd rfl hm

/-- A request with a method of its own byte, and with lengths that fit. -/
structure Distinguishable (request : ZhtpRequest ρ) : Prop where
  method : request.method.byte ≠ 255
  uri : (Execution.bytesOf request.uri).length < 2 ^ 16
  body : request.body.length < 2 ^ 32

/-- The client's request and the one that the server checks. -/
structure SameRequest (request request' : ZhtpRequest ρ) : Prop where
  method : request.method = request'.method
  uri : request.uri = request'.uri
  body : request.body = request'.body

theorem sameRequest_of_bytes {request request' : ZhtpRequest ρ} (hclient : Distinguishable request)
    (h : (canonicalOf request').toBytes = some (canonicalBytes request)) : SameRequest request request' := by
  unfold CanonicalRequest.toBytes at h
  split at h
  · rename_i hfits
    have hbytes := Option.some.inj h
    simp only [canonicalOf, canonicalBytes, List.append_assoc] at hbytes
    obtain ⟨hmethod, hbytes⟩ := List.append_inj hbytes rfl
    obtain ⟨hlength, hbytes⟩ := List.append_inj hbytes (by rw [length_toBeBytes, length_toBeBytes])
    have huri := toBeBytes_inj hfits.1 hclient.uri hlength
    obtain ⟨huri, hbytes⟩ := List.append_inj hbytes huri
    obtain ⟨-, hbody⟩ := List.append_inj hbytes (by rw [length_toBeBytes, length_toBeBytes])
    exact ⟨ZhtpMethod.byte_inj hclient.method (List.cons.inj hmethod).1.symm, (Execution.bytesOf_inj huri).symm, hbody.symm⟩
  · cases h

theorem macInput_inj {bytes bytes' : List UInt8} {counter counter' : UInt64} {sessionId sessionId' : Bytes 32}
    (h : macInput bytes counter sessionId = macInput bytes' counter' sessionId') :
    bytes = bytes' ∧ counter = counter' ∧ sessionId = sessionId' := by
  obtain ⟨h, hsession⟩ := List.append_inj' h (by rw [Bytes.length_asSlice, Bytes.length_asSlice])
  obtain ⟨hbytes, hcounter⟩ := List.append_inj' h (by rw [length_toBeBytes, length_toBeBytes])
  have hcounter := toBeBytes_inj counter.toNat_lt counter'.toNat_lt hcounter
  exact ⟨hbytes, UInt64.toNat_inj.mp hcounter, Bytes.asSlice_inj hsession⟩

/-! ## Conditions -/

namespace RequestServer

variable (E) in
/-- A code that verifies was made by the client. -/
def Unforgeable (s : RequestServer ρ) : RequestEvent ρ → Prop
  | .receive wire => ∀ auth ∈ wire.authContext, ∀ bytes ∈ (canonicalOf wire.request).toBytes,
    E.hmac s.session.macKey (macInput bytes auth.sequence s.session.sessionId) = auth.requestMac →
      ∃ m ∈ s.clientMacs, m.input = macInput bytes auth.sequence s.session.sessionId
  | _ => True

/-- The client makes codes only for requests that their bytes determine. -/
def ClientDistinct (_ : RequestServer ρ) : RequestEvent ρ → Prop
  | .clientSend request _ _ => Distinguishable request
  | _ => True

/-- The client made a code for this method, path and body with this number, for this session. -/
def Authentic (macs : List (ClientMac ρ)) (sessionId : Bytes 32) (request : ZhtpRequest ρ) (sequence : UInt64) : Prop :=
  ∃ m ∈ macs, m.sessionId = sessionId ∧ m.sequence = sequence ∧ SameRequest m.request request

/-- The number of the request that the stream has routed. -/
def routedSequence (s : RequestServer ρ) (stream : Nat) : Option UInt64 :=
  match s.streams[stream]? with
  | some (.routed _ sequence) => some sequence
  | _ => none

end RequestServer

namespace StreamState

/-- The request of a stream that has passed the checks. -/
def content : StreamState ρ → Option (ZhtpRequest ρ × UInt64)
  | checked request sequence => some (request, sequence)
  | loaded request sequence _ => some (request, sequence)
  | authenticated request sequence => some (request, sequence)
  | routed request sequence => some (request, sequence)
  | _ => none

/-- The number that the stream has set the counter to. -/
def updated : StreamState ρ → Option UInt64
  | authenticated _ sequence => some sequence
  | routed _ sequence => some sequence
  | answered sequence => some sequence
  | _ => none

end StreamState

namespace RequestServer

structure StreamOk (macs : List (ClientMac ρ)) (sessionId : Bytes 32) (updates : List (Nat × UInt64)) (stream : Nat)
    (st : StreamState ρ) : Prop where
  authentic : ∀ request sequence, st.content = some (request, sequence) → Authentic macs sessionId request sequence
  loaded : ∀ request sequence last, st = .loaded request sequence last → last < sequence
  updated : ∀ sequence, st.updated = some sequence → (stream, sequence) ∈ updates

structure Inv (s : RequestServer ρ) : Prop where
  distinct : ∀ m ∈ s.clientMacs, Distinguishable m.request
  streams : ∀ (stream : Nat) (st : StreamState ρ), s.streams[stream]? = some st →
    StreamOk s.clientMacs s.session.sessionId s.updates stream st
  entries : ∀ u ∈ s.updates, ∃ st, s.streams[u.1]? = some st ∧ st.updated = some u.2
  sorted : (s.updates.map Prod.snd).Pairwise (· < ·)
  bounded : ∀ u ∈ s.updates, u.2 ≤ s.session.lastCounter

theorem inv_start (session : V2Session) : Inv (start session : RequestServer ρ) where
  distinct _ h := absurd h List.not_mem_nil
  streams _ _ h := by cases h
  entries _ h := absurd h List.not_mem_nil
  sorted := List.Pairwise.nil
  bounded _ h := absurd h List.not_mem_nil

/-! ## Steps -/

variable {s : RequestServer ρ}

theorem StreamOk.mono {macs macs' : List (ClientMac ρ)} {sessionId : Bytes 32} {updates updates' : List (Nat × UInt64)}
    {stream : Nat} {st : StreamState ρ} (h : StreamOk macs sessionId updates stream st) (hmacs : macs ⊆ macs')
    (hupdates : updates ⊆ updates') : StreamOk macs' sessionId updates' stream st where
  authentic request sequence hcontent := by
    obtain ⟨m, hm, hsame⟩ := h.authentic request sequence hcontent
    exact ⟨m, hmacs hm, hsame⟩
  loaded := h.loaded
  updated sequence hupdated := hupdates (h.updated sequence hupdated)

theorem authentic_of_checkRequest {wire : ZhtpRequestWire ρ} {auth : AuthContext} (h : Inv s)
    (hunforgeable : s.Unforgeable E (.receive wire)) (hcheck : checkRequest E s.session wire = .ok auth) :
    Authentic s.clientMacs s.session.sessionId wire.request auth.sequence := by
  simp only [checkRequest, bind_eq_ok, okOr_eq_ok, guard_eq_ok, pure_eq_ok] at hcheck
  obtain ⟨_, hauth, -, -, valid, hverify, hvalid, rfl⟩ := hcheck
  obtain ⟨mac, hmac, rfl⟩ := Option.map_eq_some_iff.mp hverify
  obtain ⟨bytes, hbytes, rfl⟩ := Option.map_eq_some_iff.mp hmac
  obtain ⟨m, hm, hinput⟩ := hunforgeable _ hauth bytes hbytes (by simpa using hvalid)
  obtain ⟨rfl, hsequence, hsession⟩ := macInput_inj hinput
  exact ⟨m, hm, hsession, hsequence, sameRequest_of_bytes (h.distinct m hm) hbytes⟩

theorem inv_append {st : StreamState ρ} (h : Inv s)
    (hst : StreamOk s.clientMacs s.session.sessionId s.updates s.streams.length st) :
    Inv { s with streams := s.streams ++ [st] } where
  distinct := h.distinct
  streams := forall_concat h.streams hst
  entries u hu := by
    obtain ⟨st', hst', hupdated⟩ := h.entries u hu
    exact ⟨st', getElem?_concat st hst', hupdated⟩
  sorted := h.sorted
  bounded := h.bounded

theorem inv_set {stream : Nat} {st st' : StreamState ρ} (h : Inv s) (hst : s.streams[stream]? = some st)
    (hupdated : st'.updated = st.updated) (hst' : StreamOk s.clientMacs s.session.sessionId s.updates stream st') :
    Inv { s with streams := s.streams.set stream st' } := by
  refine ⟨h.distinct, forall_set h.streams hst hst', fun u hu => ?_, h.sorted, h.bounded⟩
  obtain ⟨st'', hget, hu⟩ := h.entries u hu
  rcases set_cases st' hst hget with ⟨hstream, rfl⟩ | hkept
  · exact ⟨st', by rw [hstream]; exact getElem?_set_of_some hst, hupdated.trans hu⟩
  · exact ⟨st'', hkept, hu⟩

theorem inv_receive {wire : ZhtpRequestWire ρ} (hunforgeable : s.Unforgeable E (.receive wire)) (h : Inv s) :
    Inv (step E s (.receive wire)) := by
  unfold step
  dsimp only
  split
  · rename_i auth hauth
    refine inv_append h ⟨?_, fun _ _ _ heq => (by cases heq), fun _ heq => (by cases heq)⟩
    rintro _ _ ⟨⟩
    exact authentic_of_checkRequest h hunforgeable hauth
  · refine inv_append h ⟨fun _ _ heq => (by cases heq), fun _ _ _ heq => (by cases heq), fun _ heq => (by cases heq)⟩

theorem inv_load {stream : Nat} (h : Inv s) : Inv (step E s (.load stream)) := by
  unfold step
  dsimp only
  split
  · rename_i request sequence hst
    have hok := h.streams stream _ hst
    split
    · exact inv_set h hst rfl ⟨fun _ _ heq => (by cases heq), fun _ _ _ heq => (by cases heq), fun _ heq => (by cases heq)⟩
    · rename_i hlt
      refine inv_set h hst rfl ⟨hok.authentic, ?_, fun _ heq => (by cases heq)⟩
      rintro _ _ _ ⟨⟩
      exact UInt64.not_le.mp hlt
  · exact h

theorem inv_exchanged {stream : Nat} {request : ZhtpRequest ρ} {sequence : UInt64} (h : Inv s)
    (hst : s.streams[stream]? = some (.loaded request sequence s.session.lastCounter)) :
    Inv { s with
      session := { s.session with lastCounter := sequence }
      streams := s.streams.set stream (.authenticated request sequence)
      updates := s.updates ++ [(stream, sequence)] } := by
  have hok := h.streams stream _ hst
  have hgrows := hok.loaded request sequence _ rfl
  have hstreams := fun stream' st' hget => (h.streams stream' st' hget).mono (List.Subset.refl _)
    (List.subset_append_left s.updates [(stream, sequence)])
  refine ⟨h.distinct, forall_set hstreams hst ⟨hok.authentic, fun _ _ _ heq => (by cases heq), ?_⟩, fun u hu => ?_, ?_,
    fun u hu => ?_⟩
  · rintro _ ⟨⟩
    exact List.mem_append_right _ (List.mem_singleton_self _)
  · rcases List.mem_append.mp hu with hu | hu
    · obtain ⟨st', hget, hupdated⟩ := h.entries u hu
      rcases set_cases (.authenticated request sequence) hst hget with ⟨-, rfl⟩ | hkept
      · -- a stream that has updated the counter is not waiting for an exchange
        cases hupdated
      · exact ⟨st', hkept, hupdated⟩
    · obtain rfl := List.mem_singleton.mp hu
      exact ⟨_, getElem?_set_of_some hst, rfl⟩
  · dsimp only
    rw [List.map_append, List.pairwise_append]
    refine ⟨h.sorted, List.pairwise_singleton _ _, fun x hx y hy => ?_⟩
    obtain ⟨u, hu, rfl⟩ := List.mem_map.mp hx
    obtain rfl := List.mem_singleton.mp hy
    exact UInt64.lt_of_le_of_lt (h.bounded u hu) hgrows
  · rcases List.mem_append.mp hu with hu | hu
    · exact UInt64.le_of_lt (UInt64.lt_of_le_of_lt (h.bounded u hu) hgrows)
    · obtain rfl := List.mem_singleton.mp hu
      exact UInt64.le_refl _

theorem inv_exchange {stream : Nat} (h : Inv s) : Inv (step E s (.exchange stream)) := by
  unfold step
  dsimp only
  split
  · rename_i request sequence last hst
    split
    · rename_i hlast
      subst hlast
      exact inv_exchanged h hst
    · have hok := h.streams stream _ hst
      exact inv_set h hst rfl ⟨hok.authentic, fun _ _ _ heq => (by cases heq), fun _ heq => (by cases heq)⟩
  · exact h

theorem inv_route {stream : Nat} {peerAddr : String} {gatewayAnswers : Bool} (h : Inv s) :
    Inv (step E s (.route stream peerAddr gatewayAnswers)) := by
  unfold step
  dsimp only
  split
  · rename_i request sequence hst
    have hok := h.streams stream _ hst
    split
    · exact inv_set h hst rfl ⟨fun _ _ heq => (by cases heq), fun _ _ _ heq => (by cases heq), hok.updated⟩
    · refine inv_set h hst rfl ⟨?_, fun _ _ _ heq => (by cases heq), hok.updated⟩
      -- requester and headers are set, and what the client authenticated is kept
      rintro _ _ ⟨⟩
      obtain ⟨m, hm, hsession, hsequence, hsame⟩ := hok.authentic request sequence rfl
      exact ⟨m, hm, hsession, hsequence, hsame.method, hsame.uri, hsame.body⟩
  · exact h

theorem inv_step (event : RequestEvent ρ) (hok : s.Unforgeable E event ∧ s.ClientDistinct event) (h : Inv s) :
    Inv (step E s event) := by
  cases event with
  | clientSend request sessionId sequence =>
    refine ⟨?_, fun stream st hst => (h.streams stream st hst).mono (List.subset_cons_self _ _) (List.Subset.refl _),
      h.entries, h.sorted, h.bounded⟩
    intro m hm
    rcases List.mem_cons.mp hm with rfl | hm
    · exact hok.2
    · exact h.distinct m hm
  | receive wire => exact inv_receive hok.1 h
  | load stream => exact inv_load h
  | exchange stream => exact inv_exchange h
  | route stream peerAddr gatewayAnswers => exact inv_route h

/-! ## Runs -/

/-- Routed requests are authentic and have updated the counter, and the numbers of routed requests grow with the updates. -/
structure AuthenticOnce (s : RequestServer ρ) : Prop where
  authentic : ∀ (stream : Nat) (request : ZhtpRequest ρ) (sequence : UInt64),
    s.streams[stream]? = some (.routed request sequence) →
      Authentic s.clientMacs s.session.sessionId request sequence ∧ (stream, sequence) ∈ s.updates
  increasing : (s.updates.filterMap fun u => s.routedSequence u.1).Pairwise (· < ·)

theorem Inv.authenticOnce (h : Inv s) : AuthenticOnce s where
  authentic stream request sequence hst :=
    ⟨(h.streams stream _ hst).authentic request sequence rfl, (h.streams stream _ hst).updated sequence rfl⟩
  increasing := by
    have hsequence : ∀ u ∈ s.updates, ∀ sequence, s.routedSequence u.1 = some sequence → sequence = u.2 := by
      intro u hu sequence hrouted
      obtain ⟨st, hst, hupdated⟩ := h.entries u hu
      unfold routedSequence at hrouted
      rw [hst] at hrouted
      split at hrouted
      · rename_i heq
        obtain rfl := Option.some.inj heq
        exact Option.some.inj (hrouted.symm.trans hupdated)
      · cases hrouted
    rw [List.pairwise_filterMap]
    refine (List.pairwise_map.mp h.sorted).imp_of_mem fun {u u'} hu hu' hlt => ?_
    intro sequence hrouted sequence' hrouted'
    rw [hsequence u hu sequence hrouted, hsequence u' hu' sequence' hrouted']
    exact hlt

/-- Every routed request has method, path and body of a request of the client, with a number that is used once. -/
theorem routed_requests_authentic_and_increasing (E : RequestExternals) (session : V2Session)
    (events : List (RequestEvent ρ))
    (hrun : Along (step E) (fun s event => s.Unforgeable E event ∧ s.ClientDistinct event) (start session) events) :
    AuthenticOnce (run (step E) (start session) events) :=
  (hrun.invariant (fun _ event hok h => inv_step event hok h) (inv_start session)).authenticOnce

def sampleExternals : RequestExternals where
  hmac _ data := BitVec.ofNat _ (data.foldl (fun sum b => 256 * sum + b.toNat) 0)
  parseDidToIdentityId _ := none

def sampleSession : V2Session := ⟨1, 2, "", 0⟩

def sampleRequest (method : ZhtpMethod) : ZhtpRequest Unit := ⟨method, "", [], none, ∅, ()⟩

/-- A request of the client, received with another method. -/
def sampleWire (sent received : ZhtpMethod) (sequence : UInt64) : ZhtpRequestWire Unit :=
  { newAuthenticated sampleExternals (sampleRequest sent) 1 "" sequence 2 with request := sampleRequest received }

def sampleEvents (sent received : ZhtpMethod) : List (RequestEvent Unit) :=
  [.clientSend (sampleRequest sent) 1 1, .receive (sampleWire sent received 1), .load 0, .exchange 0, .route 0 "" false]

/-- Two streams load the counter before either sets it, so the exchange of the second fails once. A third stream brings
the first request again. -/
def interleavedEvents : List (RequestEvent Unit) :=
  [.clientSend (sampleRequest .get) 1 1, .clientSend (sampleRequest .get) 1 2, .receive (sampleWire .get .get 1),
    .receive (sampleWire .get .get 2), .receive (sampleWire .get .get 1), .load 0, .load 1, .exchange 0, .exchange 1,
    .load 1, .load 2, .exchange 1, .route 0 "" false, .route 1 "" false]

theorem sampleWire_unforgeable {sent received : ZhtpMethod} (h : sent.byte = received.byte) {sequence : UInt64}
    {s : RequestServer Unit} (hsession : s.session = sampleSession)
    (hsent : ⟨sampleRequest sent, 1, sequence⟩ ∈ s.clientMacs) :
    Unforgeable sampleExternals s (.receive (sampleWire sent received sequence)) := by
  rintro _ ⟨⟩ bytes hbytes -
  have hsame : (canonicalOf (sampleRequest received)).toBytes = some (canonicalBytes (sampleRequest sent)) := by
    have hfits : (Execution.bytesOf "").length < 2 ^ 16 ∧ ([] : List UInt8).length < 2 ^ 32 := by decide +kernel
    simp only [CanonicalRequest.toBytes, canonicalOf, canonicalBytes, sampleRequest, h]
    exact if_pos hfits
  obtain rfl := Option.some.inj (hsame.symm.trans hbytes)
  exact ⟨_, hsent, by rw [hsession]; rfl⟩

theorem receive_keeps (E : RequestExternals) (s : RequestServer ρ) (wire : ZhtpRequestWire ρ) :
    (s.step E (.receive wire)).session = s.session ∧ (s.step E (.receive wire)).clientMacs = s.clientMacs := by
  rw [step]
  split <;> exact ⟨rfl, rfl⟩

theorem get_request_routed_once :
    (run (step sampleExternals) (start sampleSession) interleavedEvents).routedSequence 0 = some 1 ∧
      (run (step sampleExternals) (start sampleSession) interleavedEvents).routedSequence 1 = some 2 ∧
      (run (step sampleExternals) (start sampleSession) interleavedEvents).routedSequence 2 = none ∧
      AuthenticOnce (run (step sampleExternals) (start sampleSession) interleavedEvents) := by
  have hdistinct : Distinguishable (sampleRequest .get) := ⟨by decide, by decide +kernel, by decide +kernel⟩
  refine ⟨by decide +kernel, by decide +kernel, by decide +kernel,
    routed_requests_authentic_and_increasing sampleExternals sampleSession interleavedEvents ?_⟩
  have hwire {s : RequestServer Unit} {sequence : UInt64} := @sampleWire_unforgeable .get .get rfl sequence s
  refine ⟨⟨trivial, hdistinct⟩, ⟨trivial, hdistinct⟩, ⟨hwire rfl (.tail _ (.head _)), trivial⟩,
    ⟨hwire ?_ ?_, trivial⟩, ⟨hwire ?_ ?_, trivial⟩, ⟨trivial, trivial⟩, ⟨trivial, trivial⟩, ⟨trivial, trivial⟩,
    ⟨trivial, trivial⟩, ⟨trivial, trivial⟩, ⟨trivial, trivial⟩, ⟨trivial, trivial⟩, ⟨trivial, trivial⟩,
    ⟨trivial, trivial⟩, trivial⟩
  · rw [(receive_keeps _ _ _).1]
    rfl
  · rw [(receive_keeps _ _ _).2]
    exact .head _
  · rw [(receive_keeps _ _ _).1, (receive_keeps _ _ _).1]
    rfl
  · rw [(receive_keeps _ _ _).2, (receive_keeps _ _ _).2]
    exact .tail _ (.head _)

def routedMethod : StreamState ρ → Option ZhtpMethod
  | .routed request _ => some request.method
  | _ => none

theorem not_authenticOnce {stream : Nat} {method : ZhtpMethod}
    (hrouted : s.streams[stream]?.bind routedMethod = some method)
    (hother : ∀ m ∈ s.clientMacs, m.request.method ≠ method) : ¬ AuthenticOnce s := by
  intro h
  obtain ⟨st, hst, hmethod⟩ := Option.bind_eq_some_iff.mp hrouted
  cases st with
  | routed request sequence =>
    obtain ⟨⟨m, hm, -, -, hsame⟩, -⟩ := h.authentic stream request sequence hst
    exact hother m hm (hsame.method.trans (Option.some.inj hmethod))
  | _ => cases hmethod

/-- The code does not tell VERIFY from CONNECT. -/
theorem verify_request_routed_as_connect :
    Along (step sampleExternals) (Unforgeable sampleExternals) (start sampleSession) (sampleEvents .verify .connect) ∧
      ¬ AuthenticOnce (run (step sampleExternals) (start sampleSession) (sampleEvents .verify .connect)) :=
  have hrouted : (run (step sampleExternals) (start sampleSession) (sampleEvents .verify .connect)).streams[0]?.bind
      routedMethod = some .connect := by decide +kernel
  ⟨⟨trivial, sampleWire_unforgeable rfl rfl (.head _), trivial, trivial, trivial, trivial⟩,
    not_authenticOnce hrouted (by decide +kernel)⟩

end RequestServer

end SovereignNetwork.Requests
