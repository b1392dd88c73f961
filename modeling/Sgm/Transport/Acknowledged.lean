/-
# An acknowledged handover is complete

A sender that gets an acknowledgement has read it as the first reply, so no
frame of its call was refused before: the handler has ingested every session,
in order, and has called every callback once with the whole list. And where no
frame is altered and all of them are within the limit, the sender does get it.

Key definitions: `Codec.around`, `Transit.flip`, `sampleEnv`.
Key theorems: `P2P.sendSessions_acknowledged`, `P2P.returns_of_intact`.
-/
import Sgm.Transport.Progress

namespace Sgm

open Framing Crc32 SendSessions

section
variable {env : P2PEnv} {srv : P2PServer} {c : ℕ} {call : SendSessions} {q : P2P}

theorem SendSessions.ingested_of_intact (h : ∀ i < call.total, ¬ call.Altered env c i) :
    call.ingested env c call.total = call.sessions :=
  ingested_eq_iff.mpr fun i hi => h (i + 1) (by rw [total]; omega)

/-- What a sender that returned knows of the handler. -/
theorem Handover.of_returned {k : P2PConn} {ok : Prop} {w r : ℕ} {out : Bytes}
    (h : Handover env srv c call ok k w r out) {ack : HandoverAck} (hk : k.client = .returned ack) :
    k.handler.invocations = srv.callsFor call.sessions ∧
      ack.acceptedRequestIds = call.sessions.map (·.requestId) := by
  obtain ⟨hall, rfl, -, hinv, -⟩ := h.returned ack hk
  have hing := ingested_of_intact hall
  rw [hinv, calls, hing]
  refine ⟨rfl, ?_⟩
  rw [ackOf, hing]
  rfl

/-- Whenever `send_sessions` returns an acknowledgement, whatever was altered in
transit and whatever the other connections do, the server has called every
registered callback exactly once with exactly the sessions of the call (none
with no sessions), and it has accepted their ids, in their order. -/
theorem P2P.sendSessions_acknowledged {peers : ℕ → Option SendSessions} {ls : List P2PLabel}
    {ack : HandoverAck} (hc : peers c = some call) (hl : call.Loads env srv c)
    (hr : Machine.run (P2P.step env) (P2P.new srv peers) ls = some q)
    (hack : (q.conns c).client = .returned ack) :
    (q.conns c).handler.invocations = srv.callsFor call.sessions ∧
      ack.acceptedRequestIds = call.sessions.map (·.requestId) := by
  obtain ⟨w, r, out, h⟩ := P2P.exists_handover hl hc hr
  exact h.of_returned hack

/-- How a sender ends that nothing but altered payloads hinders. -/
theorem Handover.of_ended {k : P2PConn} {w r : ℕ} {out : Bytes}
    (h : Handover env srv c call True k w r out) (hend : k.client.ended = true) :
    (∃ ack, k.client = .returned ack) ∨ ∃ e, k.client = .raised e ∧
      (Rejected e ∨ (∀ i < call.total, ¬ call.Altered env c i) ∧ ¬ call.AckFits env srv c) := by
  have hw := h.written
  cases hk : k.client with
  | returned ack => exact Or.inl ⟨ack, rfl⟩
  | raised e => exact Or.inr ⟨e, rfl, ((h.raised e hk).2 trivial).2⟩
  | hungUp => rw [hk] at hw; exact hw.elim
  | _ => rw [hk] at hend; cases hend

/-- What the callbacks have been called with when such a handler is done. -/
theorem Handover.of_closed {k : P2PConn} {w r : ℕ} {out : Bytes}
    (h : Handover env srv c call True k w r out) (hp : k.handler.point = .closed) :
    k.handler.invocations = call.calls env srv c := by
  cases h.served with
  | acked _ hi => exact hi
  | dead _ _ _ why => exact (why trivial).1
  | absent hp' | gathering hp' => rw [hp'] at hp; cases hp
  | serving hp' => rcases hp' with hp' | hp' <;> rw [hp'] at hp <;> cases hp

/-- Where nothing is altered and everything is within the limit, a connection
that does not fail ends with the acknowledgement. -/
theorem P2P.returns_of_intact {peers : ℕ → Option SendSessions} {ls : List P2PLabel}
    (hc : peers c = some call) (hl : call.Loads env srv c) (hrun : srv.running = true)
    (hU : call.Unhindered env srv c) (hall : ∀ i < call.total, ¬ call.Altered env c i)
    (hfit : call.AckFits env srv c)
    (hr : Machine.run (P2P.step env) (P2P.new srv peers) ls = some q)
    (hclean : ∀ l ∈ ls, l.Clean c) (hend : (q.conns c).client.ended = true) :
    ∃ ack, (q.conns c).client = .returned ack := by
  obtain ⟨w, r, out, h⟩ := P2P.exists_unhindered hl hc hU hrun hclean hr
  rcases h.of_ended hend with hack | ⟨e, he, hrej | hlong⟩
  · exact hack
  · obtain ⟨i, hi, ha⟩ := (h.raised e he).1 hrej
    exact absurd ha (hall i hi)
  · exact absurd hfit hlong.2

end

/-! ### Two sessions, handed over -/

/-- A codec for models that differ in one field: its text, between two others. -/
def Codec.around {α : Type} (pre post : String) (field : α → String) (make : String → α) :
    Codec α where
  dump x := Text.encodeUtf8 (pre ++ field x ++ post).toList
  load b :=
    match Text.decodeUtf8 b with
    | some l => .ok (make (String.ofList
        ((l.drop pre.length).take (l.length - pre.length - post.length))))
    | none => .error (.valueError "Invalid JSON")

theorem Codec.keeps_around {α : Type} {pre post : String} {field : α → String} {make : String → α}
    {x : α} (h : make (field x) = x) : (Codec.around pre post field make).Keeps x := by
  have hmid : (((pre ++ field x ++ post).toList.drop pre.length).take
      ((pre ++ field x ++ post).toList.length - pre.length - post.length)) = (field x).toList := by
    have hlen : (pre ++ field x ++ post).toList.length - pre.length - post.length =
        (field x).toList.length := by
      simp only [String.toList_append, List.length_append, String.length_toList]
      omega
    rw [hlen, String.toList_append, String.toList_append, List.append_assoc,
      List.drop_left' String.length_toList, List.take_left]
  simp only [Codec.Keeps, Codec.around, Text.decode_encode, hmid, String.ofList_toList, h]

/-- How long a text is in UTF-8. -/
theorem length_encodeUtf8 (s : String) : (Text.encodeUtf8 s.toList).length = s.utf8ByteSize := by
  rw [Text.encodeUtf8]
  simpa [List.utf8Encode] using congrArg ByteArray.size (String.utf8Encode_toList (b := s))

/-- The first byte is changed. -/
def changeFirst : Bytes → Bytes
  | [] => []
  | b :: l => (b + 1) :: l

theorem crc32_changeFirst (l : Bytes) : changeFirst l = l ∨ crc32 (changeFirst l) ≠ crc32 l := by
  cases l with
  | nil => exact Or.inl rfl
  | cons b l =>
    refine Or.inr (crc32_alter ?_ [] l)
    simp

/-- The first byte of the payloads of these frames is changed in transit. -/
def Transit.flip (keys : FrameKey → Bool) : Transit where
  arrive key payload := if keys key then changeFirst payload else payload
  length_arrive key payload := by
    split
    · cases payload <;> rfl
    · rfl
  detected key payload := by
    split
    · exact crc32_changeFirst payload
    · exact Or.inl rfl

theorem Transit.altered_flip {env : P2PEnv} {c : ℕ} {keys : FrameKey → Bool} {o : Outgoing}
    (ht : env.transit c = .flip keys) (hne : o.body env ≠ []) :
    o.Altered env c ↔ keys o.key = true := by
  unfold Outgoing.Altered
  rw [ht]
  simp only [Transit.flip]
  split
  · rename_i hk
    refine iff_of_true ?_ hk
    cases hb : o.body env with
    | nil => exact absurd hb hne
    | cons b l => simp [changeFirst]
  · rename_i hk
    exact iff_of_false (fun h => h rfl) hk

def sampleA : InferenceSession := { requestId := "req-a" }

def sampleB : InferenceSession := { requestId := "req-b" }

/-- The call of `send_sessions` with both sessions. -/
def sampleCall : SendSessions := { sessions := [sampleA, sampleB] }

def samplePeers (c : ℕ) : Option SendSessions := if c = 0 then some sampleCall else none

/-- A server with one callback. -/
def sampleServer : P2PServer := { sessionCallbacks := [0], running := true }

/-- The JSON of sessions of which only the id is given. -/
def sessionCodec : Codec InferenceSession :=
  .around "\x7b\"request_id\":\"" ("\",\"client_connection_id\":\"\"," ++
    "\"model\":\"meta-llama/Llama-3-8b-instruct\",\"prompt\":\"\",\"prompt_tokens\":[]," ++
    "\"sampling_params\":\x7b\"temperature\":0.7,\"top_p\":0.95,\"max_tokens\":512," ++
    "\"stop\":[\"<|eot_id|>\",\"</s>\"],\"presence_penalty\":0.0,\"frequency_penalty\":0.0\x7d," ++
    "\"generated_tokens\":[],\"generated_text\":[],\"last_flushed_sequence_id\":-1," ++
    "\"total_tokens_generated\":0,\"is_streaming\":true,\"stream_cutoff_timestamp_ns\":0," ++
    "\"kv_cache\":null\x7d") (·.requestId) fun id => { requestId := id }

def initCodec : Codec HandoverInit :=
  .around ("\x7b\"protocol_version\":\"1.0\",\"source_node_id\":\"node-active\"," ++
    "\"target_node_id\":\"standby@127.0.0.1:9002\",\"preemption_deadline_utc\":\"\"," ++
    "\"active_request_count\":2,\"timestamp_ns\":0\x7d") "" (fun _ => "")
    fun _ => sampleCall.initPayload 0

def ackCodec : Codec HandoverAck :=
  .around "\x7b\"source_node_id\":\"node-standby\",\"accepted_request_ids\":["
    "],\"rejected_request_ids\":[],\"standby_ready_timestamp_ns\":0,\"resume_port\":8002\x7d"
    (fun ack => ",".intercalate (ack.acceptedRequestIds.map fun id => "\"" ++ id ++ "\""))
    fun _ => sampleServer.ack 0 [sampleA, sampleB]

def nackCodec : Codec HandoverNack :=
  .around "\x7b\"source_node_id\":\"node-standby\",\"error_code\":1,\"error_message\":\""
    "\",\"timestamp_ns\":0\x7d" (·.errorMessage) fun msg => {
      sourceNodeId := sampleServer.nodeId, errorMessage := msg, timestampNs := 0 }

def sampleEnv (transit : Transit) : P2PEnv where
  zlib := { compress := id, decompress := .ok }
  handoverInit := initCodec
  session := sessionCodec
  handoverAck := ackCodec
  handoverNack := nackCodec
  transit := fun _ => transit
  clientTimeNs := fun _ => 0
  serverTimeNs := fun _ _ => 0

variable (t : Transit)

theorem sessionCodec_keeps (id : String) : sessionCodec.Keeps { requestId := id } := by
  unfold sessionCodec
  exact Codec.keeps_around rfl

theorem initCodec_keeps : initCodec.Keeps (sampleCall.initPayload 0) := by
  unfold initCodec
  exact Codec.keeps_around rfl

theorem ackCodec_keeps : ackCodec.Keeps (sampleServer.ack 0 [sampleA, sampleB]) := by
  unfold ackCodec
  exact Codec.keeps_around rfl

theorem nackCodec_keeps (crcErr : String) : nackCodec.Keeps (sampleServer.nack 0 crcErr) := by
  unfold nackCodec
  exact Codec.keeps_around rfl

theorem sample_loads : sampleCall.Loads (sampleEnv t) sampleServer 0 where
  session := by
    intro s hs
    simp only [sampleCall, List.mem_cons, List.not_mem_nil, or_false] at hs
    rcases hs with rfl | rfl
    · exact sessionCodec_keeps "req-a"
    · exact sessionCodec_keeps "req-b"
  zlib := fun h => by cases h
  ack := ackCodec_keeps

theorem sample_initLoads :
    (sampleEnv t).handoverInit.Keeps (sampleCall.initPayload ((sampleEnv t).clientTimeNs 0)) :=
  initCodec_keeps

/-- How much the codec writes besides the field. -/
theorem Codec.length_around {α : Type} (pre post : String) (field : α → String)
    (make : String → α) (x : α) : ((Codec.around pre post field make).dump x).length =
      pre.utf8ByteSize + post.utf8ByteSize + (field x).utf8ByteSize := by
  rw [Codec.around, length_encodeUtf8, String.utf8ByteSize_append, String.utf8ByteSize_append]
  omega

theorem length_sessionCodec (s : InferenceSession) : 0 < (sessionCodec.dump s).length ∧
    (sessionCodec.dump s).length ≤ 1000 + s.requestId.utf8ByteSize := by
  have hpre : 0 < "\x7b\"request_id\":\"".utf8ByteSize := by decide +kernel
  unfold sessionCodec
  rw [Codec.length_around]
  refine ⟨by omega, Nat.add_le_add_right ?_ _⟩
  simp only [String.utf8ByteSize_append]
  decide +kernel

theorem length_initCodec (d : HandoverInit) : 0 < (initCodec.dump d).length ∧
    (initCodec.dump d).length ≤ 1000 := by
  unfold initCodec
  rw [Codec.length_around]
  simp only [String.utf8ByteSize_append]
  exact ⟨by decide +kernel, by decide +kernel⟩

theorem length_ackCodec : (ackCodec.dump (sampleServer.ack 0 [sampleA, sampleB])).length ≤ 1000 := by
  unfold ackCodec
  rw [Codec.length_around]
  decide +kernel

theorem length_nackCodec (n : HandoverNack) :
    (nackCodec.dump n).length ≤ 1000 + n.errorMessage.utf8ByteSize := by
  unfold nackCodec
  rw [Codec.length_around]
  exact Nat.add_le_add_right (by decide +kernel) _

/-- The answers to altered frames are short. -/
theorem sample_nack_le {msgType checksum calcCrc : ℕ} (hm : msgType < 256)
    (hs : checksum < 16 ^ 8) (hc : calcCrc < 16 ^ 8) :
    (nackCodec.dump (sampleServer.nack 0 (crcMismatch msgType checksum calcCrc))).length ≤
      maxPayloadSize := by
  have hm : (crcMismatch msgType checksum calcCrc).length ≤ 100 := length_crcMismatch_le hm hs hc
  have hmsg : (sampleServer.nack 0 (crcMismatch msgType checksum calcCrc)).errorMessage.utf8ByteSize ≤
      1000 := by
    rw [← length_encodeUtf8]
    refine (Text.length_encodeUtf8_le _).trans ?_
    have hl : "CRC32 checksum mismatch: ".length ≤ 100 := by decide +kernel
    simp only [P2PServer.nack, String.length_toList, String.length_append]
    omega
  have hdump := length_nackCodec (sampleServer.nack 0 (crcMismatch msgType checksum calcCrc))
  have hmax : maxPayloadSize = 16777216 := rfl
  omega

theorem crc32_lt (b : Bytes) : (crc32 b).toNat < 16 ^ 8 := (crc32 b).isLt.trans_eq (by norm_num)

theorem sample_nackFits (i : ℕ) : sampleCall.NackFits (sampleEnv t) sampleServer 0 i :=
  sample_nack_le (small_frame i).msgType (crc32_lt _) (crc32_lt _)

/-- The payloads of the sample are not compressed, not empty, and within the limit. -/
theorem sample_body {i : ℕ} (hi : i < sampleCall.total) :
    (sampleCall.frame (sampleEnv t) 0 i).body (sampleEnv t) ≠ [] ∧
      (sampleCall.frame (sampleEnv t) 0 i).Fits (sampleEnv t) := by
  have hmax : maxPayloadSize = 16777216 := rfl
  have hlen : ∀ (o : Outgoing) (payload : Bytes), o.payload = payload → o.compress = false →
      0 < payload.length ∧ payload.length ≤ 2000 →
      o.body (sampleEnv t) ≠ [] ∧ o.Fits (sampleEnv t) := by
    intro o payload hp ho hl
    have hbody : o.body (sampleEnv t) = payload := by
      unfold Outgoing.body compressPayload
      rw [if_neg (by simp [ho]), hp]
    unfold Outgoing.Fits
    rw [hbody, ← List.length_pos_iff]
    exact ⟨hl.1, by omega⟩
  have hi' : i = 0 ∨ i = 1 ∨ i = 2 ∨ i = 3 := by
    simp only [total, sampleCall, List.length_cons, List.length_nil] at hi
    omega
  rcases hi' with rfl | rfl | rfl | rfl
  · have h := length_initCodec (sampleCall.initPayload 0)
    have hp : (sampleCall.frame (sampleEnv t) 0 0).payload =
        initCodec.dump (sampleCall.initPayload 0) := by
      simp only [frame, sampleEnv]
    exact hlen _ _ hp rfl ⟨h.1, h.2.trans (by decide)⟩
  · have h := length_sessionCodec sampleA
    have hid : 1000 + sampleA.requestId.utf8ByteSize ≤ 2000 := by decide +kernel
    have hp : (sampleCall.frame (sampleEnv t) 0 1).payload = sessionCodec.dump sampleA := by
      rw [frame_state (by decide)]
      simp only [sampleEnv, sampleCall, List.getElem_cons_zero]
    exact hlen _ _ hp rfl ⟨h.1, h.2.trans hid⟩
  · have h := length_sessionCodec sampleB
    have hid : 1000 + sampleB.requestId.utf8ByteSize ≤ 2000 := by decide +kernel
    have hp : (sampleCall.frame (sampleEnv t) 0 2).payload = sessionCodec.dump sampleB := by
      rw [frame_state (by decide)]
      simp only [sampleEnv, sampleCall, List.getElem_cons_zero, List.getElem_cons_succ]
    exact hlen _ _ hp rfl ⟨h.1, h.2.trans hid⟩
  · have h : 0 < finPayload.length ∧ finPayload.length ≤ 2000 := by decide +kernel
    have hp : (sampleCall.frame (sampleEnv t) 0 3).payload = finPayload := rfl
    exact hlen _ _ hp rfl h

/-- The frames of the sample that are altered. -/
theorem sample_altered {keys : FrameKey → Bool} {i : ℕ} (hi : i < sampleCall.total) :
    sampleCall.Altered (sampleEnv (.flip keys)) 0 i ↔
      keys (sampleCall.frame (sampleEnv (.flip keys)) 0 i).key = true :=
  Transit.altered_flip rfl (sample_body _ hi).1

theorem sample_unhindered (hfin : ¬ sampleCall.Altered (sampleEnv t) 0 3)
    (hnack : sampleCall.NacksFit (sampleEnv t) sampleServer 0 sampleCall.total) :
    sampleCall.Unhindered (sampleEnv t) sampleServer 0 where
  fits := fun _ hi => (sample_body t hi).2
  nackFits := hnack
  nackLoads := fun _ _ _ => nackCodec_keeps _
  initLoads := sample_initLoads t
  fin := hfin

theorem sample_intact : ∀ i < sampleCall.total,
    ¬ sampleCall.Altered (sampleEnv (.flip fun _ => false)) 0 i :=
  fun i hi ha => by simpa using (sample_altered hi).mp ha

theorem sample_ackFits : sampleCall.AckFits (sampleEnv (.flip fun _ => false)) sampleServer 0 := by
  unfold AckFits ackOf
  rw [ingested_of_intact sample_intact]
  exact length_ackCodec.trans (by decide)

/-- Nothing is altered: the sender of the sample gets its acknowledgement. -/
theorem P2P.sample_returns : ∃ ls q ack,
    Machine.run (P2P.step (sampleEnv (.flip fun _ => false))) (P2P.new sampleServer samplePeers) ls =
      some q ∧ (q.conns 0).client = .returned ack := by
  have hl := sample_loads (.flip fun _ => false)
  have hU := sample_unhindered (.flip fun _ => false) (sample_intact 3 (by decide))
    fun i hi ha => absurd ha (sample_intact i hi)
  have hpeers : samplePeers 0 = some sampleCall := rfl
  obtain ⟨ls, q, hr, hclean, hdone⟩ := P2P.exists_complete_run hl hpeers (Machine.run_nil _ _)
  obtain ⟨ack, hack⟩ := P2P.returns_of_intact hpeers hl rfl hU sample_intact sample_ackFits hr hclean hdone.1
  exact ⟨ls, q, ack, hr, hack⟩

/-- Both sessions are accepted. -/
theorem P2P.sendSessions_acknowledged_two : ∃ ls q ack,
    Machine.run (P2P.step (sampleEnv (.flip fun _ => false))) (P2P.new sampleServer samplePeers) ls =
      some q ∧ (q.conns 0).client = .returned ack ∧
      (q.conns 0).handler.invocations = [(0, [sampleA, sampleB])] ∧
      ack.acceptedRequestIds = ["req-a", "req-b"] := by
  obtain ⟨ls, q, ack, hr, hack⟩ := P2P.sample_returns
  have hpeers : samplePeers 0 = some sampleCall := rfl
  have h := P2P.sendSessions_acknowledged hpeers (sample_loads (.flip fun _ => false)) hr hack
  exact ⟨ls, q, ack, hr, hack, h.1, h.2⟩

end Sgm
