/-
# The frames of a handover

What a call of `send_sessions` writes is fixed from the start: a HANDOVER_INIT,
one REQUEST_STATE for each session, a HANDOVER_FIN, numbered here from 0. The
handler reads them in this order, and what it has ingested and answered after
the first `r` of them is a function of which of them are altered in transit.

Key definitions: `SendSessions.frame`, `Outgoing.Fits`, `Outgoing.Altered`,
`SendSessions.ingested`, `SendSessions.nacks`, `SendSessions.calls`,
`SendSessions.ackOf`.
Key theorems: `SendSessions.read_wire_intact`, `SendSessions.read_wire_altered`,
`SendSessions.nacks_head`, `SendSessions.ingested_eq_iff`.
-/
import Sgm.Transport.P2p

namespace Sgm

open Framing Crc32

/-! ### One frame -/

/-- A frame as a sender makes it, and the sessions it is about. -/
structure Outgoing where
  key : FrameKey
  msgType : ℕ
  payload : Bytes
  flags : ℕ := FrameFlags.none
  compress : Bool := false
  carried : List InferenceSession := []

namespace Outgoing

variable (env : P2PEnv) (c : ℕ) (o : Outgoing)

/-- The payload behind the header. -/
def body : Bytes := (compressPayload env.zlib o.payload o.flags o.compress).1

/-- The frame is within the limit of the protocol. -/
def Fits : Prop := (o.body env).length ≤ maxPayloadSize

instance : Decidable (o.Fits env) := inferInstanceAs (Decidable (_ ≤ _))

def bytes : Bytes :=
  (headerOf env.zlib o.msgType o.payload o.flags protocolVersion o.compress).bytes ++ o.body env

/-- The bytes that arrive. -/
def wire : Bytes := (env.transit c).deliver o.key (o.bytes env)

/-- The payload arrives otherwise than it was sent. -/
def Altered : Prop := (env.transit c).arrive o.key (o.body env) ≠ o.body env

instance : Decidable (o.Altered env c) := inferInstanceAs (Decidable (_ ≠ _))

/-- The text of the checksum error, where the frame is altered. -/
def mismatch : String :=
  crcMismatch o.msgType (crc32 (o.body env)).toNat
    (crc32 ((env.transit c).arrive o.key (o.body env))).toNat

/-- The message type and the flags are in range, and do not say that the
payload is compressed already. -/
structure Small : Prop where
  msgType : o.msgType < 256
  flags : o.flags = FrameFlags.none ∨ o.flags = FrameFlags.isLastChunk

variable {env c o}

theorem Small.activeFlags (h : o.Small) :
    (compressPayload env.zlib o.payload o.flags o.compress).2 < 65536 := by
  unfold compressPayload
  rcases h.flags with hf | hf <;> split <;>
    simp [hf, FrameFlags.none, FrameFlags.isLastChunk, FrameFlags.isCompressed]

theorem Small.uncompressed (h : o.Small) : o.flags &&& FrameFlags.isCompressed = 0 := by
  rcases h.flags with hf | hf <;> rw [hf] <;> rfl

theorem pack_of_fits (hs : o.Small) (h : o.Fits env) :
    packFrame env.zlib o.msgType o.payload o.flags protocolVersion o.compress =
      .ok (o.bytes env) :=
  packFrame_eq_ok.mpr ⟨h, headerOf_inRange (by decide) hs.msgType hs.activeFlags h, rfl⟩

theorem pack_of_not_fits (h : ¬ o.Fits env) :
    ∃ msg, packFrame env.zlib o.msgType o.payload o.flags protocolVersion o.compress =
      .error (.valueError msg) := by
  unfold packFrame
  exact ⟨_, if_pos (not_le.mp h)⟩

theorem take_bytes : (o.bytes env).take headerSize =
    (headerOf env.zlib o.msgType o.payload o.flags protocolVersion o.compress).bytes :=
  List.take_left' (Header.length_bytes _)

theorem drop_bytes : (o.bytes env).drop headerSize = o.body env :=
  List.drop_left' (Header.length_bytes _)

theorem wire_of_intact (h : ¬ o.Altered env c) : o.wire env c = o.bytes env := by
  have ha : (env.transit c).arrive o.key (o.body env) = o.body env := not_not.mp h
  rw [wire, Transit.deliver, take_bytes, drop_bytes, ha]
  rfl

/-- A frame that arrives intact is read as it was made. -/
theorem read_wire_intact (hs : o.Small) (hf : o.Fits env) (ha : ¬ o.Altered env c)
    (hz : o.compress = true →
      env.zlib.decompress (env.zlib.compress o.payload) = .ok o.payload) (rest : Bytes) :
    ∃ flags, readFrameAsync env.zlib (o.wire env c ++ rest) =
      .frame o.msgType flags o.payload rest := by
  rw [wire_of_intact ha]
  exact ⟨_, readFrameAsync_intact hs.uncompressed hz (pack_of_fits hs hf) rest⟩

/-- An altered frame is read as a checksum error, and is off the stream. -/
theorem read_wire_altered (hs : o.Small) (hf : o.Fits env) (ha : o.Altered env c) (rest : Bytes) :
    readFrameAsync env.zlib (o.wire env c ++ rest) =
      .raised (.crc32VerificationError (o.mismatch env c)) rest := by
  have hc := ((env.transit c).detected o.key (o.body env)).resolve_left ha
  have hl := (env.transit c).length_arrive o.key (o.body env)
  have hlen : ((env.transit c).arrive o.key (o.body env)).length =
      ((o.bytes env).drop headerSize).length := by
    rw [drop_bytes, hl]
  have hr := readFrameAsync_altered (pack_of_fits hs hf) hlen (by rwa [drop_bytes]) rest
  rw [drop_bytes] at hr
  rw [wire, Transit.deliver, drop_bytes]
  exact hr

end Outgoing

/-! ### Replies -/

/-- The bytes of a reply. -/
def replyBytes (env : P2PEnv) (msgType : ℕ) (payload : Bytes) : Bytes :=
  (headerOf env.zlib msgType payload FrameFlags.none protocolVersion false).bytes ++ payload

theorem packFrame_reply {env : P2PEnv} {msgType : ℕ} {payload : Bytes} (hm : msgType < 256)
    (h : payload.length ≤ maxPayloadSize) :
    packFrame env.zlib msgType payload FrameFlags.none protocolVersion false =
      .ok (replyBytes env msgType payload) := by
  have hflags : FrameFlags.none < 65536 := by decide
  exact packFrame_eq_ok.mpr ⟨h, headerOf_inRange (by decide) hm hflags h, rfl⟩

theorem packFrame_reply_too_long {env : P2PEnv} {msgType : ℕ} {payload : Bytes}
    (h : ¬ payload.length ≤ maxPayloadSize) :
    ∃ e, packFrame env.zlib msgType payload FrameFlags.none protocolVersion false = .error e := by
  unfold packFrame
  exact ⟨_, if_pos (not_le.mp h)⟩

theorem read_reply {env : P2PEnv} {msgType : ℕ} {payload : Bytes} (hm : msgType < 256)
    (h : payload.length ≤ maxPayloadSize) (rest : Bytes) :
    ∃ flags, readFrameAsync env.zlib (replyBytes env msgType payload ++ rest) =
      .frame msgType flags payload rest :=
  ⟨_, readFrameAsync_intact rfl (fun hc => Bool.noConfusion hc) (packFrame_reply hm h) rest⟩

/-- Each registered callback called once with these sessions, and none with no
sessions. -/
def P2PServer.callsFor (srv : P2PServer) (sessions : List InferenceSession) :
    List (SessionHandlerCallback × List InferenceSession) :=
  if sessions = [] then [] else srv.sessionCallbacks.map (·, sessions)

/-! ### The frames of a call -/

namespace SendSessions

variable (env : P2PEnv) (srv : P2PServer) (c : ℕ) (call : SendSessions)

/-- How many frames a call writes. -/
def total : ℕ := call.sessions.length + 2

/-- The frames of a call, in the order they are written. -/
def frame : ℕ → Outgoing
  | 0 => {
      key := .handoverInit
      msgType := MessageType.handoverInit
      payload := env.handoverInit.dump (call.initPayload (env.clientTimeNs c)) }
  | i + 1 =>
    match call.sessions[i]? with
    | some session => {
        key := .requestState i 0
        msgType := MessageType.requestState
        payload := env.session.dump session
        flags := call.stateFlags i
        compress := call.compress
        carried := [session] }
    | none => {
        key := .handoverFin
        msgType := MessageType.handoverFin
        payload := finPayload }

/-- Frame `i` is altered in transit. -/
def Altered (i : ℕ) : Prop := (call.frame env c i).Altered env c

instance (i : ℕ) : Decidable (call.Altered env c i) := inferInstanceAs (Decidable (_ ≠ _))

/-- The sessions of the intact ones among the first `r` frames. -/
def ingested (r : ℕ) : List InferenceSession :=
  (List.range r).flatMap fun i => if call.Altered env c i then [] else (call.frame env c i).carried

/-- The answer to frame `i`, where it is altered. -/
def nackOf (i : ℕ) : HandoverNack :=
  srv.nack (env.serverTimeNs c (i + 1)) ((call.frame env c i).mismatch env c)

def NackFits (i : ℕ) : Prop :=
  (env.handoverNack.dump (call.nackOf env srv c i)).length ≤ maxPayloadSize

instance (i : ℕ) : Decidable (call.NackFits env srv c i) := inferInstanceAs (Decidable (_ ≤ _))

def nackBytes (i : ℕ) : Bytes :=
  replyBytes env MessageType.handoverNack (env.handoverNack.dump (call.nackOf env srv c i))

/-- The answers to the altered ones among the first `r` frames. -/
def nacks (r : ℕ) : Bytes :=
  (List.range r).flatMap fun i => if call.Altered env c i then call.nackBytes env srv c i else []

/-- The calls of callbacks, if the HANDOVER_FIN is accepted. -/
def calls : List (SessionHandlerCallback × List InferenceSession) :=
  srv.callsFor (call.ingested env c call.total)

/-- The acknowledgement, if the HANDOVER_FIN is accepted. -/
def ackOf : HandoverAck :=
  srv.ack (env.serverTimeNs c call.total) (call.ingested env c call.total)

def AckFits : Prop :=
  (env.handoverAck.dump (call.ackOf env srv c)).length ≤ maxPayloadSize

instance : Decidable (call.AckFits env srv c) := inferInstanceAs (Decidable (_ ≤ _))

def ackBytes : Bytes :=
  replyBytes env MessageType.handoverAck (env.handoverAck.dump (call.ackOf env srv c))

/-- The libraries give back what they were given: the sessions, the payloads of
their frames, and the acknowledgement of all of them. -/
structure Loads : Prop where
  session : ∀ s ∈ call.sessions, env.session.Keeps s
  zlib : call.compress = true → ∀ s ∈ call.sessions,
    env.zlib.decompress (env.zlib.compress (env.session.dump s)) = .ok (env.session.dump s)
  ack : env.handoverAck.Keeps (srv.ack (env.serverTimeNs c call.total) call.sessions)

variable {env srv c call}

theorem frame_state {i : ℕ} (h : i < call.sessions.length) :
    call.frame env c (i + 1) = {
      key := .requestState i 0
      msgType := MessageType.requestState
      payload := env.session.dump call.sessions[i]
      flags := call.stateFlags i
      compress := call.compress
      carried := [call.sessions[i]] } := by
  simp only [frame, List.getElem?_eq_getElem h]

theorem frame_fin : call.frame env c (call.sessions.length + 1) = {
    key := .handoverFin
    msgType := MessageType.handoverFin
    payload := finPayload } := by
  simp only [frame, List.getElem?_eq_none (le_refl _)]

theorem small_frame (i : ℕ) : (call.frame env c i).Small := by
  cases i with
  | zero => exact ⟨by simp [frame, MessageType.handoverInit], Or.inl rfl⟩
  | succ i =>
    rcases lt_or_ge i call.sessions.length with hi | hi
    · rw [frame_state hi]
      refine ⟨by simp [MessageType.requestState], ?_⟩
      simp only [stateFlags]
      split
      · exact Or.inr rfl
      · exact Or.inl rfl
    · simp only [frame, List.getElem?_eq_none hi]
      exact ⟨by simp [MessageType.handoverFin], Or.inl rfl⟩

theorem Loads.lossless (h : call.Loads env srv c) (i : ℕ)
    (hc : (call.frame env c i).compress = true) :
    env.zlib.decompress (env.zlib.compress (call.frame env c i).payload) =
      .ok (call.frame env c i).payload := by
  cases i with
  | zero => simp [frame] at hc
  | succ i =>
    rcases lt_or_ge i call.sessions.length with hi | hi
    · rw [frame_state hi] at hc ⊢
      exact h.zlib hc _ (List.getElem_mem hi)
    · simp [frame, List.getElem?_eq_none hi] at hc

/-! ### What the handler makes of them -/

theorem ingested_succ (r : ℕ) : call.ingested env c (r + 1) = call.ingested env c r ++
    if call.Altered env c r then [] else (call.frame env c r).carried := by
  simp [ingested, List.range_succ]

theorem nacks_succ (r : ℕ) : call.nacks env srv c (r + 1) = call.nacks env srv c r ++
    if call.Altered env c r then call.nackBytes env srv c r else [] := by
  simp [nacks, List.range_succ]

variable (srv) in
/-- The first answer is to the first altered frame. -/
theorem nacks_head {r : ℕ} (h : ∃ i < r, call.Altered env c i) :
    ∃ i < r, call.Altered env c i ∧
      ∃ rest, call.nacks env srv c r = call.nackBytes env srv c i ++ rest := by
  induction r with
  | zero =>
    obtain ⟨i, hi, -⟩ := h
    omega
  | succ r ih =>
    by_cases hr : ∃ i < r, call.Altered env c i
    · obtain ⟨i, hi, ha, rest, he⟩ := ih hr
      exact ⟨i, by omega, ha, _, by rw [nacks_succ, he, List.append_assoc]⟩
    · obtain ⟨i, hi, ha⟩ := h
      obtain rfl : i = r := by
        by_contra hne
        exact hr ⟨i, by omega, ha⟩
      refine ⟨i, by omega, ha, [], ?_⟩
      have hnil : call.nacks env srv c i = [] := by
        rw [nacks, List.flatMap_eq_nil_iff]
        intro j hj
        exact if_neg fun hja => hr ⟨j, List.mem_range.mp hj, hja⟩
      rw [nacks_succ, hnil, if_pos ha, List.append_nil, List.nil_append]

theorem nacks_of_intact {r : ℕ} (h : ∀ i < r, ¬ call.Altered env c i) :
    call.nacks env srv c r = [] := by
  rw [nacks, List.flatMap_eq_nil_iff]
  intro i hi
  exact if_neg (h i (List.mem_range.mp hi))

/-- The sessions of the first `r` of the states, of which none is altered. -/
theorem ingested_take {r : ℕ} (hr : r ≤ call.sessions.length)
    (h : ∀ i < r, ¬ call.Altered env c (i + 1)) :
    call.ingested env c (r + 1) = call.sessions.take r := by
  induction r with
  | zero => simp [ingested, frame]
  | succ r ih =>
    rw [ingested_succ, ih (by omega) fun i hi => h i (by omega), if_neg (h r (by omega)),
      frame_state (by omega), List.take_succ_eq_append_getElem (by omega)]

theorem ingested_total : call.ingested env c call.total =
    call.ingested env c (call.sessions.length + 1) := by
  rw [total, ingested_succ, frame_fin]
  split <;> simp

theorem length_ingested_le {r : ℕ} (hr : r ≤ call.sessions.length) :
    (call.ingested env c (r + 1)).length ≤ r := by
  induction r with
  | zero => simp [ingested, frame]
  | succ r ih =>
    rw [ingested_succ, List.length_append]
    have := ih (by omega)
    split
    · simp only [List.length_nil]
      omega
    · rw [frame_state (by omega)]
      simp only [List.length_singleton]
      omega

/-- An altered state is missing. -/
theorem length_ingested_lt {r j : ℕ} (hr : r ≤ call.sessions.length) (hj : j < r)
    (h : call.Altered env c (j + 1)) : (call.ingested env c (r + 1)).length < r := by
  induction r with
  | zero => omega
  | succ r ih =>
    rw [ingested_succ, List.length_append]
    by_cases hjr : j = r
    · subst hjr
      rw [if_pos h, List.length_nil]
      have hle : (call.ingested env c (j + 1)).length ≤ j := length_ingested_le (by omega)
      omega
    · have := ih (by omega) (by omega)
      split
      · simp only [List.length_nil]
        omega
      · rw [frame_state (by omega)]
        simp only [List.length_singleton]
        omega

/-- All the sessions are ingested just in case no state is altered. -/
theorem ingested_eq_iff : call.ingested env c call.total = call.sessions ↔
    ∀ i < call.sessions.length, ¬ call.Altered env c (i + 1) := by
  rw [ingested_total]
  constructor
  · intro h i hi ha
    have := length_ingested_lt (le_refl _) hi ha
    rw [h] at this
    omega
  · intro h
    rw [ingested_take (le_refl _) h, List.take_length]

/-- No session is ingested just in case every state is altered. -/
theorem ingested_eq_nil_iff : call.ingested env c call.total = [] ↔
    ∀ i < call.sessions.length, call.Altered env c (i + 1) := by
  rw [ingested_total]
  constructor
  · intro h i hi
    by_contra ha
    rw [ingested, List.flatMap_eq_nil_iff] at h
    have := h (i + 1) (List.mem_range.mpr (by omega))
    rw [if_neg ha, frame_state hi] at this
    simp at this
  · intro h
    rw [ingested, List.flatMap_eq_nil_iff]
    intro i hi
    rw [List.mem_range] at hi
    cases i with
    | zero => simp [frame]
    | succ i => exact if_pos (h i (by omega))

end SendSessions
end Sgm
