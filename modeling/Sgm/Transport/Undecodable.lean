/-
# Frames that cannot be decoded

A peer of the P2P server may write any bytes. A complete frame with a valid
header can still be no message: its checksum does not match, zlib does not
decompress it, or the model refuses the JSON. The handler answers the first
kind, which the frame reader raises as an exception of its own, by a
`HANDOVER_NACK`; at the others it ends without a reply. So every such frame of a
stream is answered exactly when all of them are of the first kind, with an
answer that fits a frame, and none comes after the end of the handover
(`Answerable`).

Key definitions: `WireFrame`, `WireFrame.stream`, `Undecodable`, `Answers`, `Answerable`, `Account`.
Key theorems: `WireFrame.stream_append`, `P2P.serve_wireFrame`, `account_step`,
`P2P.answers_iff`.
-/
import Sgm.Protocol.Decoding
import Sgm.Transport.Acknowledged

namespace Sgm

open Framing Crc32

/-! ### Complete frames in a stream -/

/-- A complete frame with a valid header, and the payload that has arrived. -/
@[ext]
structure WireFrame where
  header : Header
  payload : Bytes
  inRange : header.InRange
  limit : header.payloadLen ≤ maxPayloadSize
  length_payload : payload.length = header.payloadLen

namespace WireFrame

def bytes (w : WireFrame) : Bytes := w.header.bytes ++ w.payload

/-- Frames one after the other. -/
def stream (fs : List WireFrame) : Bytes := fs.flatMap bytes

@[simp] theorem stream_nil : stream [] = [] := rfl

@[simp] theorem stream_cons (w : WireFrame) (fs : List WireFrame) :
    stream (w :: fs) = w.bytes ++ stream fs := rfl

@[simp] theorem stream_concat (fs : List WireFrame) (w : WireFrame) :
    stream (fs ++ [w]) = stream fs ++ w.bytes := by
  unfold stream
  rw [List.flatMap_append, List.flatMap_singleton]

theorem take_bytes (w : WireFrame) (rest : Bytes) :
    (w.bytes ++ rest).take headerSize = w.header.bytes := by
  rw [bytes, List.append_assoc]
  exact List.take_left' w.header.length_bytes

theorem read_bytes (zlib : Zlib) (w : WireFrame) (rest : Bytes) :
    readFrameAsync zlib (w.bytes ++ rest) =
      match openPayload zlib w.header w.payload with
      | .error e => .raised e rest
      | .ok payload => .frame w.header.msgType w.header.flags payload rest :=
  readFrameAsync_append w.inRange w.limit w.length_payload rest

/-- The header says where a frame ends. -/
theorem bytes_append_inj {w w' : WireFrame} {rest rest' : Bytes}
    (h : w.bytes ++ rest = w'.bytes ++ rest') : w = w' ∧ rest = rest' := by
  have hhead : w.header = w'.header := by
    have ht := congrArg (fun b => unpackFrameHeader (b.take headerSize)) h
    simp only [take_bytes, unpackFrameHeader_bytes w.inRange w.limit,
      unpackFrameHeader_bytes w'.inRange w'.limit] at ht
    exact Except.ok.inj ht
  have hlen : w.bytes.length = w'.bytes.length := by
    unfold bytes
    rw [List.length_append, List.length_append, w.length_payload, w'.length_payload, hhead]
  obtain ⟨hb, hrest⟩ := List.append_inj h hlen
  refine ⟨WireFrame.ext hhead ?_, hrest⟩
  unfold bytes at hb
  rw [hhead] at hb
  exact List.append_cancel_left hb

/-- Of two ways to see frames in a stream, one goes on where the other stops. -/
theorem stream_append {fs fs' : List WireFrame} {tail tail' : Bytes}
    (h : stream fs ++ tail = stream fs' ++ tail') (hl : fs.length ≤ fs'.length) :
    ∃ more, fs' = fs ++ more ∧ tail = stream more ++ tail' := by
  induction fs generalizing fs' with
  | nil => exact ⟨fs', rfl, h⟩
  | cons w fs ih =>
    rcases fs' with _ | ⟨w', fs'⟩
    · exact absurd hl (by simp)
    rw [stream_cons, stream_cons, List.append_assoc, List.append_assoc] at h
    obtain ⟨rfl, hrest⟩ := bytes_append_inj h
    obtain ⟨more, rfl, ht⟩ := ih hrest (Nat.le_of_succ_le_succ hl)
    exact ⟨more, rfl, ht⟩

/-- What a read finds: a complete frame, not yet one, or a header that is none. -/
theorem read_cases (zlib : Zlib) (b : Bytes) :
    (∃ w rest, b = WireFrame.bytes w ++ rest) ∨ readFrameAsync zlib b = .incomplete ∨
      headerSize ≤ b.length ∧ ∃ msg, unpackFrameHeader (b.take headerSize) = .error (.valueError msg) ∧
        readFrameAsync zlib b = .raised (.valueError msg) (b.drop headerSize) := by
  by_cases hs : b.length < headerSize
  · refine Or.inr (Or.inl ?_)
    unfold readFrameAsync
    rw [if_pos hs]
  cases hh : unpackFrameHeader (b.take headerSize) with
  | error e =>
    obtain ⟨msg, rfl⟩ : ∃ msg, e = .valueError msg := by
      unfold unpackFrameHeader at hh
      simp only at hh
      split_ifs at hh
      · exact ⟨_, (Except.error.inj hh).symm⟩
      · exact ⟨_, (Except.error.inj hh).symm⟩
      · exact ⟨_, (Except.error.inj hh).symm⟩
    refine Or.inr (Or.inr ⟨not_lt.mp hs, msg, rfl, ?_⟩)
    unfold readFrameAsync
    rw [if_neg hs, hh]
  | ok h =>
    by_cases hbody : (b.drop headerSize).length < h.payloadLen
    · refine Or.inr (Or.inl ?_)
      unfold readFrameAsync
      rw [if_neg hs, hh]
      simp only [if_pos hbody]
    · obtain ⟨hbytes, hr, hl⟩ := unpackFrameHeader_eq_ok.mp hh
      have hlen : ((b.drop headerSize).take h.payloadLen).length = h.payloadLen := by
        rw [List.length_take]
        omega
      refine Or.inl ⟨⟨h, (b.drop headerSize).take h.payloadLen, hr, hl, hlen⟩,
        (b.drop headerSize).drop h.payloadLen, ?_⟩
      unfold bytes
      rw [← hbytes, List.append_assoc, List.take_append_drop, List.take_append_drop]

end WireFrame

/-! ### Which frames cannot be decoded -/

section
variable (env : P2PEnv) (srv : P2PServer) (c : ℕ)

/-- The payload cannot be turned into the message. -/
def Undecodable (w : WireFrame) : Prop :=
  match openPayload env.zlib w.header w.payload with
  | .error _ => True
  | .ok payload =>
    w.header.msgType = MessageType.handoverInit ∧ (∃ e, env.handoverInit.load payload = .error e) ∨
    w.header.msgType = MessageType.requestState ∧ ∃ e, env.session.load payload = .error e

def Mismatched (w : WireFrame) : Prop := (crc32 w.payload).toNat ≠ w.header.checksum

instance (w : WireFrame) : Decidable (Mismatched w) :=
  inferInstanceAs (Decidable ((crc32 w.payload).toNat ≠ w.header.checksum))

/-- The frame ends the handover. -/
def EndsHandover (w : WireFrame) : Prop :=
  (∃ payload, openPayload env.zlib w.header w.payload = .ok payload) ∧
    w.header.msgType = MessageType.handoverFin

/-- The answer to a frame whose checksum does not match, as frame `i` of connection `c`. -/
def nackTo (i : ℕ) (w : WireFrame) : HandoverNack :=
  srv.nack (env.serverTimeNs c (i + 1))
    (crcMismatch w.header.msgType w.header.checksum (crc32 w.payload).toNat)

def NackToFits (i : ℕ) (w : WireFrame) : Prop :=
  (env.handoverNack.dump (nackTo env srv c i w)).length ≤ maxPayloadSize

/-- The bytes of the answer. -/
def nackToBytes (i : ℕ) (w : WireFrame) : Bytes :=
  replyBytes env MessageType.handoverNack (env.handoverNack.dump (nackTo env srv c i w))

end

section
variable {env : P2PEnv} {srv : P2PServer} {c i : ℕ} {w : WireFrame} {rest : Bytes} {p q : P2P}

theorem openPayload_of_mismatched (zlib : Zlib) (h : Mismatched w) :
    openPayload zlib w.header w.payload = .error (.crc32VerificationError
      (crcMismatch w.header.msgType w.header.checksum (crc32 w.payload).toNat)) := by
  unfold openPayload
  exact if_pos h

theorem undecodable_of_mismatched (h : Mismatched w) : Undecodable env w := by
  unfold Undecodable
  rw [openPayload_of_mismatched env.zlib h]
  trivial

theorem not_mismatched_of_ok {payload : Bytes}
    (h : openPayload env.zlib w.header w.payload = .ok payload) : ¬ Mismatched w := by
  intro hm
  rw [openPayload_of_mismatched env.zlib hm] at h
  cases h

/-- With a checksum that matches only zlib raises. -/
theorem openPayload_error_of_matched {e : Exc}
    (hz : ∀ b msg, env.zlib.decompress b ≠ .error (.crc32VerificationError msg))
    (hm : ¬ Mismatched w) (h : openPayload env.zlib w.header w.payload = .error e) (msg : String) :
    e ≠ .crc32VerificationError msg := by
  rintro rfl
  unfold openPayload at h
  unfold Mismatched at hm
  simp only [if_neg hm] at h
  split_ifs at h
  exact hz _ _ h

/-- What reading `w`, as frame `i` of the connection, makes of the connection:
`out` is what was written before, and `rest` what is left to read. -/
inductive ReadFrame (env : P2PEnv) (srv : P2PServer) (c i : ℕ) (w : WireFrame) (rest out : Bytes)
    (k' : P2PConn) : Prop
  | nacked (hu : Undecodable env w) (hm : Mismatched w) (hf : NackToFits env srv c i w)
    (hp : k'.handler.point = .replied) (ht : k'.toServer = rest)
    (hr : k'.toClient = out ++ nackToBytes env srv c i w)
  | dropped (hu : Undecodable env w) (hn : ¬ (Mismatched w ∧ NackToFits env srv c i w))
    (hp : k'.handler.point = .closed) (hr : k'.toClient = out)
  | passed (hu : ¬ Undecodable env w) (he : ¬ EndsHandover env w)
    (hp : k'.handler.point = .reading ∨ k'.handler.point = .replied) (ht : k'.toServer = rest)
  | ended (hu : ¬ Undecodable env w) (he : EndsHandover env w)
    (hp : k'.handler.point = .gathering ∨ k'.handler.point = .acked ∨ k'.handler.point = .closed)

theorem undecodable_of_ok {payload : Bytes}
    (h : openPayload env.zlib w.header w.payload = .ok payload) :
    Undecodable env w ↔
      w.header.msgType = MessageType.handoverInit ∧
        (∃ e, env.handoverInit.load payload = .error e) ∨
      w.header.msgType = MessageType.requestState ∧ ∃ e, env.session.load payload = .error e := by
  unfold Undecodable
  rw [h]

theorem undecodable_init {payload : Bytes} (h : openPayload env.zlib w.header w.payload = .ok payload)
    (ht : w.header.msgType = MessageType.handoverInit) :
    Undecodable env w ↔ ∃ e, env.handoverInit.load payload = .error e := by
  have hne : w.header.msgType ≠ MessageType.requestState := by
    rw [ht]
    decide
  rw [undecodable_of_ok h, or_iff_left fun hr => hne hr.1, and_iff_right ht]

theorem undecodable_state {payload : Bytes} (h : openPayload env.zlib w.header w.payload = .ok payload)
    (ht : w.header.msgType = MessageType.requestState) :
    Undecodable env w ↔ ∃ e, env.session.load payload = .error e := by
  have hne : w.header.msgType ≠ MessageType.handoverInit := by
    rw [ht]
    decide
  rw [undecodable_of_ok h, or_iff_right fun hi => hne hi.1, and_iff_right ht]

/-- The payloads of the other frames are not loaded. -/
theorem not_undecodable {payload : Bytes} (h : openPayload env.zlib w.header w.payload = .ok payload)
    (hi : w.header.msgType ≠ MessageType.handoverInit)
    (hr : w.header.msgType ≠ MessageType.requestState) : ¬ Undecodable env w := by
  rw [undecodable_of_ok h]
  rintro (⟨ht, -⟩ | ⟨ht, -⟩)
  · exact hi ht
  · exact hr ht

/-- The frames that the reader hands to the handler. -/
theorem P2P.handleFrame_read (env : P2PEnv) (srv : P2PServer) (c i : ℕ) {payload : Bytes}
    (k : P2PConn) (hrun : p.server.running = true)
    (ho : openPayload env.zlib w.header w.payload = .ok payload) (hk : k.toServer = rest) :
    ∃ k', (p.handleFrame env c k w.header.msgType payload).conns c = k' ∧ k'.client = k.client ∧
      k'.handler.framesRead = k.handler.framesRead ∧ ReadFrame env srv c i w rest k.toClient k' := by
  have hloop : p.server.loop = .reading := if_pos hrun
  have hmatch := not_mismatched_of_ok ho
  have hends : w.header.msgType ≠ MessageType.handoverFin → ¬ EndsHandover env w := fun h he => h he.2
  unfold handleFrame
  by_cases hinit : w.header.msgType = MessageType.handoverInit
  · rw [if_pos hinit]
    have hfin : w.header.msgType ≠ MessageType.handoverFin := by
      rw [hinit]
      decide
    have hu := undecodable_init ho hinit
    split
    · rename_i initData hload
      have hdec : ¬ Undecodable env w := by
        rw [hu, hload]
        rintro ⟨e, he⟩
        cases he
      rw [put_self]
      exact ⟨_, rfl, rfl, rfl, .passed hdec (hends hfin) (Or.inl hloop) hk⟩
    · rename_i e hload
      rw [put_self]
      exact ⟨_, rfl, rfl, rfl, .dropped (hu.mpr ⟨e, hload⟩) (fun h => hmatch h.1) rfl rfl⟩
  rw [if_neg hinit]
  by_cases hreq : w.header.msgType = MessageType.requestState
  · rw [if_pos hreq]
    have hfin : w.header.msgType ≠ MessageType.handoverFin := by
      rw [hreq]
      decide
    have hu := undecodable_state ho hreq
    split
    · rename_i session hload
      have hdec : ¬ Undecodable env w := by
        rw [hu, hload]
        rintro ⟨e, he⟩
        cases he
      rw [put_self]
      exact ⟨_, rfl, rfl, rfl, .passed hdec (hends hfin) (Or.inl hloop) hk⟩
    · rename_i e hload
      rw [put_self]
      exact ⟨_, rfl, rfl, rfl, .dropped (hu.mpr ⟨e, hload⟩) (fun h => hmatch h.1) rfl rfl⟩
  rw [if_neg hreq]
  have hdec : ¬ Undecodable env w := not_undecodable ho hinit hreq
  by_cases hfin : w.header.msgType = MessageType.handoverFin
  · rw [if_pos hfin]
    split_ifs
    · rw [put_self]
      exact ⟨_, rfl, rfl, rfl, .ended hdec ⟨⟨payload, ho⟩, hfin⟩ (Or.inl rfl)⟩
    · rw [put_self]
      unfold P2PConn.acknowledge P2PConn.reply
      split
      · exact ⟨_, rfl, rfl, rfl, .ended hdec ⟨⟨payload, ho⟩, hfin⟩ (Or.inr (Or.inl rfl))⟩
      · exact ⟨_, rfl, rfl, rfl, .ended hdec ⟨⟨payload, ho⟩, hfin⟩ (Or.inr (Or.inr rfl))⟩
  rw [if_neg hfin]
  split_ifs
  · rw [put_self]
    unfold P2PConn.reply
    rw [packFrame_reply (by decide) (by decide)]
    exact ⟨_, rfl, rfl, rfl, .passed hdec (hends hfin) (Or.inr rfl) hk⟩
  · rw [put_self]
    exact ⟨_, rfl, rfl, rfl, .passed hdec (hends hfin) (Or.inl hloop) hk⟩

/-- The handler reads a complete frame. -/
theorem P2P.serve_wireFrame (hz : ∀ b msg, env.zlib.decompress b ≠ .error (.crc32VerificationError msg))
    (hsame : p.server.SameAs srv) (hrun : p.server.running = true)
    (hp : (p.conns c).handler.point = .reading) (hb : (p.conns c).toServer = w.bytes ++ rest)
    (hi : (p.conns c).handler.framesRead = i) :
    ∃ q, p.step env (.serve c) = some q ∧ (q.conns c).client = (p.conns c).client ∧
      (q.conns c).handler.framesRead = i + 1 ∧ ReadFrame env srv c i w rest (p.conns c).toClient (q.conns c) := by
  have hread := w.read_bytes env.zlib rest
  simp only [step, hp, serve, hb, hread]
  cases ho : openPayload env.zlib w.header w.payload with
  | ok payload =>
    obtain ⟨k', hk', hclient, hframes, hres⟩ :=
      handleFrame_read env srv c i ((p.conns c).readOff rest) hrun ho rfl
    refine ⟨_, rfl, ?_, ?_, ?_⟩
    · rw [hk', hclient]
      rfl
    · rw [hk', hframes, ← hi]
      rfl
    · rw [hk']
      exact hres
  | error e =>
    by_cases hm : Mismatched w
    · rw [openPayload_of_mismatched env.zlib hm] at ho
      obtain rfl := Except.error.inj ho
      have hnack : p.server.nack (env.serverTimeNs c (i + 1))
          (crcMismatch w.header.msgType w.header.checksum (crc32 w.payload).toNat) =
            nackTo env srv c i w := by
        unfold nackTo P2PServer.nack
        rw [hsame.nodeId]
      refine ⟨_, rfl, ?_⟩
      rw [put_self]
      unfold P2PConn.sendNack P2PConn.reply P2PConn.readOff
      simp only [hi, hnack]
      by_cases hf : NackToFits env srv c i w
      · rw [packFrame_reply (by decide) hf]
        exact ⟨rfl, rfl, .nacked (undecodable_of_mismatched hm) hm hf rfl rfl rfl⟩
      · obtain ⟨e, he⟩ : ∃ e, packFrame env.zlib MessageType.handoverNack
            (env.handoverNack.dump (nackTo env srv c i w)) FrameFlags.none protocolVersion false =
              .error e := packFrame_reply_too_long hf
        rw [he]
        exact ⟨rfl, rfl, .dropped (undecodable_of_mismatched hm) (fun h => hf h.2) rfl rfl⟩
    · have hne := openPayload_error_of_matched hz hm ho
      have hu : Undecodable env w := by
        unfold Undecodable
        rw [ho]
        trivial
      split
      · rename_i hr
        cases hr
      · rename_i msg rest' hr
        exact absurd (Read.raised.inj hr).1 (hne msg)
      · rename_i e' rest' _ hr
        obtain ⟨-, rfl⟩ := Read.raised.inj hr
        refine ⟨_, rfl, ?_⟩
        rw [put_self]
        refine ⟨rfl, ?_, .dropped hu (fun h => hm h.1) rfl rfl⟩
        rw [← hi]
        rfl
      · rename_i hr
        cases hr

end

/-! ### A stream, and how far it has been read -/

/-- What a step writes on connection `c`. -/
def P2PLabel.written (c : ℕ) : P2PLabel → Bytes
  | .foreign c' bytes => if c' = c then bytes else []
  | _ => []

/-- What the peer of connection `c` writes in a run. -/
def writtenOn (c : ℕ) (ls : List P2PLabel) : Bytes := ls.flatMap (P2PLabel.written c)

theorem writtenOn_append (c : ℕ) (ls ls' : List P2PLabel) :
    writtenOn c (ls ++ ls') = writtenOn c ls ++ writtenOn c ls' :=
  List.flatMap_append

/-- Every undecodable frame of the stream `b` on connection `c` is answered: in
every run in which the peer has written `b`, the server does not stop and the
connection does not fail, the frame has been read or the handler goes on, and
the step that read it has written a `HANDOVER_NACK`. -/
def Answers (env : P2PEnv) (srv : P2PServer) (peers : ℕ → Option SendSessions) (c : ℕ) (b : Bytes) :
    Prop :=
  ∀ ls q, Machine.run (P2P.step env) (P2P.new srv peers) ls = some q → (∀ l ∈ ls, l.Clean c) →
    writtenOn c ls = b →
    ∀ fs w rest, b = WireFrame.stream (fs ++ [w]) ++ rest → Undecodable env w →
      (fs.length < (q.conns c).handler.framesRead ∨ (q.conns c).handler.point ≠ .closed) ∧
      ∀ pre post p p', ls = pre ++ .serve c :: post →
        Machine.run (P2P.step env) (P2P.new srv peers) pre = some p →
        P2P.step env p (.serve c) = some p' → (p.conns c).handler.framesRead = fs.length →
        (p'.conns c).handler.framesRead = fs.length + 1 →
        ∃ nack, (p'.conns c).toClient = (p.conns c).toClient ++
          replyBytes env MessageType.handoverNack (env.handoverNack.dump nack)

/-- Every undecodable frame of `b` has a checksum that does not match, an answer
within the limit, and no end of the handover before it. -/
def Answerable (env : P2PEnv) (srv : P2PServer) (c : ℕ) (b : Bytes) : Prop :=
  ∀ fs w rest, b = WireFrame.stream (fs ++ [w]) ++ rest → Undecodable env w →
    Mismatched w ∧ NackToFits env srv c fs.length w ∧ ∀ g ∈ fs, ¬ EndsHandover env g

/-- How far the handler has come in the stream `b`. -/
inductive Account (env : P2PEnv) (b : Bytes) (k : P2PConn) : Prop
  | reading (fs : List WireFrame) (hp : k.handler.point = .absent ∨ k.handler.point = .reading ∨
      k.handler.point = .replied) (hb : b = WireFrame.stream fs ++ k.toServer)
    (hn : k.handler.framesRead = fs.length)
  | ended (fs : List WireFrame) (g : WireFrame) (tail : Bytes) (he : EndsHandover env g)
    (hp : k.handler.point = .gathering ∨ k.handler.point = .acked ∨ k.handler.point = .closed)
    (hb : b = WireFrame.stream (fs ++ [g]) ++ tail) (hn : k.handler.framesRead = fs.length + 1)
  | hungUp (fs : List WireFrame) (hp : k.handler.point = .closed) (hk : k.client = .hungUp)
    (hb : b = WireFrame.stream fs ++ k.toServer) (hn : k.handler.framesRead = fs.length)
    (hi : readFrameAsync env.zlib k.toServer = .incomplete)
  | invalid (fs : List WireFrame) (tail : Bytes) (e : Exc) (hp : k.handler.point = .closed)
    (hb : b = WireFrame.stream fs ++ tail) (hs : headerSize ≤ tail.length)
    (he : unpackFrameHeader (tail.take headerSize) = .error e)
    (hn : k.handler.framesRead = fs.length + 1)

section
variable {env : P2PEnv} {srv : P2PServer} {c : ℕ} {b more : Bytes} {k : P2PConn} {p q : P2P}
  {l : P2PLabel}

theorem Answerable.left (h : Answerable env srv c (b ++ more)) : Answerable env srv c b := by
  intro fs w rest hb
  apply h fs w (rest ++ more)
  rw [hb, List.append_assoc]

/-- The frame in the longer list that comes next. -/
theorem next_frame {fs fs' : List WireFrame} {w : WireFrame} {tail rest : Bytes}
    (hb : WireFrame.stream fs ++ tail = WireFrame.stream (fs' ++ [w]) ++ rest)
    (hl : fs.length ≤ fs'.length) : ∃ w' rest', tail = w'.bytes ++ rest' ∧
      (fs.length = fs'.length → fs = fs' ∧ w' = w ∧ rest' = rest) := by
  obtain ⟨more, hfs, ht⟩ := WireFrame.stream_append hb (by simp; omega)
  rcases more with _ | ⟨w', more⟩
  · have := congrArg List.length hfs
    simp at this
    omega
  · refine ⟨w', WireFrame.stream more ++ rest, by rw [ht, WireFrame.stream_cons, List.append_assoc],
      fun he => ?_⟩
    obtain ⟨rfl, hw⟩ := List.append_inj hfs he.symm
    obtain ⟨rfl, hmore⟩ := List.cons.inj hw
    rw [← hmore]
    exact ⟨rfl, rfl, rfl⟩

/-- A handler that has ended has read every undecodable frame. -/
theorem Account.all_read (h : Account env b k) (hc : k.handler.point = .closed)
    (ha : Answerable env srv c b) {fs : List WireFrame} {w : WireFrame} {rest : Bytes}
    (hb : b = WireFrame.stream (fs ++ [w]) ++ rest) (hu : Undecodable env w) :
    fs.length < k.handler.framesRead := by
  by_contra hlt
  cases h with
  | reading fs₀ hp _ _ =>
    rw [hc] at hp
    simp at hp
  | ended fs₀ g tail he hp hb₀ hn =>
    -- the end of the handover would come before it
    obtain ⟨more, hfs, -⟩ := WireFrame.stream_append (hb₀.symm.trans hb) (by simp; omega)
    apply (ha fs w rest hb hu).2.2 g _ he
    have hpre : fs₀ ++ [g] <+: fs := by
      apply List.prefix_of_prefix_length_le ⟨more, hfs.symm⟩ (List.prefix_append fs [w])
      rw [List.length_append, List.length_singleton]
      omega
    exact hpre.subset (List.mem_append_right _ (List.mem_singleton_self g))
  | hungUp fs₀ hp hk hb₀ hn hi =>
    obtain ⟨w', rest', ht, -⟩ := next_frame (hb₀.symm.trans hb) (by omega)
    rw [ht, w'.read_bytes] at hi
    split at hi
    · cases hi
    · cases hi
  | invalid fs₀ tail e hp hb₀ hs he hn =>
    obtain ⟨w', rest', ht, -⟩ := next_frame (hb₀.symm.trans hb) (by omega)
    rw [ht, WireFrame.take_bytes, unpackFrameHeader_bytes w'.inRange w'.limit] at he
    cases he

/-- The peer is none of the senders of the model. -/
def Foreign (k : P2PConn) : Prop := k.client = .foreign ∨ k.client = .hungUp

/-- The peer writes on, and the handler does nothing. -/
theorem Account.write (h : Account env b k) (hk : k.client = .foreign) (bytes : Bytes) :
    Account env (b ++ bytes) { k with toServer := k.toServer ++ bytes } := by
  cases h with
  | reading fs hp hb hn =>
    refine .reading fs hp ?_ hn
    rw [hb, List.append_assoc]
  | ended fs g tail he hp hb hn =>
    refine .ended fs g (tail ++ bytes) he hp ?_ hn
    rw [hb, List.append_assoc]
  | hungUp fs hp hk' hb hn hi =>
    rw [hk] at hk'
    cases hk'
  | invalid fs tail e hp hb hs he hn =>
    refine .invalid fs (tail ++ bytes) e hp ?_ ?_ ?_ hn
    · rw [hb, List.append_assoc]
    · rw [List.length_append]
      omega
    · rwa [List.take_append_of_le_length hs]

theorem Account.hangUp (h : Account env b k) (hk : k.client = .foreign) :
    Account env b { k with client := .hungUp } := by
  cases h with
  | reading fs hp hb hn => exact .reading fs hp hb hn
  | ended fs g tail he hp hb hn => exact .ended fs g tail he hp hb hn
  | hungUp fs hp hk' hb hn hi =>
    rw [hk] at hk'
    cases hk'
  | invalid fs tail e hp hb hs he hn => exact .invalid fs tail e hp hb hs he hn

theorem Account.of_reading (h : Account env b k) (hp : k.handler.point = .absent ∨
    k.handler.point = .reading ∨ k.handler.point = .replied) :
    ∃ fs, b = WireFrame.stream fs ++ k.toServer ∧ k.handler.framesRead = fs.length := by
  cases h with
  | reading fs _ hb hn => exact ⟨fs, hb, hn⟩
  | ended fs g tail he hp' hb hn => rcases hp with hp | hp | hp <;> rw [hp] at hp' <;> simp at hp'
  | hungUp fs hp' => rcases hp with hp | hp | hp <;> rw [hp] at hp' <;> cases hp'
  | invalid fs tail e hp' => rcases hp with hp | hp | hp <;> rw [hp] at hp' <;> cases hp'

/-- The handler is past the end of the handover, and stays there. -/
theorem Account.leave (h : Account env b k)
    (hp : k.handler.point = .gathering ∨ k.handler.point = .acked) {k' : P2PConn}
    (hp' : k'.handler.point = .gathering ∨ k'.handler.point = .acked ∨ k'.handler.point = .closed)
    (hn' : k'.handler.framesRead = k.handler.framesRead) : Account env b k' := by
  cases h with
  | reading fs hp₀ hb hn => rcases hp with hp | hp <;> rw [hp] at hp₀ <;> simp at hp₀
  | ended fs g tail he _ hb hn => exact .ended fs g tail he hp' hb (hn'.trans hn)
  | hungUp fs hp₀ => rcases hp with hp | hp <;> rw [hp] at hp₀ <;> cases hp₀
  | invalid fs tail e hp₀ => rcases hp with hp | hp <;> rw [hp] at hp₀ <;> cases hp₀

/-- The handler reads on, or ends. -/
theorem account_serve (hz : ∀ b msg, env.zlib.decompress b ≠ .error (.crc32VerificationError msg))
    (hsame : p.server.SameAs srv) (hrun : p.server.running = true) (hk : Foreign (p.conns c))
    (hp : (p.conns c).handler.point = .reading) {fs : List WireFrame}
    (hb : b = WireFrame.stream fs ++ (p.conns c).toServer)
    (hn : (p.conns c).handler.framesRead = fs.length) (ha : Answerable env srv c b)
    (hs : p.serve env c = some q) : Foreign (q.conns c) ∧ Account env b (q.conns c) := by
  rcases WireFrame.read_cases env.zlib (p.conns c).toServer with ⟨w, rest, ht⟩ | hi | ⟨hlen, msg, he, hi⟩
  · obtain ⟨q', hq', hclient, hframes, hres⟩ := P2P.serve_wireFrame hz hsame hrun hp ht hn
    have hstep : p.step env (.serve c) = some q := by
      simp only [P2P.step, hp, hs]
    obtain rfl := Option.some.inj (hstep.symm.trans hq')
    have hbw : b = WireFrame.stream (fs ++ [w]) ++ rest := by
      rw [hb, ht, WireFrame.stream_concat, List.append_assoc]
    have hlen : (q.conns c).handler.framesRead = (fs ++ [w]).length := by
      rw [hframes, List.length_append, List.length_singleton]
    unfold Foreign
    rw [hclient]
    refine ⟨hk, ?_⟩
    cases hres with
    | nacked _ _ _ hp' ht' _ =>
      refine .reading (fs ++ [w]) (Or.inr (Or.inr hp')) ?_ hlen
      rw [ht', hbw]
    | dropped hu hnot _ _ =>
      obtain ⟨hm, hf, -⟩ := ha fs w rest hbw hu
      exact absurd ⟨hm, hf⟩ hnot
    | passed _ _ hp' ht' =>
      refine .reading (fs ++ [w]) (Or.inr hp') ?_ hlen
      rw [ht', hbw]
    | ended _ he hp' => exact .ended fs w rest he hp' hbw hframes
  · unfold P2P.serve at hs
    simp only [hi] at hs
    split_ifs at hs with hend
    obtain rfl := Option.some.inj hs
    rw [P2P.put_self]
    have hhung : (p.conns c).client = .hungUp := by
      rcases hk with hk | hk
      · rw [hk] at hend
        cases hend
      · exact hk
    exact ⟨hk, .hungUp fs rfl hhung hb hn hi⟩
  · unfold P2P.serve at hs
    simp only [hi] at hs
    obtain rfl := Option.some.inj hs
    rw [P2P.put_self]
    refine ⟨hk, .invalid fs _ _ rfl hb hlen he ?_⟩
    show (p.conns c).handler.framesRead + 1 = _
    rw [hn]

theorem account_step (hz : ∀ b msg, env.zlib.decompress b ≠ .error (.crc32VerificationError msg))
    (hsame : p.server.SameAs srv) (hrun : p.server.running = true) (hk : Foreign (p.conns c))
    (h : Account env b (p.conns c)) (hl : l.Clean c) (ha : Answerable env srv c (b ++ l.written c))
    (hs : P2P.step env p l = some q) :
    Foreign (q.conns c) ∧ Account env (b ++ l.written c) (q.conns c) := by
  have hloop : p.server.loop = .reading := if_pos hrun
  by_cases hc : l.conn = some c
  swap
  · have hnone : l.written c = [] := by
      unfold P2PLabel.written
      split
      · rename_i c' bytes
        rw [if_neg fun he => hc (by rw [← he]; rfl)]
      · rfl
    rw [P2P.step_other hc hs, hnone, List.append_nil]
    exact ⟨hk, h⟩
  have hconnecting : (p.conns c).client ≠ .connecting := by
    rcases hk with hk | hk
    · rw [hk]
      decide
    · rw [hk]
      decide
  cases P2P.stepped hc hs with
  | connected hk' => exact absurd hk' hconnecting
  | unreachable hk' => exact absurd hk' hconnecting
  | sender hs' =>
    unfold P2PConn.clientStep at hs'
    rcases hk with hk | hk
    · rw [hk] at hs'
      cases hs'
    · rw [hk] at hs'
      cases hs'
  | senderFailed => exact absurd rfl hl
  | wrote hk' =>
    rw [P2P.put_self]
    simp only [P2PLabel.written, if_true]
    exact ⟨Or.inl hk', h.write hk' _⟩
  | hungUp hk' =>
    rw [P2P.put_self]
    simp only [P2PLabel.written, List.append_nil]
    exact ⟨Or.inr rfl, h.hangUp hk'⟩
  | accepted hp _ =>
    rw [P2P.put_self]
    simp only [P2PLabel.written, List.append_nil]
    obtain ⟨fs, hb, hn⟩ := h.of_reading (Or.inl hp)
    exact ⟨hk, .reading fs (Or.inr (Or.inl hloop)) hb hn⟩
  | served hp hs' =>
    simp only [P2PLabel.written, List.append_nil] at ha ⊢
    obtain ⟨fs, hb, hn⟩ := h.of_reading (Or.inr (Or.inl hp))
    exact account_serve hz hsame hrun hk hp hb hn ha hs'
  | looped hp =>
    rw [P2P.put_self]
    simp only [P2PLabel.written, List.append_nil]
    obtain ⟨fs, hb, hn⟩ := h.of_reading (Or.inr (Or.inr hp))
    exact ⟨hk, .reading fs (Or.inr (Or.inl hloop)) hb hn⟩
  | left hp =>
    rw [P2P.put_self]
    simp only [P2PLabel.written, List.append_nil]
    exact ⟨hk, h.leave (Or.inr hp) (Or.inr (Or.inr rfl)) rfl⟩
  | gathered hp =>
    rw [P2P.put_self]
    simp only [P2PLabel.written, List.append_nil]
    unfold P2PConn.acknowledge P2PConn.reply
    split
    · exact ⟨hk, h.leave (Or.inl hp) (Or.inr (Or.inl rfl)) rfl⟩
    · exact ⟨hk, h.leave (Or.inl hp) (Or.inr (Or.inr rfl)) rfl⟩
  | handlerFailed => exact absurd rfl hl

/-- Where a handler that nothing hinders is in a stream whose undecodable
frames can all be answered. -/
theorem account_run {peers : ℕ → Option SendSessions}
    (hz : ∀ b msg, env.zlib.decompress b ≠ .error (.crc32VerificationError msg))
    (hrun : srv.running = true) (hc : peers c = none) {ls : List P2PLabel} :
    ∀ {q : P2P}, Machine.run (P2P.step env) (P2P.new srv peers) ls = some q →
      (∀ l ∈ ls, l.Clean c) → Answerable env srv c (writtenOn c ls) →
      (q.server.SameAs srv ∧ q.server.running = true) ∧ Foreign (q.conns c) ∧
        Account env (writtenOn c ls) (q.conns c) := by
  induction ls using List.reverseRecOn with
  | nil =>
    intro q hr _ _
    obtain rfl := Option.some.inj hr
    have hconn : (P2P.new srv peers).conns c = { call := { sessions := [] }, client := .foreign } := by
      simp only [P2P.new, hc]
    rw [hconn]
    exact ⟨⟨⟨rfl, rfl, rfl⟩, hrun⟩, Or.inl rfl, .reading [] (Or.inl rfl) rfl rfl⟩
  | append_singleton pre l ih =>
    intro q hr hclean ha
    obtain ⟨p, hp, hl⟩ := Machine.run_append_eq_some.mp hr
    obtain ⟨q', hs, hq'⟩ := Machine.run_cons_eq_some.mp hl
    obtain rfl := Option.some.inj hq'
    have hw : writtenOn c (pre ++ [l]) = writtenOn c pre ++ l.written c := by
      rw [writtenOn_append]
      exact congrArg _ (List.flatMap_singleton _ l)
    rw [hw] at ha ⊢
    have hlc := hclean l (List.mem_append_right _ (List.mem_singleton_self l))
    obtain ⟨⟨hsame, hrunning⟩, hk, hacc⟩ := ih hp
      (fun x hx => hclean x (List.mem_append_left _ hx)) ha.left
    exact ⟨⟨(P2P.step_sameAs hs).trans hsame, P2P.step_running hlc hs hrunning⟩,
      account_step hz hsame hrunning hk hacc hlc ha hs⟩

/-- The step that reads an undecodable frame answers it. -/
theorem answered_of_read (hz : ∀ b msg, env.zlib.decompress b ≠ .error (.crc32VerificationError msg))
    (hsame : p.server.SameAs srv) (hrun : p.server.running = true) (h : Account env b (p.conns c))
    (ha : Answerable env srv c (b ++ more)) {fs : List WireFrame} {w : WireFrame} {rest : Bytes}
    (hb : b ++ more = WireFrame.stream (fs ++ [w]) ++ rest) (hu : Undecodable env w)
    (hs : P2P.step env p (.serve c) = some q) (hn : (p.conns c).handler.framesRead = fs.length)
    (hn' : (q.conns c).handler.framesRead = fs.length + 1) :
    (q.conns c).toClient = (p.conns c).toClient ++ nackToBytes env srv c fs.length w := by
  have hsame' : (q.conns c).handler.framesRead = (p.conns c).handler.framesRead → False := by
    intro he
    omega
  cases P2P.stepped (c := c) rfl hs with
  | looped hp =>
    rw [P2P.put_self] at hsame'
    exact (hsame' rfl).elim
  | left hp =>
    rw [P2P.put_self] at hsame'
    exact (hsame' rfl).elim
  | served hp hserve =>
    obtain ⟨fs₀, hb₀, hn₀⟩ := h.of_reading (Or.inr (Or.inl hp))
    have hall : WireFrame.stream fs₀ ++ ((p.conns c).toServer ++ more) =
        WireFrame.stream (fs ++ [w]) ++ rest := by
      rw [← hb, hb₀, List.append_assoc]
    have hlen : fs₀.length = fs.length := by rw [← hn₀, hn]
    obtain ⟨w', rest', ht, hnext⟩ := next_frame hall hlen.le
    obtain ⟨-, rfl, rfl⟩ := hnext hlen
    rcases WireFrame.read_cases env.zlib (p.conns c).toServer with
      ⟨w₁, rest₁, ht₁⟩ | hi | ⟨hle, msg, he, -⟩
    · rw [ht₁, List.append_assoc] at ht
      obtain ⟨rfl, -⟩ := WireFrame.bytes_append_inj ht
      obtain ⟨q', hq', -, -, hres⟩ := P2P.serve_wireFrame hz hsame hrun hp ht₁ hn
      obtain rfl := Option.some.inj (hs.symm.trans hq')
      cases hres with
      | nacked _ _ _ _ _ hr => exact hr
      | dropped _ hnot _ _ =>
        obtain ⟨hm, hf, -⟩ := ha fs w₁ _ hb hu
        exact absurd ⟨hm, hf⟩ hnot
      | passed hnot => exact absurd hu hnot
      | ended hnot => exact absurd hu hnot
    · -- nothing is read of less than a frame
      unfold P2P.serve at hserve
      simp only [hi] at hserve
      split_ifs at hserve
      obtain rfl := Option.some.inj hserve
      rw [P2P.put_self] at hsame'
      exact (hsame' rfl).elim
    · have hhead := congrArg (List.take headerSize) ht
      rw [List.take_append_of_le_length hle, w'.take_bytes] at hhead
      rw [hhead, unpackFrameHeader_bytes w'.inRange w'.limit] at he
      cases he

end

/-! ### What keeps frames from being answered -/

section
variable {env : P2PEnv} {srv : P2PServer} {peers : ℕ → Option SendSessions} {c : ℕ} {p q : P2P}

/-- The handler waits for frame `i`, with the bytes `b` there. -/
structure Awaits (srv : P2PServer) (c i : ℕ) (b : Bytes) (p : P2P) : Prop where
  same : p.server.SameAs srv
  running : p.server.running = true
  point : (p.conns c).handler.point = .reading
  toServer : (p.conns c).toServer = b
  framesRead : (p.conns c).handler.framesRead = i

/-- The labels are steps of the handler. -/
def Served (c : ℕ) (ls : List P2PLabel) : Prop := ∀ l ∈ ls, l = .serve c ∨ l = .gathered c

theorem Served.clean {ls : List P2PLabel} (h : Served c ls) : ∀ l ∈ ls, l.Clean c := by
  intro l hl
  rcases h l hl with rfl | rfl
  · trivial
  · trivial

theorem Served.written {ls : List P2PLabel} (h : Served c ls) : writtenOn c ls = [] := by
  unfold writtenOn
  rw [List.flatMap_eq_nil_iff]
  intro l hl
  rcases h l hl with rfl | rfl
  · rfl
  · rfl

theorem Served.append {ls ls' : List P2PLabel} (h : Served c ls) (h' : Served c ls') :
    Served c (ls ++ ls') := by
  intro l hl
  rcases List.mem_append.mp hl with hl | hl
  · exact h l hl
  · exact h' l hl

theorem served_serve : Served c [.serve c] := by
  intro l hl
  exact Or.inl (List.mem_singleton.mp hl)

theorem not_ends_of_undecodable {w : WireFrame} (h : Undecodable env w) : ¬ EndsHandover env w := by
  rintro ⟨⟨payload, ho⟩, hfin⟩
  rcases (undecodable_of_ok ho).mp h with ⟨hi, -⟩ | ⟨hr, -⟩
  · rw [hfin] at hi
    cases hi
  · rw [hfin] at hr
    cases hr

/-- After a reply the handler goes back to reading. -/
theorem awaits_of_replied (env : P2PEnv) {i : ℕ} {b : Bytes} (hsame : p.server.SameAs srv)
    (hrun : p.server.running = true)
    (hp : (p.conns c).handler.point = .reading ∨ (p.conns c).handler.point = .replied)
    (ht : (p.conns c).toServer = b) (hn : (p.conns c).handler.framesRead = i) :
    ∃ ls q, Machine.run (P2P.step env) p ls = some q ∧ Served c ls ∧ Awaits srv c i b q := by
  rcases hp with hp | hp
  · refine ⟨[], p, rfl, ?_, hsame, hrun, hp, ht, hn⟩
    intro l hl
    cases hl
  · refine ⟨[.serve c], p.put c ((p.conns c).serveAt p.server.loop), ?_, served_serve, ?_⟩
    · simp only [Machine.run_cons, Machine.run_nil, P2P.step, hp, Option.bind_some]
    · have hloop : p.server.loop = .reading := if_pos hrun
      refine ⟨hsame, hrun, ?_, ?_, ?_⟩
      · rw [P2P.put_self, hloop]
        rfl
      · rw [P2P.put_self]
        exact ht
      · rw [P2P.put_self]
        exact hn

/-- Past the end of the handover the handler only has to leave. -/
theorem leaves_of_ended (env : P2PEnv) (hp : (p.conns c).handler.point = .gathering ∨
      (p.conns c).handler.point = .acked ∨ (p.conns c).handler.point = .closed) :
    ∃ ls q, Machine.run (P2P.step env) p ls = some q ∧ Served c ls ∧
      (q.conns c).handler.point = .closed ∧
      (q.conns c).handler.framesRead = (p.conns c).handler.framesRead := by
  have hacked : ∀ p : P2P, (p.conns c).handler.point = .acked ∨ (p.conns c).handler.point = .closed →
      ∃ ls q, Machine.run (P2P.step env) p ls = some q ∧ Served c ls ∧
        (q.conns c).handler.point = .closed ∧
        (q.conns c).handler.framesRead = (p.conns c).handler.framesRead := by
    rintro p (hp | hp)
    · refine ⟨[.serve c], p.put c ((p.conns c).serveAt .closed), ?_, served_serve, ?_, ?_⟩
      · simp only [Machine.run_cons, Machine.run_nil, P2P.step, hp, Option.bind_some]
      · rw [P2P.put_self]
        rfl
      · rw [P2P.put_self]
        rfl
    · refine ⟨[], p, rfl, ?_, hp, rfl⟩
      intro l hl
      cases hl
  rcases hp with hp | hp
  swap
  · exact hacked p hp
  let p' := p.put c ((p.conns c).acknowledge env c p.server)
  have hstep : p.step env (.gathered c) = some p' := by simp only [P2P.step, hp, if_true, p']
  have hp' : ((p'.conns c).handler.point = .acked ∨ (p'.conns c).handler.point = .closed) ∧
      (p'.conns c).handler.framesRead = (p.conns c).handler.framesRead := by
    show ((((p.put c _).conns c).handler.point = _ ∨ ((p.put c _).conns c).handler.point = _)) ∧
      ((p.put c _).conns c).handler.framesRead = _
    rw [P2P.put_self]
    unfold P2PConn.acknowledge P2PConn.reply
    split
    · exact ⟨Or.inl rfl, rfl⟩
    · exact ⟨Or.inr rfl, rfl⟩
  obtain ⟨ls, q, hr, hls, hq, hn⟩ := hacked p' hp'.1
  refine ⟨.gathered c :: ls, q, Machine.run_cons_eq_some.mpr ⟨p', hstep, hr⟩, ?_, hq, hn.trans hp'.2⟩
  intro l hl
  rcases List.mem_cons.mp hl with rfl | hl
  · exact Or.inr rfl
  · exact hls l hl

/-- The next frame is read, and the handler reads on or ends. -/
theorem read_frame (hz : ∀ b msg, env.zlib.decompress b ≠ .error (.crc32VerificationError msg))
    {i : ℕ} {w : WireFrame} {tail : Bytes} (hp : Awaits srv c i (w.bytes ++ tail) p) :
    (¬ EndsHandover env w ∧ ∃ ls q, Machine.run (P2P.step env) p ls = some q ∧ Served c ls ∧
      Awaits srv c (i + 1) tail q) ∨
    ∃ ls q, Machine.run (P2P.step env) p ls = some q ∧ Served c ls ∧
      (q.conns c).handler.point = .closed ∧ (q.conns c).handler.framesRead = i + 1 := by
  obtain ⟨q, hq, -, hn, hres⟩ :=
    P2P.serve_wireFrame hz hp.same hp.running hp.point hp.toServer hp.framesRead
  have hsame := (P2P.step_sameAs hq).trans hp.same
  have hrun := P2P.step_running (c := c) (l := .serve c) trivial hq hp.running
  have hfirst : ∀ {ls : List P2PLabel} {q' : P2P}, Machine.run (P2P.step env) q ls = some q' →
      Machine.run (P2P.step env) p (.serve c :: ls) = some q' := fun hr =>
    Machine.run_cons_eq_some.mpr ⟨q, hq, hr⟩
  cases hres with
  | nacked hu _ _ hpt ht _ =>
    obtain ⟨ls, q', hr, hls, hq'⟩ := awaits_of_replied env hsame hrun (Or.inr hpt) ht hn
    exact Or.inl ⟨not_ends_of_undecodable hu, .serve c :: ls, q', hfirst hr, served_serve.append hls, hq'⟩
  | dropped _ _ hpt _ => exact Or.inr ⟨[.serve c], q, hfirst rfl, served_serve, hpt, hn⟩
  | passed _ he hpt ht =>
    obtain ⟨ls, q', hr, hls, hq'⟩ := awaits_of_replied env hsame hrun hpt ht hn
    exact Or.inl ⟨he, .serve c :: ls, q', hfirst hr, served_serve.append hls, hq'⟩
  | ended _ _ hpt =>
    obtain ⟨ls, q', hr, hls, hq', hn'⟩ := leaves_of_ended env hpt
    exact Or.inr ⟨.serve c :: ls, q', hfirst hr, served_serve.append hls, hq', hn'.trans hn⟩

/-- With the bytes of a stream there, its frames are read one after the other,
until one of them ends the handler. -/
theorem read_frames (hz : ∀ b msg, env.zlib.decompress b ≠ .error (.crc32VerificationError msg)) :
    ∀ (fs : List WireFrame) {i : ℕ} {tail : Bytes} {p : P2P},
    Awaits srv c i (WireFrame.stream fs ++ tail) p →
    (∃ ls q, Machine.run (P2P.step env) p ls = some q ∧ Served c ls ∧
      Awaits srv c (i + fs.length) tail q ∧ ∀ g ∈ fs, ¬ EndsHandover env g) ∨
    ∃ ls q, Machine.run (P2P.step env) p ls = some q ∧ Served c ls ∧
      (q.conns c).handler.point = .closed ∧ (q.conns c).handler.framesRead ≤ i + fs.length
  | [], i, tail, p, hp => by
    refine Or.inl ⟨[], p, rfl, ?_, hp, ?_⟩
    · intro l hl
      cases hl
    · intro g hg
      cases hg
  | w :: fs, i, tail, p, hp => by
    rw [WireFrame.stream_cons, List.append_assoc] at hp
    rcases read_frame hz hp with ⟨he, ls, q, hr, hls, hq⟩ | ⟨ls, q, hr, hls, hq, hn⟩
    · have hlen : i + 1 + fs.length = i + (w :: fs).length := by
        rw [List.length_cons]
        omega
      rcases read_frames hz fs hq with ⟨ls', q', hr', hls', hq', hends⟩ | ⟨ls', q', hr', hls', hq', hn'⟩
      · refine Or.inl ⟨ls ++ ls', q', Machine.run_append_eq_some.mpr ⟨q, hr, hr'⟩, hls.append hls', ?_, ?_⟩
        · rwa [← hlen]
        · intro g hg
          rcases List.mem_cons.mp hg with rfl | hg
          · exact he
          · exact hends g hg
      · refine Or.inr ⟨ls ++ ls', q', Machine.run_append_eq_some.mpr ⟨q, hr, hr'⟩, hls.append hls', hq', ?_⟩
        rwa [← hlen]
    · refine Or.inr ⟨ls, q, hr, hls, hq, ?_⟩
      rw [hn, List.length_cons]
      omega

/-- The peer writes the whole stream, and the handler starts. -/
def startWith (c : ℕ) (b : Bytes) : List P2PLabel := [.foreign c b, .accept c]

theorem startWith_clean (b : Bytes) {ls : List P2PLabel} (h : Served c ls) :
    ∀ l ∈ startWith c b ++ ls, l.Clean c := by
  intro l hl
  rcases List.mem_append.mp hl with hl | hl
  · simp only [startWith, List.mem_cons, List.not_mem_nil, or_false] at hl
    rcases hl with rfl | rfl
    · trivial
    · trivial
  · exact h.clean l hl

theorem startWith_written (b : Bytes) {ls : List P2PLabel} (h : Served c ls) :
    writtenOn c (startWith c b ++ ls) = b :=
  calc writtenOn c (startWith c b ++ ls)
      = writtenOn c (startWith c b) ++ writtenOn c ls := writtenOn_append c _ ls
    _ = writtenOn c (startWith c b) := by rw [h.written, List.append_nil]
    _ = b := by simp [startWith, writtenOn, P2PLabel.written]

theorem starts_with (env : P2PEnv) (hrun : srv.running = true) (hc : peers c = none) (b : Bytes) :
    ∃ q, Machine.run (P2P.step env) (P2P.new srv peers) (startWith c b) = some q ∧
      Awaits srv c 0 b q := by
  let p := P2P.new srv peers
  have hconn : p.conns c = { call := { sessions := [] }, client := .foreign } := by
    simp only [p, P2P.new, hc]
  let p₁ := p.put c { p.conns c with toServer := (p.conns c).toServer ++ b }
  have hself : p₁.conns c = { call := { sessions := [] }, client := .foreign, toServer := b } := by
    rw [P2P.put_self, hconn]
    rfl
  have hloop : p₁.server.loop = .reading := if_pos hrun
  have hwrite : p.step env (.foreign c b) = some p₁ := by
    simp only [P2P.step, hconn, if_true, p₁]
  have haccept : p₁.step env (.accept c) = some (p₁.put c ((p₁.conns c).serveAt p₁.server.loop)) := by
    have hne : ClientPoint.foreign ≠ .connecting := by decide
    unfold P2P.step
    simp only [hself]
    exact if_pos ⟨trivial, hne⟩
  refine ⟨_, Machine.run_cons_eq_some.mpr ⟨p₁, hwrite, Machine.run_cons_eq_some.mpr
    ⟨_, haccept, rfl⟩⟩, ⟨rfl, rfl, rfl⟩, hrun, ?_, ?_, ?_⟩
  · rw [P2P.put_self, hloop]
    rfl
  · rw [P2P.put_self, hself]
    rfl
  · rw [P2P.put_self, hself]
    rfl

theorem length_replyBytes_pos (env : P2PEnv) (msgType : ℕ) (payload : Bytes) :
    0 < (replyBytes env msgType payload).length := by
  have hsize : 0 < headerSize := by decide
  unfold replyBytes
  rw [List.length_append, Header.length_bytes]
  omega

/-- What the handler waits for, and answers, is a frame that can be answered. -/
theorem Answers.nacked (hz : ∀ b msg, env.zlib.decompress b ≠ .error (.crc32VerificationError msg))
    {b rest : Bytes} {fs : List WireFrame} {w : WireFrame} {ls : List P2PLabel}
    (h : Answers env srv peers c b) (hb : b = WireFrame.stream (fs ++ [w]) ++ rest)
    (hu : Undecodable env w)
    (hr : Machine.run (P2P.step env) (P2P.new srv peers) (startWith c b ++ ls) = some q)
    (hls : Served c ls) (hq : Awaits srv c fs.length (w.bytes ++ rest) q) :
    Mismatched w ∧ NackToFits env srv c fs.length w := by
  obtain ⟨q', hs, -, hn, hres⟩ :=
    P2P.serve_wireFrame hz hq.same hq.running hq.point hq.toServer hq.framesRead
  cases hres with
  | nacked _ hm hf => exact ⟨hm, hf⟩
  | dropped _ _ _ hout =>
    -- the step that read it has written nothing
    have hr' : Machine.run (P2P.step env) (P2P.new srv peers)
        (startWith c b ++ (ls ++ [.serve c])) = some q' := by
      rw [← List.append_assoc]
      exact Machine.run_append_eq_some.mpr ⟨q, hr, Machine.run_cons_eq_some.mpr ⟨q', hs, rfl⟩⟩
    have hls' := hls.append (served_serve (c := c))
    obtain ⟨-, hanswer⟩ :=
      h _ q' hr' (startWith_clean b hls') (startWith_written b hls') fs w rest hb hu
    obtain ⟨nack, hnack⟩ := hanswer (startWith c b ++ ls) [] q q' (List.append_assoc _ _ _).symm
      hr hs hq.framesRead hn
    rw [hout] at hnack
    have hlen := congrArg List.length hnack
    have hpos := length_replyBytes_pos env MessageType.handoverNack (env.handoverNack.dump nack)
    rw [List.length_append] at hlen
    omega
  | passed hnot => exact absurd hu hnot
  | ended hnot => exact absurd hu hnot

/-- Every undecodable frame of a stream is answered exactly when all of them can
be: each has a checksum that does not match, and none comes after the end of
the handover. -/
theorem P2P.answers_iff (hz : ∀ b msg, env.zlib.decompress b ≠ .error (.crc32VerificationError msg))
    (hrun : srv.running = true) (hc : peers c = none) (b : Bytes) :
    Answers env srv peers c b ↔ Answerable env srv c b := by
  constructor
  · intro h fs w rest hb hu
    obtain ⟨q₀, hr₀, hq₀⟩ := starts_with env hrun hc b
    rw [hb, WireFrame.stream_concat, List.append_assoc] at hq₀
    have hstart : ∀ {ls : List P2PLabel} {q : P2P}, Machine.run (P2P.step env) q₀ ls = some q →
        Machine.run (P2P.step env) (P2P.new srv peers) (startWith c b ++ ls) = some q :=
      fun hr => Machine.run_append_eq_some.mpr ⟨q₀, hr₀, hr⟩
    rcases read_frames hz fs hq₀ with ⟨ls, q, hr, hls, hq, hends⟩ | ⟨ls, q, hr, hls, hp, hn⟩
    · rw [Nat.zero_add] at hq
      obtain ⟨hm, hf⟩ := h.nacked hz hb hu (hstart hr) hls hq
      exact ⟨hm, hf, hends⟩
    · -- the handler has ended before it
      obtain ⟨hread | hopen, -⟩ :=
        h _ q (hstart hr) (startWith_clean b hls) (startWith_written b hls) fs w rest hb hu
      · omega
      · exact absurd hp hopen
  · intro ha ls q hr hclean hw fs w rest hb hu
    subst hw
    obtain ⟨-, -, hacc⟩ := account_run hz hrun hc hr hclean ha
    constructor
    · by_cases hp : (q.conns c).handler.point = .closed
      · exact Or.inl (hacc.all_read hp ha hb hu)
      · exact Or.inr hp
    · rintro pre post p p' rfl hpre hstep hn hn'
      have hsplit : writtenOn c (pre ++ .serve c :: post) = writtenOn c pre ++ writtenOn c post :=
        writtenOn_append c pre (.serve c :: post)
      rw [hsplit] at ha hb
      obtain ⟨⟨hsame, hrunning⟩, -, hacc'⟩ := account_run hz hrun hc hpre
        (fun l hl => hclean l (List.mem_append_left _ hl)) ha.left
      exact ⟨_, answered_of_read hz hsame hrunning hacc' ha hb hu hstep hn hn'⟩

end

/-! ### A frame that is answered, and one that is not -/

/-- A frame whose checksum does not match. -/
def mismatchedFrame : WireFrame where
  header := ⟨protocolVersion, MessageType.requestState, FrameFlags.none, 1, 0⟩
  payload := [255]
  inRange := by decide
  limit := by decide
  length_payload := rfl

/-- Nothing but frame `w` is in its bytes. -/
theorem WireFrame.bytes_eq_stream {w w' : WireFrame} {fs : List WireFrame} {rest : Bytes}
    (h : w.bytes = stream (fs ++ [w']) ++ rest) : fs = [] ∧ w' = w := by
  have hw : stream [w] ++ [] = stream (fs ++ [w']) ++ rest := by
    rw [stream_cons, stream_nil, List.append_nil, List.append_nil]
    exact h
  obtain ⟨more, hfs, hmore⟩ := stream_append hw (by simp)
  rcases more with _ | ⟨w₁, more⟩
  · have hnil : fs = [] := by simpa using congrArg List.length hfs
    subst hnil
    exact ⟨rfl, List.singleton_inj.mp hfs⟩
  · have hlen := congrArg List.length hmore
    have hsize : 0 < headerSize := by decide
    rw [stream_cons, bytes] at hlen
    simp only [List.length_append, Header.length_bytes, List.length_nil] at hlen
    omega

theorem P2P.answers_mismatched :
    Answers (sampleEnv (.flip fun _ => false)) sampleServer (fun _ => none) 0
      mismatchedFrame.bytes := by
  refine (P2P.answers_iff (fun b msg h => by cases h) rfl rfl _).mpr ?_
  intro fs w rest hb hu
  obtain ⟨rfl, rfl⟩ := WireFrame.bytes_eq_stream hb
  refine ⟨by decide, sample_nack_le (by decide) (by decide) (crc32_lt _), ?_⟩
  intro g hg
  cases hg

/-- A frame that arrives intact, and is no JSON. -/
def refusedFrame : WireFrame where
  header := ⟨protocolVersion, MessageType.requestState, FrameFlags.none, 1, 4278190080⟩
  payload := [255]
  inRange := by decide
  limit := by decide
  length_payload := rfl

theorem P2P.not_answers_refused :
    ¬ Answers (sampleEnv (.flip fun _ => false)) sampleServer (fun _ => none) 0
      refusedFrame.bytes := by
  intro h
  have hb : refusedFrame.bytes = WireFrame.stream ([] ++ [refusedFrame]) ++ [] := by
    simp only [List.nil_append, WireFrame.stream_cons, WireFrame.stream_nil, List.append_nil]
  have hcrc : ¬ Mismatched refusedFrame := by decide
  have hu : Undecodable (sampleEnv (.flip fun _ => false)) refusedFrame :=
    Or.inr ⟨rfl, .valueError "Invalid JSON", by decide⟩
  obtain ⟨q, hr, hq⟩ : ∃ q, Machine.run (P2P.step (sampleEnv (.flip fun _ => false)))
      (P2P.new sampleServer fun _ => none) (startWith 0 refusedFrame.bytes) = some q ∧
        Awaits sampleServer 0 0 refusedFrame.bytes q := starts_with _ rfl rfl refusedFrame.bytes
  have hserved : Served 0 [] := fun l hl => nomatch hl
  exact hcrc (h.nacked (fun b msg h => by cases h) hb hu hr hserved hq).1

end Sgm
