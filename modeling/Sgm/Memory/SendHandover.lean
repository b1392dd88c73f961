/-
# The one-shot handover from both ends

`StateSerializer.send_handover` against `receive_handover`: any number of
senders, and of peers that write what they like, at one listener. A sender writes
the frames of `send_sessions`, without compression, and reads one reply, whatever
it is. The listener refuses an altered frame and reads on, so it may return less
than was sent to it; but a sender that is acknowledged has been heard to the last
session, and the call of the listener, if it returns, returns these too.

Key definitions: `SendHandover`, `OneShot.step`, `Attends`, `OneShot.Inv`.
Key theorems: `Attends.handleClient`, `OneShot.inv_step`, `OneShot.sendHandover_acked`.
-/
import Sgm.Memory.Session

namespace Sgm

open Framing

/-! ### The sender -/

/-- A call of `send_handover`. The timeout is not in it: it may run out whenever
the sender waits. -/
structure SendHandover where
  nodeId : String := "node-active"
  targetHost : String := "127.0.0.1"
  targetPort : ℕ := 9002
  sessions : List InferenceSession

/-- What it writes is what `send_sessions` writes. -/
def SendHandover.frames (call : SendHandover) : SendSessions where
  client := { targetHost := call.targetHost, targetPort := call.targetPort, nodeId := call.nodeId }
  sessions := call.sessions

/-- Where a sender is suspended, or how it ended. -/
inductive SenderPoint
  | connecting
  /-- about to write frame `i` -/
  | writing (i : ℕ)
  | awaiting
  | returned (ack : HandoverAck)
  | raised (e : Exc)
  deriving DecidableEq

structure Sender where
  call : SendHandover
  point : SenderPoint := .connecting

/-- The bytes of a reply of the listener. -/
def HandoverReply.bytes (env : P2PEnv) : HandoverReply → Bytes
  | .nack x => replyBytes env MessageType.handoverNack (env.handoverNack.dump x)
  | .ack x => replyBytes env MessageType.handoverAck (env.handoverAck.dump x)

/-- The reply is within the limit of the protocol. -/
def HandoverReply.Fits (env : P2PEnv) : HandoverReply → Prop
  | .nack x => (env.handoverNack.dump x).length ≤ maxPayloadSize
  | .ack x => (env.handoverAck.dump x).length ≤ maxPayloadSize

namespace Sender

variable (env : P2PEnv) (c : ℕ) (x : Sender)

/-- What the sender makes of the frame it reads. -/
def outcome (msgType : ℕ) (payload : Bytes) : SenderPoint :=
  if msgType = MessageType.handoverAck then
    match env.handoverAck.load payload with
    | .ok ack => .returned ack
    | .error e => .raised e
  else if msgType = MessageType.handoverNack then
    match env.handoverNack.load payload with
    | .ok nack => .raised (.crc32VerificationError
        ("Standby rejected handover with NACK: " ++ nack.errorMessage))
    | .error e => .raised e
  else .raised (.valueError ("Unexpected response frame type from standby: 0x" ++ hex 2 msgType))

/-- One frame is read of the replies on the connection. -/
def readReply (k : Incoming) : Option SenderPoint :=
  match readFrameAsync env.zlib (k.replies.flatMap (HandoverReply.bytes env)) with
  | .incomplete => if k.point = .closed then some (.raised .incompleteReadError) else none
  | .raised e _ => some (.raised e)
  | .frame msgType _ payload _ => some (outcome env msgType payload)

/-- The point after frame `i`. -/
def nextPoint (i : ℕ) : SenderPoint :=
  if i + 1 < x.call.frames.total then .writing (i + 1) else .awaiting

end Sender

/-! ### The listener and its senders -/

structure OneShot where
  listener : ReceiveHandover
  senders : ℕ → Option Sender

inductive SenderLabel
  | connect
  | connectFails (text : String)
  | write
  | reply
  /-- a timeout, or the connection is lost -/
  | fails (e : Exc)
  /-- the writer of a sender that has ended is closed -/
  | close

inductive OneShotLabel
  /-- the listener, and the peers that are no senders -/
  | listener (l : ReceiveLabel)
  | sender (c : ℕ) (l : SenderLabel)

namespace OneShot

/-- A call of `receive_handover`, and those of `send_handover`. -/
def new (nodeId : String) (calls : ℕ → Option SendHandover) : OneShot where
  listener := { nodeId := nodeId }
  senders := fun c => (calls c).map fun call => { call := call }

variable (env : P2PEnv) (s : OneShot)

/-- What is written on the connection of a sender, the sender writes. -/
def admits : ReceiveLabel → Bool
  | .connect c | .write c _ | .hangUp c => (s.senders c).isNone
  | _ => true

def setPoint (c : ℕ) (x : Sender) (point : SenderPoint) : OneShot :=
  { s with senders := Function.update s.senders c (some { x with point := point }) }

/-- A step of the listener for sender `c`, which is then at `point`. -/
def served (l : ReceiveLabel) (c : ℕ) (x : Sender) (point : SenderPoint) : Option OneShot :=
  (s.listener.step env l).map fun k => { s with listener := k }.setPoint c x point

def stepSender (c : ℕ) (x : Sender) : SenderLabel → Option OneShot
  | .connect => if x.point = .connecting then s.served env (.connect c) c x (.writing 0) else none
  | .connectFails text =>
    if x.point = .connecting then
      some (s.setPoint c x (.raised (.p2pConnectionFailedError ("Could not connect to " ++
        x.call.targetHost ++ ":" ++ toString x.call.targetPort ++ ": " ++ text))))
    else none
  | .write =>
    match x.point with
    | .writing i =>
      let o := x.call.frames.frame env c i
      match packFrame env.zlib o.msgType o.payload o.flags protocolVersion o.compress with
      | .ok frame =>
        s.served env (.write c ((env.transit c).deliver o.key frame)) c x (x.nextPoint i)
      | .error e => some (s.setPoint c x (.raised e))
    | _ => none
  | .reply =>
    match x.point with
    | .awaiting => (Sender.readReply env (s.listener.conns c)).map (s.setPoint c x)
    | _ => none
  | .fails e =>
    match x.point with
    | .writing _ | .awaiting => some (s.setPoint c x (.raised e))
    | _ => none
  | .close =>
    match x.point with
    | .returned _ | .raised _ => s.served env (.hangUp c) c x x.point
    | _ => none

def step (s : OneShot) : OneShotLabel → Option OneShot
  | .listener l =>
    if s.admits l then (s.listener.step env l).map fun k => { s with listener := k } else none
  | .sender c l => (s.senders c).bind fun x => s.stepSender env c x l

end OneShot

/-! ### What a handler has made of the frames of a sender -/

/-- Frames `r` to `w` of a call, as they arrive. -/
def SendSessions.wires (env : P2PEnv) (c : ℕ) (call : SendSessions) (r w : ℕ) : Bytes :=
  (List.range' r (w - r)).flatMap fun i => (call.frame env c i).wire env c

section
variable {env : P2PEnv} {c : ℕ} {call : SendSessions} {w r : ℕ} {k : Incoming}

theorem SendSessions.wires_concat (h : r ≤ w) :
    call.wires env c r (w + 1) = call.wires env c r w ++ (call.frame env c w).wire env c := by
  have hrange : List.range' r (w + 1 - r) = List.range' r (w - r) ++ [w] := by
    rw [show w + 1 - r = (w - r) + 1 by omega, List.range'_concat]
    simp
    omega
  rw [wires, hrange, List.flatMap_append, List.flatMap_singleton]
  rfl

theorem SendSessions.wires_cons (h : r < w) :
    call.wires env c r w = (call.frame env c r).wire env c ++ call.wires env c (r + 1) w := by
  rw [wires, show w - r = (w - (r + 1)) + 1 by omega, List.range'_succ, List.flatMap_cons]
  rfl

theorem SendSessions.wires_self : call.wires env c w w = [] := by
  rw [wires, Nat.sub_self]
  rfl

/-- The acknowledgement was written after the last frame, and none was altered. -/
structure HeardOut (env : P2PEnv) (c : ℕ) (call : SendSessions) (k : Incoming) (ack : HandoverAck) :
    Prop where
  ended : k.point = .acking ∨ k.point = .closed
  intact : ∀ i < call.total, ¬ call.Altered env c i
  received : k.received = call.sessions
  first : k.replies.head? = some (.ack ack)
  listed : (call.sessions.map (·.requestId)).Sublist ack.acceptedRequestIds

/-- The handler of a sender that has written `w` frames. Before its first reply it has
taken all that it has read. -/
structure Attends (env : P2PEnv) (c : ℕ) (call : SendSessions) (w : ℕ) (k : Incoming) : Prop where
  le : w ≤ call.total
  fits : ∀ i < w, (call.frame env c i).Fits env
  fresh : k.replies = [] → k.point ≠ .closed → k.framesRead ≤ w ∧
    (k.point = .absent ∨ k.point = .reading) ∧ k.buffer = call.wires env c k.framesRead w ∧
    (∀ i < k.framesRead, ¬ call.Altered env c i) ∧ k.received = call.ingested env c k.framesRead
  heard : ∀ ack, k.replies.head? = some (.ack ack) → HeardOut env c call k ack
  replied : ∀ reply ∈ k.replies, reply.Fits env

theorem attends_new : Attends env c call 0 {} where
  le := Nat.zero_le _
  fits i hi := absurd hi (Nat.not_lt_zero i)
  fresh _ _ := by
    refine ⟨le_rfl, Or.inl rfl, SendSessions.wires_self.symm, fun i hi => ?_, rfl⟩
    exact absurd hi (Nat.not_lt_zero i)
  heard ack h := by cases h
  replied reply h := by cases h

/-- A handler that ends, or its peer, changes nothing of this. -/
theorem Attends.leave (h : Attends env c call w k) {k' : Incoming} (hr : k'.replies = k.replies)
    (hrec : k'.received = k.received) (hp : k'.point = .closed) : Attends env c call w k' where
  le := h.le
  fits := h.fits
  fresh _ hne := absurd hp hne
  heard ack ha := by
    have hheard := h.heard ack (hr ▸ ha)
    exact ⟨Or.inr hp, hheard.intact, hrec.trans hheard.received, ha, hheard.listed⟩
  replied := by
    rw [hr]
    exact h.replied

/-- What follows a refusal as the first reply is of no interest. -/
theorem Attends.refused (h : Attends env c call w k) {k' : Incoming} {nack : HandoverNack}
    (hr : k'.replies.head? = some (.nack nack)) (hfits : ∀ reply ∈ k'.replies, reply.Fits env) :
    Attends env c call w k' where
  le := h.le
  fits := h.fits
  fresh hnil _ := by
    rw [hnil] at hr
    cases hr
  heard ack ha := by
    rw [hr] at ha
    cases ha
  replied := hfits

/-- The handler goes on as long as it has not replied. -/
theorem Attends.take (h : Attends env c call w k) (hnil : k.replies = []) (hp : k.point = .reading)
    (hlt : k.framesRead < w) (ha : ¬ call.Altered env c k.framesRead) {k' : Incoming}
    (hread : k'.framesRead = k.framesRead + 1)
    (hbuf : k'.buffer = call.wires env c (k.framesRead + 1) w) (hp' : k'.point = .reading)
    (hr : k'.replies = k.replies)
    (hrec : k'.received = k.received ++ (call.frame env c k.framesRead).carried) :
    Attends env c call w k' where
  le := h.le
  fits := h.fits
  fresh _ _ := by
    obtain ⟨-, -, -, hintact, hold⟩ := h.fresh hnil (by rw [hp]; decide)
    refine ⟨by omega, Or.inr hp', by rw [hread, hbuf], fun i hi => ?_, ?_⟩
    · rcases Nat.lt_succ_iff_lt_or_eq.mp (hread ▸ hi) with hi | rfl
      · exact hintact i hi
      · exact ha
    · rw [hread, SendSessions.ingested_succ, if_neg ha, ← hold, hrec]
  heard ack hack := by
    rw [hr, hnil] at hack
    cases hack
  replied := by
    rw [hr]
    exact h.replied

/-- The listener accepts the connection. -/
theorem Attends.accept (h : Attends env c call w k) (hp : k.point = .absent) :
    Attends env c call w (k.at_ .reading) where
  le := h.le
  fits := h.fits
  fresh hnil _ := by
    obtain ⟨hle, -, hbuf, hintact, hrec⟩ := h.fresh hnil (by rw [hp]; decide)
    exact ⟨hle, Or.inr rfl, hbuf, hintact, hrec⟩
  heard ack ha := by
    rcases (h.heard ack ha).ended with he | he <;> rw [hp] at he <;> cases he
  replied := h.replied

/-- The sender writes a frame. -/
theorem Attends.write (h : Attends env c call w k) (hlt : w < call.total)
    (hfits : (call.frame env c w).Fits env) :
    Attends env c call (w + 1) { k with buffer := k.buffer ++ (call.frame env c w).wire env c } where
  le := hlt
  fits i hi := by
    rcases Nat.lt_succ_iff_lt_or_eq.mp hi with hi | rfl
    · exact h.fits i hi
    · exact hfits
  fresh hnil hne := by
    obtain ⟨hle, hp, hbuf, hintact, hrec⟩ := h.fresh hnil hne
    refine ⟨Nat.le_succ_of_le hle, hp, ?_, hintact, hrec⟩
    rw [SendSessions.wires_concat hle, ← hbuf]
  heard ack ha := by
    have hheard := h.heard ack ha
    exact ⟨hheard.ended, hheard.intact, hheard.received, ha, hheard.listed⟩
  replied := h.replied

end

/-! ### The handler of a sender -/

section
variable {env : P2PEnv} {c : ℕ} {call : SendSessions} {w : ℕ} {s t : ReceiveHandover}

theorem ReceiveHandover.nack_fits {err : String} {frame : Bytes} (h : s.nackFrame env c err = .ok frame) :
    (HandoverReply.nack (s.nack env c err)).Fits env := by
  by_contra hlong
  obtain ⟨e, he⟩ := packFrame_reply_too_long hlong
  rw [nackFrame, he] at h
  cases h

theorem ReceiveHandover.ack_fits {frame : Bytes} (h : s.ackFrame env c = .ok frame) :
    (HandoverReply.ack (s.ack env c)).Fits env := by
  by_contra hlong
  obtain ⟨e, he⟩ := packFrame_reply_too_long hlong
  rw [ackFrame, he] at h
  cases h

/-- A handler writes its replies behind those before. -/
theorem ReceiveHandover.replies_handleClient (h : s.handleClient env c = some t) :
    ∃ out, (t.conns c).replies = (s.conns c).replies ++ out ∧ ∀ reply ∈ out, reply.Fits env := by
  have hnone {k : Incoming} {s' : ReceiveHandover} (ht : s'.put c k = t)
      (hk : k.replies = (s.conns c).replies) :
      ∃ out, (t.conns c).replies = (s.conns c).replies ++ out ∧ ∀ reply ∈ out, reply.Fits env :=
    ⟨[], by rw [← ht, put_self, hk, List.append_nil], fun _ hr => by cases hr⟩
  unfold handleClient at h
  dsimp only at h
  split at h
  · split_ifs at h
    exact hnone (Option.some.inj h) rfl
  · split at h
    · rename_i hframe
      obtain rfl := Option.some.inj h
      refine ⟨[.nack _], by rw [put_self], fun reply hr => ?_⟩
      exact List.mem_singleton.mp hr ▸ nack_fits hframe
    · exact hnone (Option.some.inj h) rfl
  · exact hnone (Option.some.inj h) rfl
  · exact hnone (Option.some.inj h) rfl
  · split at h
    · rename_i hframe
      obtain rfl := Option.some.inj h
      refine ⟨[.ack _], by rw [put_self], fun reply hr => ?_⟩
      exact List.mem_singleton.mp hr ▸ ack_fits hframe
    · exact hnone (Option.some.inj h) rfl
  · exact hnone (Option.some.inj h) rfl

variable (hkeeps : ∀ x ∈ call.sessions, env.session.Keeps x) (hplain : call.compress = false)

include hplain in
theorem SendSessions.lossless_plain (i : ℕ) (hc : (call.frame env c i).compress = true) :
    env.zlib.decompress (env.zlib.compress (call.frame env c i).payload) =
      .ok (call.frame env c i).payload := by
  have hno : (call.frame env c i).compress = false := by
    cases i with
    | zero => rfl
    | succ i =>
      rw [frame]
      split
      · exact hplain
      · rfl
  rw [hno] at hc
  cases hc

/-- What the handler finds after `r` frames of `w`. -/
inductive Finds (env : P2PEnv) (c : ℕ) (call : SendSessions) (w r : ℕ) : Incoming.Next → Prop
  | nothing : Finds env c call w r .nothing
  | altered (err : String) (rest : Bytes) : Finds env c call w r (.corrupt err rest)
  | failed (e : Exc) (rest : Bytes) : Finds env c call w r (.failed e rest)
  | init (hlt : r < w) (ha : ¬ call.Altered env c r) (hr : (call.frame env c r).carried = []) :
    Finds env c call w r (.other (call.wires env c (r + 1) w))
  | state (hlt : r < w) (ha : ¬ call.Altered env c r) (session : InferenceSession)
    (hr : (call.frame env c r).carried = [session]) :
    Finds env c call w r (.session session (call.wires env c (r + 1) w))
  | fin (rest : Bytes) (ha : ¬ call.Altered env c r) (hr : r = call.sessions.length + 1) :
    Finds env c call w r (.fin rest)

include hplain in
/-- An intact frame as the handler reads it. -/
theorem read_plain {r : ℕ} (hfits : (call.frame env c r).Fits env) (ha : ¬ call.Altered env c r)
    (rest : Bytes) : ∃ flags, readFrameAsync env.zlib ((call.frame env c r).wire env c ++ rest) =
      .frame (call.frame env c r).msgType flags (call.frame env c r).payload rest :=
  Outgoing.read_wire_intact (SendSessions.small_frame r) hfits ha (SendSessions.lossless_plain hplain r) rest

include hplain in
theorem next_init {init : HandoverInit} (hfits : (call.frame env c 0).Fits env)
    (ha : ¬ call.Altered env c 0)
    (hload : env.handoverInit.load (call.frame env c 0).payload = .ok init) (rest : Bytes) :
    Incoming.next env ((call.frame env c 0).wire env c ++ rest) = .other rest := by
  have hinit : (call.frame env c 0).msgType = MessageType.handoverInit := rfl
  obtain ⟨flags, hread⟩ := @read_plain env c call hplain 0 hfits ha rest
  rw [Incoming.next, hread]
  dsimp only
  rw [if_pos hinit, hload]

include hplain in
theorem next_init_fails {e : Exc} (hfits : (call.frame env c 0).Fits env) (ha : ¬ call.Altered env c 0)
    (hload : env.handoverInit.load (call.frame env c 0).payload = .error e) (rest : Bytes) :
    Incoming.next env ((call.frame env c 0).wire env c ++ rest) = .failed e rest := by
  have hinit : (call.frame env c 0).msgType = MessageType.handoverInit := rfl
  obtain ⟨flags, hread⟩ := @read_plain env c call hplain 0 hfits ha rest
  rw [Incoming.next, hread]
  dsimp only
  rw [if_pos hinit, hload]

include hkeeps hplain in
theorem next_state {i : ℕ} (hi : i < call.sessions.length) (hfits : (call.frame env c (i + 1)).Fits env)
    (ha : ¬ call.Altered env c (i + 1)) (rest : Bytes) :
    Incoming.next env ((call.frame env c (i + 1)).wire env c ++ rest) =
      .session call.sessions[i] rest := by
  have hload : env.session.load (env.session.dump call.sessions[i]) = .ok call.sessions[i] :=
    hkeeps _ (List.getElem_mem hi)
  obtain ⟨flags, hread⟩ := @read_plain env c call hplain (i + 1) hfits ha rest
  rw [Incoming.next, hread, SendSessions.frame_state hi]
  dsimp only
  rw [if_neg (by decide), if_pos rfl, hload]

include hplain in
theorem next_fin (hfits : (call.frame env c (call.sessions.length + 1)).Fits env)
    (ha : ¬ call.Altered env c (call.sessions.length + 1)) (rest : Bytes) :
    Incoming.next env ((call.frame env c (call.sessions.length + 1)).wire env c ++ rest) = .fin rest := by
  obtain ⟨flags, hread⟩ := @read_plain env c call hplain (call.sessions.length + 1) hfits ha rest
  rw [Incoming.next, hread, SendSessions.frame_fin]
  dsimp only
  rw [if_neg (by decide), if_neg (by decide), if_pos rfl]

include hkeeps hplain in
theorem finds_next {r : ℕ} (hw : w ≤ call.total) (hfits : ∀ i < w, (call.frame env c i).Fits env)
    (hle : r ≤ w) : Finds env c call w r (Incoming.next env (call.wires env c r w)) := by
  rcases Nat.lt_or_ge r w with hlt | hge
  swap
  · obtain rfl : r = w := le_antisymm hle hge
    rw [SendSessions.wires_self]
    exact .nothing
  rw [SendSessions.wires_cons hlt]
  by_cases ha : call.Altered env c r
  · rw [Incoming.next, Outgoing.read_wire_altered (SendSessions.small_frame r) (hfits r hlt) ha]
    exact .altered _ _
  cases r with
  | zero =>
    cases hload : env.handoverInit.load (call.frame env c 0).payload with
    | ok init =>
      rw [next_init hplain (hfits 0 hlt) ha hload]
      exact .init hlt ha rfl
    | error e =>
      rw [next_init_fails hplain (hfits 0 hlt) ha hload]
      exact .failed _ _
  | succ i =>
    rw [SendSessions.total] at hw
    rcases lt_or_ge i call.sessions.length with hi | hi
    · rw [next_state hkeeps hplain hi (hfits (i + 1) hlt) ha]
      exact .state hlt ha _ (congrArg Outgoing.carried (@SendSessions.frame_state env c call i hi))
    · obtain rfl : i = call.sessions.length := by omega
      rw [next_fin hplain (hfits _ hlt) ha]
      exact .fin _ ha rfl

include hkeeps hplain in
/-- An iteration of the handler of a sender. -/
theorem Attends.handleClient (h : Attends env c call w (s.conns c)) (hp : (s.conns c).point = .reading)
    (hsub : (s.conns c).received.Sublist s.receivedSessions) (hs : s.handleClient env c = some t) :
    Attends env c call w (t.conns c) := by
  obtain ⟨out, hout, hfits⟩ := ReceiveHandover.replies_handleClient hs
  have hreplied : ∀ reply ∈ (t.conns c).replies, reply.Fits env := by
    rw [hout]
    exact fun reply hr => (List.mem_append.mp hr).elim (h.replied reply) (hfits reply)
  by_cases hnil : (s.conns c).replies = []
  swap
  · -- the first reply is a refusal, and stays so
    cases hhead : (s.conns c).replies.head? with
    | none => exact absurd (List.head?_eq_none_iff.mp hhead) hnil
    | some reply =>
      cases reply with
      | ack ack => rcases (h.heard ack hhead).ended with he | he <;> rw [hp] at he <;> cases he
      | nack nack =>
        exact h.refused (by rw [hout, List.head?_append_of_ne_nil _ hnil, hhead]) hreplied
  obtain ⟨hle, -, hbuf, hintact, hrec⟩ := h.fresh hnil (by rw [hp]; decide)
  have hfinds := @finds_next env c call w hkeeps hplain (s.conns c).framesRead h.le h.fits hle
  have hleave {k : Incoming} {s' : ReceiveHandover} (ht : s'.put c (k.at_ .closed) = t)
      (hr : k.replies = (s.conns c).replies) (hrec : k.received = (s.conns c).received) :
      Attends env c call w (t.conns c) := by
    rw [← ht, ReceiveHandover.put_self]
    exact h.leave hr hrec rfl
  unfold ReceiveHandover.handleClient at hs
  dsimp only at hs
  rw [← hbuf] at hfinds
  generalize Incoming.next env (s.conns c).buffer = found at hs hfinds
  cases hfinds with
  | nothing =>
    dsimp only at hs
    split_ifs at hs
    exact hleave (Option.some.inj hs) rfl rfl
  | altered err rest =>
    dsimp only at hs
    split at hs
    · obtain rfl := Option.some.inj hs
      rw [ReceiveHandover.put_self] at hreplied ⊢
      exact h.refused (by rw [hnil]; rfl) hreplied
    · exact hleave (Option.some.inj hs) rfl rfl
  | failed e rest =>
    dsimp only at hs
    exact hleave (Option.some.inj hs) rfl rfl
  | init hlt ha hr =>
    obtain rfl := Option.some.inj hs
    rw [ReceiveHandover.put_self]
    exact h.take hnil hp hlt ha rfl rfl hp rfl (by rw [hr, List.append_nil]; rfl)
  | state hlt ha session hr =>
    obtain rfl := Option.some.inj hs
    rw [ReceiveHandover.put_self]
    exact h.take hnil hp hlt ha rfl rfl hp rfl (by rw [hr])
  | fin rest ha hr =>
    dsimp only at hs
    split at hs
    · -- the acknowledgement
      have hall : ∀ i < call.total, ¬ call.Altered env c i := fun i hi =>
        (Nat.lt_succ_iff_lt_or_eq.mp hi).elim (fun hi => hintact i (hr ▸ hi)) fun he => he ▸ hr ▸ ha
      have hreceived : (s.conns c).received = call.sessions := by
        rw [hrec, hr, SendSessions.ingested_take le_rfl fun i hi => hall _
          (by rw [SendSessions.total]; omega), List.take_length]
      obtain rfl := Option.some.inj hs
      rw [ReceiveHandover.put_self] at hreplied ⊢
      refine ⟨h.le, h.fits, fun hno => ?_, fun ack hack => ?_, hreplied⟩
      · exact absurd hno (by simp)
      · rw [hnil] at hack
        obtain rfl := HandoverReply.ack.inj (Option.some.inj hack)
        have hfirst : ((s.conns c).replies ++ [HandoverReply.ack (s.ack env c)]).head? =
            some (.ack (s.ack env c)) := by
          rw [hnil]
          rfl
        exact ⟨Or.inl rfl, hall, hreceived, hfirst, (hreceived ▸ hsub).map _⟩
    · exact hleave (Option.some.inj hs) rfl rfl

include hkeeps hplain in
/-- A step of the listener that is not the sender's. -/
theorem Attends.step {l : ReceiveLabel} (h : Attends env c call w (s.conns c))
    (hsub : (s.conns c).received.Sublist s.receivedSessions)
    (hl : l ≠ .connect c ∧ ∀ bytes, l ≠ .write c bytes) (hs : s.step env l = some t) :
    Attends env c call w (t.conns c) := by
  by_cases hc : l.conn = some c
  swap
  · rw [ReceiveHandover.step_other hs hc]
    exact h
  cases l with
  | connect c' => exact absurd (congrArg ReceiveLabel.connect (Option.some.inj hc)) hl.1
  | write c' bytes =>
    obtain rfl := Option.some.inj hc
    exact absurd rfl (hl.2 bytes)
  | hangUp c' =>
    obtain rfl := Option.some.inj hc
    obtain rfl := Option.some.inj hs
    rw [ReceiveHandover.put_self]
    refine ⟨h.le, h.fits, h.fresh, fun ack ha => ?_, h.replied⟩
    have hheard := h.heard ack ha
    exact ⟨hheard.ended, hheard.intact, hheard.received, ha, hheard.listed⟩
  | serve c' =>
    obtain rfl := Option.some.inj hc
    simp only [ReceiveHandover.step] at hs
    split at hs
    · rename_i hp
      exact h.handleClient hkeeps hplain hp hsub hs
    · -- after a refusal
      rename_i hp
      obtain rfl := Option.some.inj hs
      rw [ReceiveHandover.put_self]
      refine ⟨h.le, h.fits, fun hnil _ => ?_, fun ack ha => ?_, h.replied⟩
      · rcases (h.fresh hnil (by rw [hp]; decide)).2.1 with he | he <;> rw [hp] at he <;> cases he
      · rcases (h.heard ack ha).ended with he | he <;> rw [hp] at he <;> cases he
    · obtain rfl := Option.some.inj hs
      rw [ReceiveHandover.put_self]
      exact h.leave rfl rfl rfl
    · cases hs
    · cases hs
  | handlerFails c' e =>
    obtain rfl := Option.some.inj hc
    simp only [ReceiveHandover.step] at hs
    split_ifs at hs
    obtain rfl := Option.some.inj hs
    rw [ReceiveHandover.fail, ReceiveHandover.put_self]
    exact h.leave rfl rfl rfl
  | wake | timeout | finish => cases hc

end

/-! ### What the listener returns -/

section
variable {env : P2PEnv} {s t : ReceiveHandover} {l : ReceiveLabel}

/-- The list of all has what each connection has brought, and is what is
returned, when no connection is open any more. -/
structure ReceiveHandover.Gathers (s : ReceiveHandover) : Prop where
  sublist : ∀ c, (s.conns c).received.Sublist s.receivedSessions
  accepted : ∀ c, (s.conns c).point.isOpen = true → c ∈ s.accepted
  returned : ∀ sessions, s.point = .returned sessions → s.receivedSessions = sessions ∧
    ∀ c ∈ s.accepted, (s.conns c).point.isOpen = false

theorem ReceiveHandover.gathers_new (nodeId : String) : Gathers { nodeId := nodeId } where
  sublist _ := List.Sublist.refl _
  accepted _ h := by cases h
  returned _ h := by cases h

/-- While a connection is open, the call has not returned. -/
theorem ReceiveHandover.Gathers.not_returned (h : s.Gathers) {c : ℕ}
    (ho : (s.conns c).point.isOpen = true) (sessions : List InferenceSession) :
    s.point ≠ .returned sessions := by
  intro hp
  have hclosed := (h.returned sessions hp).2 c (h.accepted c ho)
  rw [ho] at hclosed
  cases hclosed

/-- A step of a connection: the list of all learns what it brings. -/
theorem ReceiveHandover.Gathers.put (h : s.Gathers) {c : ℕ} {k : Incoming} {news : List InferenceSession}
    (hc : t.conns = s.conns) (ha : t.accepted = s.accepted) (hp : t.point = s.point)
    (hrec : t.receivedSessions = s.receivedSessions ++ news)
    (hk : k.received = (s.conns c).received ++ news)
    (ho : (s.conns c).point.isOpen = true ∨ k.point = (s.conns c).point ∧ news = []) :
    (t.put c k).Gathers where
  sublist c' := by
    show ((t.put c k).conns c').received.Sublist t.receivedSessions
    rw [hrec]
    by_cases hc' : c' = c
    · rw [hc', put_self, hk]
      exact (h.sublist c).append (List.Sublist.refl news)
    · rw [put_of_ne t c hc', hc]
      exact (h.sublist c').trans (List.sublist_append_left _ _)
  accepted c' hopen := by
    show c' ∈ t.accepted
    rw [ha]
    apply h.accepted c'
    by_cases hc' : c' = c
    · subst hc'
      rw [put_self] at hopen
      rcases ho with ho | ⟨hsame, -⟩
      · exact ho
      · rw [← hsame, hopen]
    · rwa [put_of_ne t c hc', hc] at hopen
  returned sessions hret := by
    have hold : s.point = .returned sessions := hp.symm.trans hret
    rcases ho with ho | ⟨hsame, rfl⟩
    · exact absurd hold (h.not_returned ho sessions)
    obtain ⟨hall, hclosed⟩ := h.returned sessions hold
    refine ⟨?_, fun c' hmem => ?_⟩
    · show t.receivedSessions = sessions
      rw [hrec, List.append_nil, hall]
    · have hc' := hclosed c' (ha ▸ hmem)
      by_cases he : c' = c
      · rw [he, put_self, hsame, ← he, hc']
      · rw [put_of_ne t c he, hc, hc']

theorem ReceiveHandover.Gathers.handleClient (h : s.Gathers) {c : ℕ} (hp : (s.conns c).point = .reading)
    (hs : s.handleClient env c = some t) : t.Gathers := by
  have ho : (s.conns c).point.isOpen = true := by
    rw [hp]
    rfl
  have hput {k : Incoming} {u : ReceiveHandover} (ht : u.put c k = t) (hk : k.received = (s.conns c).received)
      (hc : u.conns = s.conns ∧ u.accepted = s.accepted ∧ u.point = s.point ∧
        u.receivedSessions = s.receivedSessions) : t.Gathers := by
    obtain ⟨hc, ha, hpt, hall⟩ := hc
    rw [← ht]
    exact h.put hc ha hpt (hall.trans (List.append_nil _).symm) (hk.trans (List.append_nil _).symm)
      (Or.inl ho)
  unfold ReceiveHandover.handleClient at hs
  dsimp only at hs
  split at hs
  · split_ifs at hs
    exact hput (Option.some.inj hs) rfl ⟨rfl, rfl, rfl, rfl⟩
  · split at hs
    · exact hput (Option.some.inj hs) rfl ⟨rfl, rfl, rfl, rfl⟩
    · exact hput (Option.some.inj hs) rfl ⟨rfl, rfl, rfl, rfl⟩
  · exact hput (Option.some.inj hs) rfl ⟨rfl, rfl, rfl, rfl⟩
  · obtain rfl := Option.some.inj hs
    exact h.put rfl rfl rfl rfl rfl (Or.inl ho)
  · split at hs
    · exact hput (Option.some.inj hs) rfl ⟨rfl, rfl, rfl, rfl⟩
    · exact hput (Option.some.inj hs) rfl ⟨rfl, rfl, rfl, rfl⟩
  · exact hput (Option.some.inj hs) rfl ⟨rfl, rfl, rfl, rfl⟩

theorem ReceiveHandover.gathers_step (h : s.Gathers) (hs : s.step env l = some t) : t.Gathers := by
  have hput {c : ℕ} {k : Incoming} {u : ReceiveHandover} (ht : u.put c k = t)
      (hk : k.received = (s.conns c).received)
      (ho : (s.conns c).point.isOpen = true ∨ k.point = (s.conns c).point)
      (hc : u.conns = s.conns ∧ u.accepted = s.accepted ∧ u.point = s.point ∧
        u.receivedSessions = s.receivedSessions) : t.Gathers := by
    obtain ⟨hc, ha, hpt, hall⟩ := hc
    rw [← ht]
    exact h.put hc ha hpt (hall.trans (List.append_nil _).symm) (hk.trans (List.append_nil _).symm)
      (ho.imp_right fun he => ⟨he, rfl⟩)
  cases l with
  | connect c =>
    simp only [ReceiveHandover.step] at hs
    split_ifs at hs with hw
    obtain rfl := Option.some.inj hs
    refine ⟨fun c' => ?_, fun c' ho => ?_, fun sessions hret => ?_⟩
    · show ((ReceiveHandover.put _ c _).conns c').received.Sublist s.receivedSessions
      by_cases hc : c' = c
      · rw [hc, put_self]
        exact h.sublist c
      · rw [put_of_ne _ c hc]
        exact h.sublist c'
    · show c' ∈ s.accepted ++ [c]
      by_cases hc : c' = c
      · exact hc ▸ List.mem_append_right _ List.mem_cons_self
      · rw [put_of_ne _ c hc] at ho
        exact List.mem_append_left _ (h.accepted c' ho)
    · cases hw.1.symm.trans hret
  | write c bytes =>
    simp only [ReceiveHandover.step] at hs
    split_ifs at hs
    exact hput (Option.some.inj hs) rfl (Or.inr rfl) ⟨rfl, rfl, rfl, rfl⟩
  | hangUp c => exact hput (Option.some.inj hs) rfl (Or.inr rfl) ⟨rfl, rfl, rfl, rfl⟩
  | serve c =>
    simp only [ReceiveHandover.step] at hs
    split at hs
    · rename_i hp
      exact h.handleClient hp hs
    · rename_i hp
      exact hput (Option.some.inj hs) rfl (Or.inl (by rw [hp]; rfl)) ⟨rfl, rfl, rfl, rfl⟩
    · rename_i hp
      exact hput (Option.some.inj hs) rfl (Or.inl (by rw [hp]; rfl)) ⟨rfl, rfl, rfl, rfl⟩
    · cases hs
    · cases hs
  | handlerFails c e =>
    simp only [ReceiveHandover.step] at hs
    split_ifs at hs with ho
    exact hput (Option.some.inj hs) rfl (Or.inl ho) ⟨rfl, rfl, rfl, rfl⟩
  | wake =>
    simp only [ReceiveHandover.step] at hs
    split_ifs at hs
    obtain rfl := Option.some.inj hs
    exact ⟨h.sublist, h.accepted, fun _ hret => by cases hret⟩
  | timeout =>
    simp only [ReceiveHandover.step] at hs
    split_ifs at hs
    obtain rfl := Option.some.inj hs
    exact ⟨h.sublist, h.accepted, fun _ hret => by cases hret⟩
  | finish =>
    simp only [ReceiveHandover.step] at hs
    split at hs
    · rename_i error hp
      split_ifs at hs with hclosed
      obtain rfl := Option.some.inj hs
      refine ⟨h.sublist, h.accepted, fun sessions hret => ⟨?_, hclosed⟩⟩
      cases error with
      | none => exact ReceivePoint.returned.inj hret
      | some e => cases hret
    · cases hs

end

/-! ### What a sender knows -/

section
variable {env : P2PEnv} {c : ℕ} {call : SendSessions} {w : ℕ} {k : Incoming}

/-- Nothing is taken from a handler that has acknowledged, nor does it take more. -/
theorem HeardOut.step {ack : HandoverAck} {s t : ReceiveHandover} {l : ReceiveLabel}
    (h : HeardOut env c call (s.conns c) ack) (hs : s.step env l = some t) :
    HeardOut env c call (t.conns c) ack := by
  have hreading : (s.conns c).point ≠ .reading := by
    rcases h.ended with he | he <;> rw [he] <;> decide
  have hkeep {k : Incoming} (hp : k.point = .acking ∨ k.point = .closed)
      (hr : k.received = (s.conns c).received) (hreplies : k.replies = (s.conns c).replies) :
      HeardOut env c call k ack :=
    ⟨hp, h.intact, hr.trans h.received, hreplies ▸ h.first, h.listed⟩
  cases ReceiveHandover.Stepped.of_eq hs with
  | served _ c' k accepted _ hk hr =>
    by_cases hc : c = c'
    · subst hc
      rw [ReceiveHandover.put_self]
      rcases hk with ⟨hp, hreplies⟩ | ⟨hne, hne'⟩
      · exact hkeep (hp ▸ h.ended) hr hreplies
      · exact absurd h.ended (not_or.mpr ⟨hne, hne'⟩)
    · rw [ReceiveHandover.put_of_ne _ c' hc]
      exact h
  | accepted c' k session ha hr =>
    rw [ReceiveHandover.put_of_ne _ c' (by rintro rfl; exact hreading ha.1)]
    exact h
  | acknowledged c' k ha _ _ _ =>
    rw [ReceiveHandover.put_of_ne _ c' (by rintro rfl; exact hreading ha.1)]
    exact h
  | raised _ c' k e _ _ hk hr hreplies =>
    by_cases hc : c = c'
    · subst hc
      rw [ReceiveHandover.put_self]
      exact hkeep (Or.inr hk) hr hreplies
    · rw [ReceiveHandover.put_of_ne _ c' hc]
      exact h
  | done c' _ =>
    by_cases hc : c = c'
    · subst hc
      rw [ReceiveHandover.put_self]
      exact hkeep (Or.inr rfl) rfl rfl
    · rw [ReceiveHandover.put_of_ne _ c' hc]
      exact h
  | woken | timedOut | finished => exact h

/-- A frame of a call is written only if it is within the limit. -/
theorem SendSessions.frame_of_pack {i : ℕ} {frame : Bytes}
    (h : packFrame env.zlib (call.frame env c i).msgType (call.frame env c i).payload
      (call.frame env c i).flags protocolVersion (call.frame env c i).compress = .ok frame) :
    (call.frame env c i).Fits env ∧
      (env.transit c).deliver (call.frame env c i).key frame = (call.frame env c i).wire env c := by
  have hfits : (call.frame env c i).Fits env := by
    by_contra hlong
    obtain ⟨msg, he⟩ := Outgoing.pack_of_not_fits hlong
    rw [he] at h
    cases h
  rw [Outgoing.pack_of_fits (SendSessions.small_frame i) hfits] at h
  exact ⟨hfits, by rw [Outgoing.wire, Except.ok.inj h]⟩

/-- What the handler has come to when the sender is at its point. -/
def Sender.Known (env : P2PEnv) (c : ℕ) (x : Sender) (k : Incoming) : Prop :=
  match x.point with
  | .connecting => Attends env c x.call.frames 0 k
  | .writing i => i < x.call.frames.total ∧ Attends env c x.call.frames i k
  | .awaiting => Attends env c x.call.frames x.call.frames.total k
  | .returned ack => ∃ a, env.handoverAck.load (env.handoverAck.dump a) = .ok ack ∧
      HeardOut env c x.call.frames k a
  | .raised _ => True

/-- Only an acknowledgement as the first reply makes the sender return. -/
theorem Attends.readReply {call : SendHandover} {p : SenderPoint}
    (h : Attends env c call.frames w k) (hp : Sender.readReply env k = some p) :
    Sender.Known env c ⟨call, p⟩ k := by
  unfold Sender.readReply at hp
  cases hk : k.replies with
  | nil =>
    have hread : readFrameAsync env.zlib (k.replies.flatMap (HandoverReply.bytes env)) = .incomplete := by
      rw [hk]
      rfl
    simp only [hread] at hp
    split_ifs at hp
    exact Option.some.inj hp ▸ trivial
  | cons reply rest =>
    have hfits := h.replied reply (hk ▸ List.mem_cons_self)
    cases reply with
    | nack nack =>
      obtain ⟨flags, hread⟩ := @read_reply env MessageType.handoverNack (env.handoverNack.dump nack)
        (by decide) hfits (rest.flatMap (HandoverReply.bytes env))
      rw [hk, List.flatMap_cons, HandoverReply.bytes, hread] at hp
      dsimp only [Sender.outcome] at hp
      rw [if_neg (by decide), if_pos rfl] at hp
      split at hp
      · exact Option.some.inj hp ▸ trivial
      · exact Option.some.inj hp ▸ trivial
    | ack ack =>
      obtain ⟨flags, hread⟩ := @read_reply env MessageType.handoverAck (env.handoverAck.dump ack)
        (by decide) hfits (rest.flatMap (HandoverReply.bytes env))
      have hheard := h.heard ack (by rw [hk]; rfl)
      rw [hk, List.flatMap_cons, HandoverReply.bytes, hread] at hp
      dsimp only [Sender.outcome] at hp
      rw [if_pos rfl] at hp
      split at hp
      next heard hload => exact Option.some.inj hp ▸ ⟨ack, hload, hheard⟩
      next => exact Option.some.inj hp ▸ trivial

/-- A step of the listener that is not the sender's. -/
theorem Sender.Known.step {x : Sender} {s t : ReceiveHandover} {l : ReceiveLabel}
    (hkeeps : ∀ session ∈ x.call.sessions, env.session.Keeps session) (hg : s.Gathers)
    (h : x.Known env c (s.conns c)) (hl : l ≠ .connect c ∧ ∀ bytes, l ≠ .write c bytes)
    (hs : s.step env l = some t) : x.Known env c (t.conns c) := by
  unfold Sender.Known at h ⊢
  split at h
  · exact h.step hkeeps rfl (hg.sublist c) hl hs
  · exact ⟨h.1, h.2.step hkeeps rfl (hg.sublist c) hl hs⟩
  · exact h.step hkeeps rfl (hg.sublist c) hl hs
  · obtain ⟨a, hload, hheard⟩ := h
    exact ⟨a, hload, hheard.step hs⟩
  · trivial

end

/-! ### Every run -/

namespace OneShot

variable {env : P2PEnv} {s t : OneShot} {c : ℕ} {call : SendHandover}

/-- What is known of the listener, and of sender `c`. -/
structure Inv (env : P2PEnv) (c : ℕ) (call : SendHandover) (s : OneShot) : Prop where
  gathers : s.listener.Gathers
  known : ∃ x, s.senders c = some x ∧ x.call = call ∧ x.Known env c (s.listener.conns c)

/-- What a step of a sender changes: its point, and what the listener has of its
connection. -/
structure Moved (env : P2PEnv) (c : ℕ) (x : Sender) (point : SenderPoint) (s t : OneShot) : Prop where
  connected : point ≠ .connecting
  senders : t.senders = Function.update s.senders c (some { x with point := point })
  listener : t.listener = s.listener ∨ ∃ l, l.conn = some c ∧ s.listener.step env l = some t.listener

theorem Moved.of_served {x : Sender} {l : ReceiveLabel} {point : SenderPoint} (hc : l.conn = some c)
    (hne : point ≠ .connecting) (h : s.served env l c x point = some t) : Moved env c x point s t := by
  obtain ⟨k, hk, rfl⟩ := Option.map_eq_some_iff.mp h
  exact ⟨hne, rfl, Or.inr ⟨l, hc, hk⟩⟩

theorem Moved.of_setPoint {x : Sender} {point : SenderPoint} (hne : point ≠ .connecting)
    (h : s.setPoint c x point = t) : Moved env c x point s t := by
  subst h
  exact ⟨hne, rfl, Or.inl rfl⟩

theorem Moved.self {x : Sender} {point : SenderPoint} (h : Moved env c x point s t) :
    t.senders c = some { x with point := point } := by
  rw [h.senders, Function.update_self]

/-- The other connections are not concerned. -/
theorem Moved.other {x : Sender} {point : SenderPoint} {c' : ℕ} (h : Moved env c' x point s t)
    (hc : c ≠ c') : t.senders c = s.senders c ∧ t.listener.conns c = s.listener.conns c := by
  refine ⟨by rw [h.senders, Function.update_of_ne hc], ?_⟩
  rcases h.listener with he | ⟨l, hl, hk⟩
  · rw [he]
  · exact ReceiveHandover.step_other hk (by rw [hl]; exact fun he => hc (Option.some.inj he).symm)

theorem readReply_ne_connecting {k : Incoming} {point : SenderPoint}
    (h : Sender.readReply env k = some point) : point ≠ .connecting := by
  unfold Sender.readReply Sender.outcome at h
  rintro rfl
  split at h
  · split_ifs at h
    cases h
  · cases h
  · have hpoint := Option.some.inj h
    split_ifs at hpoint
    · split at hpoint <;> cases hpoint
    · split at hpoint <;> cases hpoint

theorem moved_of_stepSender {x : Sender} {l : SenderLabel} (hs : s.stepSender env c x l = some t) :
    ∃ point, Moved env c x point s t := by
  cases l with
  | connect =>
    simp only [stepSender] at hs
    split_ifs at hs
    exact ⟨_, .of_served rfl (by simp) hs⟩
  | connectFails text =>
    simp only [stepSender] at hs
    split_ifs at hs
    exact ⟨_, .of_setPoint (by simp) (Option.some.inj hs)⟩
  | write =>
    simp only [stepSender] at hs
    split at hs
    · split at hs
      · refine ⟨_, .of_served rfl ?_ hs⟩
        unfold Sender.nextPoint
        split_ifs <;> simp
      · exact ⟨_, .of_setPoint (by simp) (Option.some.inj hs)⟩
    · cases hs
  | reply =>
    simp only [stepSender] at hs
    split at hs
    · obtain ⟨point, hread, ht⟩ := Option.map_eq_some_iff.mp hs
      exact ⟨point, .of_setPoint (readReply_ne_connecting hread) ht⟩
    · cases hs
  | fails e =>
    simp only [stepSender] at hs
    split at hs
    · exact ⟨_, .of_setPoint (by simp) (Option.some.inj hs)⟩
    · exact ⟨_, .of_setPoint (by simp) (Option.some.inj hs)⟩
    · cases hs
  | close =>
    simp only [stepSender] at hs
    split at hs
    · rename_i hp
      exact ⟨_, .of_served rfl (by simp [hp]) hs⟩
    · rename_i hp
      exact ⟨_, .of_served rfl (by simp [hp]) hs⟩
    · cases hs

/-- The sender writes its next frame, or fails to make it. -/
theorem known_write {x : Sender} {i : ℕ} (hp : x.point = .writing i)
    (h : x.Known env c (s.listener.conns c)) (hs : s.stepSender env c x .write = some t) :
    ∃ y, t.senders c = some y ∧ y.call = x.call ∧ y.Known env c (t.listener.conns c) := by
  obtain ⟨hlt, hattends⟩ : i < x.call.frames.total ∧
      Attends env c x.call.frames i (s.listener.conns c) := by
    rwa [Sender.Known, hp] at h
  simp only [stepSender, hp] at hs
  split at hs
  · rename_i frame hframe
    obtain ⟨hfits, hwire⟩ := SendSessions.frame_of_pack hframe
    obtain ⟨k, hk, rfl⟩ := Option.map_eq_some_iff.mp hs
    simp only [ReceiveHandover.step] at hk
    split_ifs at hk
    obtain rfl := Option.some.inj hk
    have hnext := hattends.write hlt hfits
    refine ⟨_, Function.update_self .., rfl, ?_⟩
    show Sender.Known env c _ ((ReceiveHandover.put _ c _).conns c)
    rw [ReceiveHandover.put_self, hwire]
    unfold Sender.Known Sender.nextPoint
    split_ifs with hmore
    · exact ⟨hmore, hnext⟩
    · have htotal : i + 1 = x.call.frames.total := by omega
      dsimp only
      rwa [← htotal]
  · rename_i e _
    obtain rfl := Option.some.inj hs
    exact ⟨{ x with point := .raised e }, Function.update_self .., rfl, trivial⟩

/-- What the sender's own step makes of what is known of it. -/
theorem known_stepSender {x : Sender} {l : SenderLabel} (h : x.Known env c (s.listener.conns c))
    (hs : s.stepSender env c x l = some t) : ∃ y, t.senders c = some y ∧ y.call = x.call ∧
      y.Known env c (t.listener.conns c) := by
  have hraised (e : Exc) (ht : s.setPoint c x (.raised e) = t) : ∃ y, t.senders c = some y ∧
      y.call = x.call ∧ y.Known env c (t.listener.conns c) :=
    ⟨{ x with point := .raised e }, by rw [← ht]; exact Function.update_self .., rfl, trivial⟩
  cases l with
  | connect =>
    simp only [stepSender] at hs
    split_ifs at hs with hp
    obtain ⟨k, hk, rfl⟩ := Option.map_eq_some_iff.mp hs
    simp only [ReceiveHandover.step] at hk
    split_ifs at hk with hw
    obtain rfl := Option.some.inj hk
    refine ⟨_, Function.update_self .., rfl, ?_⟩
    have hattends : Attends env c x.call.frames 0 (s.listener.conns c) := by
      rwa [Sender.Known, hp] at h
    refine ⟨Nat.succ_pos _, ?_⟩
    show Attends env c x.call.frames 0 ((ReceiveHandover.put _ c _).conns c)
    rw [ReceiveHandover.put_self]
    exact hattends.accept hw.2
  | connectFails text =>
    simp only [stepSender] at hs
    split_ifs at hs
    exact hraised _ (Option.some.inj hs)
  | write =>
    cases hp : x.point with
    | writing i => exact known_write hp h hs
    | connecting | awaiting | returned | raised =>
      simp only [stepSender, hp] at hs
      cases hs
  | reply =>
    simp only [stepSender] at hs
    split at hs
    · rename_i hp
      obtain ⟨point, hread, rfl⟩ := Option.map_eq_some_iff.mp hs
      have hattends : Attends env c x.call.frames x.call.frames.total (s.listener.conns c) := by
        rwa [Sender.Known, hp] at h
      exact ⟨_, Function.update_self .., rfl, hattends.readReply hread⟩
    · cases hs
  | fails e =>
    simp only [stepSender] at hs
    split at hs
    · exact hraised _ (Option.some.inj hs)
    · exact hraised _ (Option.some.inj hs)
    · cases hs
  | close =>
    simp only [stepSender] at hs
    split at hs
    · rename_i ack hp
      obtain ⟨k, hk, rfl⟩ := Option.map_eq_some_iff.mp hs
      refine ⟨_, Function.update_self .., rfl, ?_⟩
      obtain ⟨a, hload, hheard⟩ : ∃ a, env.handoverAck.load (env.handoverAck.dump a) = .ok ack ∧
          HeardOut env c x.call.frames (s.listener.conns c) a := by
        rwa [Sender.Known, hp] at h
      rw [Sender.Known, hp]
      exact ⟨a, hload, hheard.step hk⟩
    · rename_i e hp
      obtain ⟨k, hk, rfl⟩ := Option.map_eq_some_iff.mp hs
      refine ⟨_, Function.update_self .., rfl, ?_⟩
      rw [Sender.Known, hp]
      trivial
    · cases hs

theorem inv_step {l : OneShotLabel} (hkeeps : ∀ session ∈ call.sessions, env.session.Keeps session)
    (h : Inv env c call s) (hs : s.step env l = some t) : Inv env c call t := by
  obtain ⟨hg, x, hx, rfl, hknown⟩ := h
  cases l with
  | listener rl =>
    simp only [step] at hs
    split_ifs at hs with hadmits
    obtain ⟨k, hk, rfl⟩ := Option.map_eq_some_iff.mp hs
    refine ⟨ReceiveHandover.gathers_step hg hk, x, hx, rfl, hknown.step hkeeps hg ⟨?_, ?_⟩ hk⟩
    · rintro rfl
      simp [admits, hx] at hadmits
    · rintro bytes rfl
      simp [admits, hx] at hadmits
  | sender c' l =>
    obtain ⟨x', hx', hs⟩ := Option.bind_eq_some_iff.mp hs
    obtain ⟨point, hmoved⟩ := moved_of_stepSender hs
    have hg' : t.listener.Gathers := by
      rcases hmoved.listener with he | ⟨rl, -, hk⟩
      · rw [he]
        exact hg
      · exact ReceiveHandover.gathers_step hg hk
    by_cases hc : c = c'
    · subst hc
      obtain rfl := Option.some.inj (hx.symm.trans hx')
      exact ⟨hg', known_stepSender hknown hs⟩
    · obtain ⟨hsenders, hconns⟩ := hmoved.other hc
      exact ⟨hg', x, hsenders.trans hx, rfl, hconns ▸ hknown⟩

/-- **Who is acknowledged has been heard.** In every run of a listener, its
senders and other peers: where a call of `send_handover` has returned, none of its
frames was altered in transit, the listener has taken its sessions, in order, and
lists them in the acknowledgement; and where the call of `receive_handover`
returns, it returns them, whatever others have brought. -/
theorem sendHandover_acked {nodeId : String} {calls : ℕ → Option SendHandover} {ls : List OneShotLabel}
    {x : Sender} {ack : HandoverAck} (hcall : calls c = some call)
    (hkeeps : ∀ session ∈ call.sessions, env.session.Keeps session)
    (hr : Machine.run (step env) (new nodeId calls) ls = some s)
    (hacks : ∀ a, .ack a ∈ (s.listener.conns c).replies → env.handoverAck.Keeps a)
    (hx : s.senders c = some x) (hret : x.point = .returned ack) :
    (∀ i < call.frames.total, ¬ call.frames.Altered env c i) ∧
      (s.listener.conns c).received = call.sessions ∧
      (call.sessions.map (·.requestId)).Sublist ack.acceptedRequestIds ∧
      ∀ sessions, s.listener.point = .returned sessions → call.sessions.Sublist sessions := by
  have hstart : Inv env c call (new nodeId calls) := by
    refine ⟨ReceiveHandover.gathers_new nodeId, { call := call }, ?_, rfl, attends_new⟩
    simp [new, hcall]
  obtain ⟨hg, y, hy, rfl, hknown⟩ := Machine.run_inv (fun _ _ _ h hs => inv_step hkeeps h hs) hstart hr
  obtain rfl := Option.some.inj (hx.symm.trans hy)
  rw [Sender.Known, hret] at hknown
  obtain ⟨a, hload, hheard⟩ := hknown
  obtain rfl : a = ack := Except.ok.inj ((hacks a (List.mem_of_mem_head? hheard.first)).symm.trans hload)
  refine ⟨hheard.intact, hheard.received, hheard.listed, fun sessions hp => ?_⟩
  have hsub := hg.sublist c
  rwa [hheard.received, (hg.returned sessions hp).1] at hsub

/-! ### Two sessions -/

def twoCalls (c : ℕ) : Option SendHandover :=
  if c = 0 then some { sessions := [sampleA, sampleB] } else none

/-- Each frame is read when it has been written, then the reply; both ends are closed. -/
def wholeRun : List OneShotLabel :=
  [.sender 0 .connect, .sender 0 .write, .listener (.serve 0), .sender 0 .write, .listener (.serve 0),
    .sender 0 .write, .listener (.serve 0), .sender 0 .write, .listener (.serve 0), .sender 0 .reply,
    .listener (.serve 0), .sender 0 .close, .listener .wake, .listener .finish]

-- the kernel goes through the bytes of the frames
set_option maxRecDepth 100000 in
theorem wholeRun_ends :
    (Machine.run (step ReceiveHandover.listenerEnv) (new "node-standby" twoCalls) wholeRun).map (fun s =>
      ((s.senders 0).map Sender.point, (s.listener.conns 0).replies)) =
        some (some (.returned (sampleServer.ack 0 [sampleA, sampleB])),
          [.ack (sampleServer.ack 0 [sampleA, sampleB])]) := by
  decide +kernel

theorem sendHandover_acked_two : ∃ s x ack,
    Machine.run (step ReceiveHandover.listenerEnv) (new "node-standby" twoCalls) wholeRun = some s ∧
      s.senders 0 = some x ∧ x.point = .returned ack ∧ ack.acceptedRequestIds = ["req-a", "req-b"] ∧
      (s.listener.conns 0).received = [sampleA, sampleB] := by
  obtain ⟨s, hr, hends⟩ := Option.map_eq_some_iff.mp wholeRun_ends
  obtain ⟨hpoint, hreplies⟩ := Prod.mk.inj hends
  obtain ⟨x, hx, hret⟩ := Option.map_eq_some_iff.mp hpoint
  have hkeeps (id : String) : ReceiveHandover.listenerEnv.session.Keeps { requestId := id } := by
    dsimp only [ReceiveHandover.listenerEnv]
    exact Codec.keeps_around rfl
  have hsessions : ∀ session ∈ [sampleA, sampleB], ReceiveHandover.listenerEnv.session.Keeps session := by
    intro session hs
    rcases List.mem_cons.mp hs with rfl | hs
    · exact hkeeps _
    · exact List.mem_singleton.mp hs ▸ hkeeps _
  have hacks (a : HandoverAck) (ha : .ack a ∈ (s.listener.conns 0).replies) :
      ReceiveHandover.listenerEnv.handoverAck.Keeps a := by
    rw [hreplies] at ha
    obtain rfl := HandoverReply.ack.inj (List.mem_singleton.mp ha)
    exact ackCodec_keeps
  have hacked := @sendHandover_acked ReceiveHandover.listenerEnv s 0 { sessions := [sampleA, sampleB] }
    "node-standby" twoCalls wholeRun x _ rfl hsessions hr hacks hx hret
  exact ⟨s, x, _, hr, hx, hret, rfl, hacked.2.1⟩

end OneShot
end Sgm
