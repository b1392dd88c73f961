/-
# A one-shot handover that nothing hinders

Whatever the listener and its other peers have done before: a sender that has not
connected yet can be acknowledged by steps of its own and of its handler alone,
if the listener waits, none of its frames is altered, and the frames and the
acknowledgement are within the limit of the protocol.

Key definitions: `OneShot.Stage`, `OneShot.Unhindered`.
Key theorems: `OneShot.unconnected_run`, `OneShot.Stage.succ`, `OneShot.exists_acked`.
-/
import Sgm.Memory.SendHandover

namespace Sgm

open Framing

namespace OneShot

variable {env : P2PEnv} {s t : OneShot} {c : ℕ} {call : SendHandover}

/-! ### Before the connection -/

/-- The connection of a sender that has not connected is untouched. -/
def Unconnected (c : ℕ) (call : SendHandover) (s : OneShot) : Prop :=
  ∃ x, s.senders c = some x ∧ x.call = call ∧ (x.point = .connecting → s.listener.conns c = {})

theorem unconnected_step {l : OneShotLabel} (h : Unconnected c call s) (hs : s.step env l = some t) :
    Unconnected c call t := by
  obtain ⟨x, hx, rfl, hconn⟩ := h
  cases l with
  | listener rl =>
    simp only [step] at hs
    split_ifs at hs with hadmits
    obtain ⟨k, hk, rfl⟩ := Option.map_eq_some_iff.mp hs
    refine ⟨x, hx, rfl, fun hp => ?_⟩
    have hnew := hconn hp
    by_cases hc : rl.conn = some c
    · cases rl with
      | connect c' | write c' bytes | hangUp c' =>
        obtain rfl := Option.some.inj hc
        simp [admits, hx] at hadmits
      | serve c' | handlerFails c' e =>
        obtain rfl := Option.some.inj hc
        simp [ReceiveHandover.step, hnew, IncomingPoint.isOpen] at hk
      | wake | timeout | finish => cases hc
    · exact (ReceiveHandover.step_other hk hc).trans hnew
  | sender c' l =>
    obtain ⟨x', hx', hs⟩ := Option.bind_eq_some_iff.mp hs
    obtain ⟨point, hmoved⟩ := moved_of_stepSender hs
    by_cases hc : c = c'
    · subst hc
      obtain rfl := Option.some.inj (hx.symm.trans hx')
      exact ⟨_, hmoved.self, rfl, fun hp => absurd hp hmoved.connected⟩
    · obtain ⟨hsenders, hconns⟩ := hmoved.other hc
      exact ⟨x, hsenders.trans hx, rfl, fun hp => hconns.trans (hconn hp)⟩

theorem unconnected_run {nodeId : String} {calls : ℕ → Option SendHandover} {ls : List OneShotLabel}
    (hcall : calls c = some call) (hr : Machine.run (step env) (new nodeId calls) ls = some s) :
    Unconnected c call s := by
  have hstart : Unconnected c call (new nodeId calls) := ⟨{ call := call }, by simp [new, hcall], rfl,
    fun _ => rfl⟩
  exact Machine.run_inv (fun _ _ _ h hs => unconnected_step h hs) hstart hr

/-! ### Frame by frame -/

/-- After `i` frames, each of which has been read: `base` is what the list of all
had before. -/
structure Stage (c : ℕ) (call : SendHandover) (nodeId : String) (base : List InferenceSession) (i : ℕ)
    (s : OneShot) : Prop where
  sender : s.senders c =
    some ⟨call, if i < call.frames.total then .writing i else .awaiting⟩
  conn : s.listener.conns c =
    { point := .reading, framesRead := i, received := call.sessions.take (i - 1) }
  all : s.listener.receivedSessions = base ++ call.sessions.take (i - 1)
  nodeId : s.listener.nodeId = nodeId

/-- The steps of a sender and of its handler. -/
def Own (c : ℕ) (l : OneShotLabel) : Prop :=
  l = .listener (.serve c) ∨ ∃ l', l = .sender c l'

variable {nodeId : String} {base : List InferenceSession} {i : ℕ}

/-- The next frame is written, and the handler is about to read it. -/
theorem Stage.write (h : Stage c call nodeId base i s) (hi : i < call.frames.total)
    (hfits : (call.frames.frame env c i).Fits env) :
    ∃ t, step env s (.sender c .write) = some t ∧
      t.senders c = some ⟨call, if i + 1 < call.frames.total then .writing (i + 1) else .awaiting⟩ ∧
      t.listener.conns c = { point := .reading, framesRead := i, received := call.sessions.take (i - 1)
                             buffer := (call.frames.frame env c i).wire env c } ∧
      t.listener.receivedSessions = base ++ call.sessions.take (i - 1) ∧
      t.listener.nodeId = nodeId := by
  have hx := h.sender
  rw [if_pos hi] at hx
  have hpack := Outgoing.pack_of_fits (@SendSessions.small_frame env c call.frames i) hfits
  refine ⟨{ s with listener := s.listener.put c { s.listener.conns c with
      buffer := (call.frames.frame env c i).wire env c } }.setPoint c ⟨call, .writing i⟩
        (Sender.nextPoint ⟨call, .writing i⟩ i), ?_, Function.update_self .., ?_, h.all, h.nodeId⟩
  · rw [step, hx, Option.bind_some, stepSender]
    dsimp only
    rw [hpack]
    dsimp only
    rw [served, ReceiveHandover.step, h.conn]
    rfl
  · show (ReceiveHandover.put _ c _).conns c = _
    rw [ReceiveHandover.put_self, h.conn]

theorem step_serve {v : ReceiveHandover} (hp : (s.listener.conns c).point = .reading)
    (hv : s.listener.handleClient env c = some v) :
    step env s (.listener (.serve c)) = some { s with listener := v } := by
  simp only [step, admits, ReceiveHandover.step, hp, hv, if_true, Option.map_some]

/-- A frame is written, and read. -/
theorem run_write_serve {v : ReceiveHandover} {k : Incoming} (hs : step env s (.sender c .write) = some t)
    (hk : t.listener.conns c = k) (hp : k.point = .reading)
    (hv : t.listener.handleClient env c = some v) (ls : List OneShotLabel) :
    Machine.run (step env) s (.sender c .write :: .listener (.serve c) :: ls) =
      Machine.run (step env) { t with listener := v } ls := by
  rw [Machine.run_cons, hs, Option.bind_some, Machine.run_cons, step_serve (hk ▸ hp) hv, Option.bind_some]

/-- What a handover needs to go through: `ack` is the acknowledgement that comes of it. -/
structure Unhindered (env : P2PEnv) (c : ℕ) (call : SendHandover) (ack : HandoverAck) : Prop where
  fits : ∀ i < call.frames.total, (call.frames.frame env c i).Fits env
  intact : ∀ i < call.frames.total, ¬ call.frames.Altered env c i
  init : ∃ init, env.handoverInit.load (call.frames.frame env c 0).payload = .ok init
  sessions : ∀ session ∈ call.sessions, env.session.Keeps session
  ackFits : (env.handoverAck.dump ack).length ≤ maxPayloadSize
  ack : env.handoverAck.Keeps ack

theorem init_of_keeps (h : env.handoverInit.Keeps (call.frames.initPayload (env.clientTimeNs c))) :
    ∃ init, env.handoverInit.load (call.frames.frame env c 0).payload = .ok init := ⟨_, h⟩

/-- Every frame but the last is taken. -/
theorem Stage.succ {ack : HandoverAck} (hq : Unhindered env c call ack)
    (h : Stage c call nodeId base i s) (hi : i + 1 < call.frames.total) :
    ∃ t, Machine.run (step env) s [.sender c .write, .listener (.serve c)] = some t ∧
      Stage c call nodeId base (i + 1) t := by
  have hlt : i < call.frames.total := Nat.lt_of_succ_lt hi
  obtain ⟨u, hu, hx, hconn, hall, hnode⟩ := h.write hlt (hq.fits i hlt)
  cases i with
  | zero =>
    obtain ⟨init, hload⟩ := hq.init
    have hnext := @next_init env c call.frames rfl init (hq.fits 0 hlt) (hq.intact 0 hlt) hload []
    rw [List.append_nil] at hnext
    have hv : u.listener.handleClient env c =
        some (u.listener.put c ((u.listener.conns c).readOff [])) := by
      rw [ReceiveHandover.handleClient, hconn]
      dsimp only
      rw [hnext]
    refine ⟨_, run_write_serve hu hconn rfl hv [], hx, ?_, hall, hnode⟩
    show (ReceiveHandover.put _ c _).conns c = _
    rw [ReceiveHandover.put_self, hconn]
    rfl
  | succ j =>
    rw [SendSessions.total] at hi
    have hj : j < call.sessions.length := by
      have hlen : call.frames.sessions.length = call.sessions.length := rfl
      omega
    have hnext := @next_state env c call.frames hq.sessions rfl j hj (hq.fits _ hlt) (hq.intact _ hlt) []
    rw [List.append_nil] at hnext
    have htake : call.sessions.take (j + 1) = call.sessions.take j ++ [call.sessions[j]] :=
      List.take_succ_eq_append_getElem hj
    let session := call.sessions[j]
    let v := { u.listener with receivedSessions := u.listener.receivedSessions ++ [session] }.put c
      { (u.listener.conns c).readOff [] with received := (u.listener.conns c).received ++ [session] }
    have hv : u.listener.handleClient env c = some v := by
      rw [ReceiveHandover.handleClient]
      dsimp only
      rw [show (u.listener.conns c).buffer = (call.frames.frame env c (j + 1)).wire env c by rw [hconn],
        hnext]
      rfl
    refine ⟨_, run_write_serve hu hconn rfl hv [], hx, ?_, ?_, hnode⟩
    · show (ReceiveHandover.put _ c _).conns c = _
      rw [ReceiveHandover.put_self, hconn]
      show Incoming.mk _ _ _ _ (call.sessions.take j ++ [call.sessions[j]]) _ = _
      rw [← htake]
      rfl
    · show u.listener.receivedSessions ++ [call.sessions[j]] = base ++ call.sessions.take (j + 1)
      rw [hall, htake, List.append_assoc]
      rfl

/-! ### To the acknowledgement -/

/-- The acknowledgement of a handover that no other one overlaps. -/
def ackFor (env : P2PEnv) (c : ℕ) (call : SendHandover) (s : OneShot) : HandoverAck where
  sourceNodeId := s.listener.nodeId
  acceptedRequestIds := (s.listener.receivedSessions ++ call.sessions).map (·.requestId)
  standbyReadyTimestampNs := env.serverTimeNs c call.frames.total
  resumePort := 8002

/-- The last frame is acknowledged, and the sender reads it. -/
theorem Stage.last {ack : HandoverAck} (hq : Unhindered env c call ack)
    (h : Stage c call nodeId base (call.sessions.length + 1) s)
    (hack : ack = { sourceNodeId := nodeId, acceptedRequestIds := (base ++ call.sessions).map (·.requestId)
                    standbyReadyTimestampNs := env.serverTimeNs c call.frames.total, resumePort := 8002 }) :
    ∃ t, Machine.run (step env) s [.sender c .write, .listener (.serve c), .sender c .reply] = some t ∧
      t.senders c = some ⟨call, .returned ack⟩ := by
  have htotal : call.frames.total = call.sessions.length + 1 + 1 := rfl
  have hlt : call.sessions.length + 1 < call.frames.total := by omega
  obtain ⟨u, hu, hx, hconn, hall, hnode⟩ := h.write hlt (hq.fits _ hlt)
  rw [if_neg (by rw [htotal]; omega)] at hx
  have hnext : Incoming.next env ((call.frames.frame env c (call.sessions.length + 1)).wire env c ++ []) =
      .fin [] := next_fin rfl (hq.fits _ hlt) (hq.intact _ hlt) []
  rw [List.append_nil] at hnext
  have hackOf : u.listener.ack env c = ack := by
    rw [hack, ReceiveHandover.ack, hconn]
    simp only [hnode, hall, Nat.add_sub_cancel, List.take_length, htotal]
  have hframe : u.listener.ackFrame env c =
      .ok (replyBytes env MessageType.handoverAck (env.handoverAck.dump ack)) := by
    rw [ReceiveHandover.ackFrame, hackOf]
    exact packFrame_reply (by decide) hq.ackFits
  let v := { u.listener with acknowledged := u.listener.acknowledged ++ [c] }.put c
    { (u.listener.conns c).readOff [] with
      point := .acking
      replies := (u.listener.conns c).replies ++ [HandoverReply.ack (u.listener.ack env c)] }
  have hv : u.listener.handleClient env c = some v := by
    rw [ReceiveHandover.handleClient]
    dsimp only
    rw [show (u.listener.conns c).buffer =
      (call.frames.frame env c (call.sessions.length + 1)).wire env c by rw [hconn], hnext]
    dsimp only
    rw [hframe]
  have hreplies : (v.conns c).replies = [.ack ack] := by
    rw [ReceiveHandover.put_self, hackOf, hconn]
    rfl
  have hread : Sender.readReply env (v.conns c) = some (.returned ack) := by
    obtain ⟨flags, hbytes⟩ := @read_reply env MessageType.handoverAck (env.handoverAck.dump ack)
      (by decide) hq.ackFits []
    have hload : env.handoverAck.load (env.handoverAck.dump ack) = .ok ack := hq.ack
    unfold Sender.readReply
    rw [hreplies, List.flatMap_cons, List.flatMap_nil, HandoverReply.bytes, hbytes]
    dsimp only [Sender.outcome]
    rw [if_pos rfl, hload]
  have hreply : step env { u with listener := v } (.sender c .reply) =
      some ({ u with listener := v }.setPoint c ⟨call, .awaiting⟩ (.returned ack)) := by
    rw [step, hx, Option.bind_some, stepSender]
    dsimp only
    rw [hread]
    rfl
  refine ⟨{ u with listener := v }.setPoint c ⟨call, .awaiting⟩ (.returned ack), ?_,
    Function.update_self ..⟩
  rw [run_write_serve hu hconn rfl hv, Machine.run_cons, hreply]
  rfl

/-- **A handover that nothing hinders is acknowledged.** From every reachable state
in which a sender has not connected yet and the listener waits, whatever the
listener and its other peers have done: where none of the frames is altered and
all are within the limit, steps of the sender and its handler alone bring
`send_handover` to its return. -/
theorem exists_acked {calls : ℕ → Option SendHandover} {ls : List OneShotLabel} {x : Sender}
    (hcall : calls c = some call) (hr : Machine.run (step env) (new nodeId calls) ls = some s)
    (hx : s.senders c = some x) (hp : x.point = .connecting) (hw : s.listener.point = .waiting)
    (hq : Unhindered env c call (ackFor env c call s)) :
    ∃ bs t, (∀ l ∈ bs, Own c l) ∧ Machine.run (step env) s bs = some t ∧
      t.senders c = some ⟨call, .returned (ackFor env c call s)⟩ := by
  obtain ⟨y, hy, rfl, hnew⟩ := unconnected_run hcall hr
  obtain rfl := Option.some.inj (hx.symm.trans hy)
  have hconn := hnew hp
  -- the connection
  let v := { s.listener with accepted := s.listener.accepted ++ [c] }.put c { point := .reading }
  obtain ⟨t, ht, hstage⟩ : ∃ t, step env s (.sender c .connect) = some t ∧
      Stage c x.call s.listener.nodeId s.listener.receivedSessions 0 t := by
    refine ⟨{ s with listener := v }.setPoint c x (.writing 0), ?_, ?_⟩
    · rw [step, hx, Option.bind_some, stepSender, if_pos hp, served, ReceiveHandover.step, hconn,
        if_pos ⟨hw, rfl⟩]
      rfl
    · refine ⟨Function.update_self .., ?_, (List.append_nil _).symm, rfl⟩
      show v.conns c = _
      exact ReceiveHandover.put_self ..
  -- the frames
  have hframes : ∀ i, i < x.call.frames.total → ∃ bs u, (∀ l ∈ bs, Own c l) ∧
      Machine.run (step env) t bs = some u ∧
        Stage c x.call s.listener.nodeId s.listener.receivedSessions i u := by
    intro i
    induction i with
    | zero => exact fun _ => ⟨[], t, (fun _ hl => by cases hl), rfl, hstage⟩
    | succ i ih =>
      intro hi
      obtain ⟨bs, u, hown, hu, hat⟩ := ih (Nat.lt_of_succ_lt hi)
      obtain ⟨v, hv, hnext⟩ := hat.succ hq hi
      refine ⟨bs ++ [.sender c .write, .listener (.serve c)], v, fun l hl => ?_,
        Machine.run_append_eq_some.mpr ⟨u, hu, hv⟩, hnext⟩
      rcases List.mem_append.mp hl with hl | hl
      · exact hown l hl
      · rcases List.mem_cons.mp hl with rfl | hl
        · exact Or.inr ⟨_, rfl⟩
        · exact Or.inl (List.mem_singleton.mp hl)
  obtain ⟨bs, u, hown, hu, hat⟩ := hframes (x.call.sessions.length + 1) (Nat.lt_succ_self _)
  obtain ⟨v, hv, hret⟩ := hat.last hq rfl
  refine ⟨.sender c .connect :: bs ++ [.sender c .write, .listener (.serve c), .sender c .reply], v,
    fun l hl => ?_, ?_, hret⟩
  · rcases List.mem_append.mp hl with hl | hl
    · rcases List.mem_cons.mp hl with rfl | hl
      · exact Or.inr ⟨_, rfl⟩
      · exact hown l hl
    · simp only [List.mem_cons, List.not_mem_nil, or_false] at hl
      rcases hl with rfl | rfl | rfl
      · exact Or.inr ⟨_, rfl⟩
      · exact Or.inl rfl
      · exact Or.inr ⟨_, rfl⟩
  · exact Machine.run_append_eq_some.mpr ⟨u, Machine.run_cons_eq_some.mpr ⟨t, ht, hu⟩, hv⟩

theorem exists_acked_two : ∃ bs t, (∀ l ∈ bs, Own 0 l) ∧
    Machine.run (step (sampleEnv (.flip fun _ => false))) (new "node-standby" twoCalls) bs = some t ∧
      t.senders 0 = some ⟨{ sessions := [sampleA, sampleB] },
        .returned (sampleServer.ack 0 [sampleA, sampleB])⟩ := by
  let call : SendHandover := { sessions := [sampleA, sampleB] }
  have hcall : call.frames = sampleCall := rfl
  have hack : ackFor (sampleEnv (.flip fun _ => false)) 0 call (new "node-standby" twoCalls) =
      sampleServer.ack 0 [sampleA, sampleB] := rfl
  have hq : Unhindered (sampleEnv (.flip fun _ => false)) 0 call
      (ackFor (sampleEnv (.flip fun _ => false)) 0 call (new "node-standby" twoCalls)) := by
    refine ⟨?_, ?_, ?_, ?_, ?_, ?_⟩
    · rw [hcall]
      exact fun i hi => (sample_body _ hi).2
    · rw [hcall]
      exact sample_intact
    · exact init_of_keeps (sample_initLoads _)
    · intro session hs
      rcases List.mem_cons.mp hs with rfl | hs
      · exact sessionCodec_keeps "req-a"
      · exact List.mem_singleton.mp hs ▸ sessionCodec_keeps "req-b"
    · rw [hack]
      exact length_ackCodec.trans (by decide)
    · rw [hack]
      exact ackCodec_keeps
  have hacked := @exists_acked (sampleEnv (.flip fun _ => false)) (new "node-standby" twoCalls) 0 call
    "node-standby" twoCalls [] { call := call } rfl rfl rfl rfl rfl hq
  rwa [hack] at hacked

end OneShot
end Sgm
