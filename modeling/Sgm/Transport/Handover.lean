/-
# A handover, from one connection's point of view

At any time the sender has written the first `w` frames of its call and the
handler has read the first `r` of them; the bytes of those in between are in
flight. The sessions in flight, the replies and the calls of callbacks are
those that the first `r` frames lead to (`Served`). This holds after any run
of the system, whatever the other connections do (`handover_run`).

Key definitions: `SendSessions.Served`, `Handover`, `SendSessions.Unhindered`.
Key theorems: `Handover.step`, `P2P.handover_run`, `P2P.exists_handover`, `P2P.exists_unhindered`.
-/
import Sgm.Transport.Frames

namespace Sgm

open Framing

namespace SendSessions

variable (env : P2PEnv) (srv : P2PServer) (c : ℕ) (call : SendSessions)

/-- At this point the sender has written `w` frames. -/
def Written : ClientPoint → ℕ → Prop
  | .connecting, w | .sendInit, w => w = 0
  | .sendState i attempt, w => w = i + 1 ∧ i < call.sessions.length ∧ attempt = 0
  | .sendFin, w => w = call.sessions.length + 1
  | .awaitReply, w | .returned _, w => w = call.total
  | .raised _, w => w ≤ call.total
  | .foreign, _ | .hungUp, _ => False

/-- The HANDOVER_FIN is read, and accepted. -/
structure Finished (r : ℕ) : Prop where
  all : r = call.total
  intact : ¬ call.Altered env c (call.sessions.length + 1)

/-- The answers to the altered ones among the first `r` frames can be sent. -/
def NacksFit (r : ℕ) : Prop := ∀ i < r, call.Altered env c i → call.NackFits env srv c i

/-- Nothing but altered payloads, and not that of the HANDOVER_FIN, stands in
the way of the handover. -/
structure Unhindered : Prop where
  fits : ∀ i < call.total, (call.frame env c i).Fits env
  nackFits : call.NacksFit env srv c call.total
  nackLoads : ∀ i < call.total, call.Altered env c i →
    env.handoverNack.Keeps (call.nackOf env srv c i)
  initLoads : env.handoverInit.Keeps (call.initPayload (env.clientTimeNs c))
  fin : ¬ call.Altered env c (call.sessions.length + 1)

/-- What the handler is after `r` frames, and the bytes it has replied. Where
`ok` holds it ends only when its work is done, or the acknowledgement is too
long for a frame. -/
inductive Served (ok : Prop) (x : ServerHandler) (r : ℕ) (out : Bytes) : Prop
  | absent (hp : x.point = .absent) (hr : r = 0) (hs : x.sessionsInFlight = [])
    (hi : x.invocations = []) (ho : out = [])
  | serving (hp : x.point = .reading ∨ x.point = .replied)
    (hs : x.sessionsInFlight = call.ingested env c r) (hi : x.invocations = [])
    (ho : out = call.nacks env srv c r) (hn : call.NacksFit env srv c r)
    (hr : r = call.total → call.Altered env c (call.sessions.length + 1))
  | gathering (hp : x.point = .gathering) (hs : x.sessionsInFlight = call.ingested env c r)
    (hi : x.invocations = call.calls env srv c) (ho : out = call.nacks env srv c r)
    (hn : call.NacksFit env srv c r) (hr : call.Finished env c r)
  | acked (hp : x.point = .acked ∨ x.point = .closed) (hi : x.invocations = call.calls env srv c)
    (ho : out = call.nacks env srv c call.total ++ call.ackBytes env srv c)
    (hn : call.NacksFit env srv c r) (hr : call.Finished env c r) (ha : call.AckFits env srv c)
  | dead (hp : x.point = .closed)
    (hi : x.invocations = [] ∨ x.invocations = call.calls env srv c ∧
      call.Finished env c r ∧ call.NacksFit env srv c r)
    (ho : ∃ j ≤ r, out = call.nacks env srv c j ∧ call.NacksFit env srv c j)
    (why : ok → x.invocations = call.calls env srv c ∧ ¬ call.AckFits env srv c ∧
      out = call.nacks env srv c call.total)

section
variable {env : P2PEnv} {srv : P2PServer} {c : ℕ} {call : SendSessions} {ok : Prop}
  {x : ServerHandler} {r : ℕ} {out : Bytes}

theorem Served.of_absent (h : call.Served env srv c ok x r out) (hp : x.point = .absent) :
    r = 0 ∧ x.sessionsInFlight = [] ∧ x.invocations = [] ∧ out = [] := by
  cases h with
  | absent _ hr hs hi ho => exact ⟨hr, hs, hi, ho⟩
  | serving hp' | acked hp' => rcases hp' with hp' | hp' <;> rw [hp] at hp' <;> cases hp'
  | gathering hp' | dead hp' => rw [hp] at hp'; cases hp'

theorem Served.of_serving (h : call.Served env srv c ok x r out)
    (hp : x.point = .reading ∨ x.point = .replied) :
    x.sessionsInFlight = call.ingested env c r ∧ x.invocations = [] ∧
      out = call.nacks env srv c r ∧ call.NacksFit env srv c r ∧
      (r = call.total → call.Altered env c (call.sessions.length + 1)) := by
  cases h with
  | serving _ hs hi ho hn hr => exact ⟨hs, hi, ho, hn, hr⟩
  | acked hp' => rcases hp with hp | hp <;> rcases hp' with hp' | hp' <;> rw [hp] at hp' <;> cases hp'
  | absent hp' | gathering hp' | dead hp' => rcases hp with hp | hp <;> rw [hp] at hp' <;> cases hp'

theorem Served.of_gathering (h : call.Served env srv c ok x r out) (hp : x.point = .gathering) :
    x.sessionsInFlight = call.ingested env c r ∧ x.invocations = call.calls env srv c ∧
      out = call.nacks env srv c r ∧ call.NacksFit env srv c r ∧ call.Finished env c r := by
  cases h with
  | gathering _ hs hi ho hn hr => exact ⟨hs, hi, ho, hn, hr⟩
  | serving hp' | acked hp' => rcases hp' with hp' | hp' <;> rw [hp] at hp' <;> cases hp'
  | absent hp' | dead hp' => rw [hp] at hp'; cases hp'

theorem Served.of_acked (h : call.Served env srv c ok x r out) (hp : x.point = .acked) :
    x.invocations = call.calls env srv c ∧
      out = call.nacks env srv c call.total ++ call.ackBytes env srv c ∧
      call.NacksFit env srv c r ∧ call.Finished env c r ∧ call.AckFits env srv c := by
  cases h with
  | acked _ hi ho hn hr ha => exact ⟨hi, ho, hn, hr, ha⟩
  | serving hp' => rcases hp' with hp' | hp' <;> rw [hp] at hp' <;> cases hp'
  | absent hp' | gathering hp' | dead hp' => rw [hp] at hp'; cases hp'

end

end SendSessions

/-- The exception of a sender that reads a HANDOVER_NACK. -/
def Rejected (e : Exc) : Prop := ∃ msg, e = .crc32VerificationError (rejectedText ++ msg)

open SendSessions

/-- The connection `k` in the middle of the handover of `call`. -/
structure Handover (env : P2PEnv) (srv : P2PServer) (c : ℕ) (call : SendSessions) (ok : Prop)
    (k : P2PConn) (w r : ℕ) (out : Bytes) : Prop where
  call_eq : k.call = call
  written : call.Written k.client w
  fits : ∀ i < w, (call.frame env c i).Fits env
  read_le : r ≤ w
  framesRead : k.handler.framesRead = r
  inbox : k.toServer = (List.range' r (w - r)).flatMap fun i => (call.frame env c i).wire env c
  served : call.Served env srv c ok k.handler r out
  outbox : k.client.ended = false → k.toClient = out
  returned : ∀ ack, k.client = .returned ack →
    (∀ i < call.total, ¬ call.Altered env c i) ∧ ack = call.ackOf env srv c ∧
      call.AckFits env srv c ∧ k.handler.invocations = call.calls env srv c ∧
      (k.handler.point = .acked ∨ k.handler.point = .closed)
  raised : ∀ e, k.client = .raised e →
    (Rejected e → ∃ i < call.total, call.Altered env c i) ∧
    (ok → w = call.total ∧ (Rejected e ∨
      (∀ i < call.total, ¬ call.Altered env c i) ∧ ¬ call.AckFits env srv c))

section
variable {env : P2PEnv} {srv : P2PServer} {c : ℕ} {call : SendSessions} {ok : Prop}
  {k : P2PConn} {w r : ℕ} {out : Bytes}

theorem SendSessions.Written.le (h : call.Written k.client w) : w ≤ call.total := by
  unfold total
  cases hc : k.client <;> rw [hc] at h <;> simp only [Written, total] at h <;> omega

theorem not_rejected_of_ne {e : Exc} (h : ∀ msg, e ≠ .crc32VerificationError msg) : ¬ Rejected e :=
  fun ⟨_, he⟩ => h _ he

/-! ### The sender -/

theorem ClientPoint.ne_of_not_ended {point : ClientPoint} (h : point.ended = false) :
    (∀ ack, point ≠ .returned ack) ∧ ∀ e, point ≠ .raised e := by
  constructor <;> intro x he <;> rw [he] at h <;> cases h

/-- Before anything has happened. -/
theorem handover_new : Handover env srv c call ok { call := call, client := .connecting } 0 0 [] where
  call_eq := rfl
  written := rfl
  fits := fun i hi => by omega
  read_le := le_refl 0
  framesRead := rfl
  inbox := rfl
  served := .absent rfl rfl rfl rfl rfl
  outbox := fun _ => rfl
  returned := fun _ h => by cases h
  raised := fun _ h => by cases h

/-- The sender moves to another point where it is not done. -/
theorem Handover.goto (h : Handover env srv c call ok k w r out) {point : ClientPoint}
    (hw : call.Written point w) (hk : k.client.ended = false) (hp : point.ended = false) :
    Handover env srv c call ok { k with client := point } w r out where
  call_eq := h.call_eq
  written := hw
  fits := h.fits
  read_le := h.read_le
  framesRead := h.framesRead
  inbox := h.inbox
  served := h.served
  outbox := fun _ => h.outbox hk
  returned := fun ack he => absurd he ((ClientPoint.ne_of_not_ended hp).1 ack)
  raised := fun e he => absurd he ((ClientPoint.ne_of_not_ended hp).2 e)

/-- The sender raises. -/
theorem Handover.raise (h : Handover env srv c call ok k w r out) {e : Exc} {rest : Bytes}
    (hr : Rejected e → ∃ i < call.total, call.Altered env c i)
    (hok : ok → w = call.total ∧ (Rejected e ∨
      (∀ i < call.total, ¬ call.Altered env c i) ∧ ¬ call.AckFits env srv c)) :
    Handover env srv c call ok { k with toClient := rest, client := .raised e } w r out where
  call_eq := h.call_eq
  written := h.written.le
  fits := h.fits
  read_le := h.read_le
  framesRead := h.framesRead
  inbox := h.inbox
  served := h.served
  outbox := fun he => by cases he
  returned := fun _ he => by cases he
  raised := fun e' he => by
    obtain rfl : e = e' := by simpa using he
    exact ⟨hr, hok⟩

/-- The sender writes the next frame, if it is within the limit. -/
theorem Handover.write (h : Handover env srv c call ok k w r out) {next : ClientPoint}
    (hk : k.client.ended = false) (hw : w < call.total) (hnext : call.Written next (w + 1))
    (hp : next.ended = false) (hok : ok → (call.frame env c w).Fits env) {o : Outgoing}
    (ho : call.frame env c w = o) :
    ∃ w', Handover env srv c call ok
      (k.write env c o.key o.msgType o.payload o.flags o.compress next) w' r out := by
  have hsmall : o.Small := ho ▸ small_frame w
  by_cases hf : o.Fits env
  · refine ⟨w + 1, ?_⟩
    have hle := h.read_le
    have hwrite : k.write env c o.key o.msgType o.payload o.flags o.compress next =
        { k with toServer := k.toServer ++ o.wire env c, client := next } := by
      rw [P2PConn.write, Outgoing.pack_of_fits hsmall hf]
      rfl
    have hrange : List.range' r (w + 1 - r) = List.range' r (w - r) ++ [w] := by
      rw [show w + 1 - r = (w - r) + 1 by omega, List.range'_concat]
      congr 2
      omega
    rw [hwrite]
    exact {
      call_eq := h.call_eq
      written := hnext
      fits := fun i hi => by
        rcases Nat.lt_succ_iff_lt_or_eq.mp hi with hi | rfl
        · exact h.fits i hi
        · rwa [ho]
      read_le := by omega
      framesRead := h.framesRead
      inbox := by
        simp only [h.inbox, hrange, List.flatMap_append, List.flatMap_singleton, ho]
      served := h.served
      outbox := fun _ => h.outbox hk
      returned := fun ack he => absurd he ((ClientPoint.ne_of_not_ended hp).1 ack)
      raised := fun e he => absurd he ((ClientPoint.ne_of_not_ended hp).2 e) }
  · obtain ⟨msg, he⟩ := Outgoing.pack_of_not_fits (o := o) hf
    have hwrite : k.write env c o.key o.msgType o.payload o.flags o.compress next =
        { k with toClient := k.toClient, client := .raised (.valueError msg) } := by
      rw [P2PConn.write, he]
      rfl
    rw [hwrite]
    exact ⟨w, h.raise (fun hrej => absurd hrej (not_rejected_of_ne fun _ hne => by cases hne))
      fun hk => absurd (ho ▸ hok hk) hf⟩

/-- Written after the first `idx` sessions. -/
theorem SendSessions.written_nextState {idx : ℕ} (h : idx ≤ call.sessions.length) :
    call.Written (call.nextState idx) (idx + 1) ∧ (call.nextState idx).ended = false := by
  unfold nextState
  split
  · exact ⟨⟨rfl, by assumption, rfl⟩, rfl⟩
  · have : idx = call.sessions.length := by omega
    exact ⟨by simp only [Written, this], rfl⟩

/-- The sender reads the answer to an altered frame. -/
theorem Handover.readNack (h : Handover env srv c call ok k w r out) (hk : k.client = .awaitReply)
    (hok : ok → call.Unhindered env srv c) {i : ℕ} (hi : i < call.total)
    (ha : call.Altered env c i) (hf : call.NackFits env srv c i) {rest : Bytes}
    (ho : k.toClient = call.nackBytes env srv c i ++ rest) {k' : P2PConn}
    (hs : k.readReply env = some k') : Handover env srv c call ok k' w r out := by
  have hw : w = call.total := by
    have := h.written
    rwa [hk] at this
  obtain ⟨flags, hread⟩ : ∃ flags, readFrameAsync env.zlib (call.nackBytes env srv c i ++ rest) =
      .frame MessageType.handoverNack flags
        (env.handoverNack.dump (call.nackOf env srv c i)) rest :=
    read_reply (by decide) hf rest
  unfold P2PConn.readReply at hs
  rw [ho, hread] at hs
  obtain rfl := (Option.some.inj hs).symm
  cases hload : env.handoverNack.load (env.handoverNack.dump (call.nackOf env srv c i)) with
  | ok nack =>
    have hout : P2PConn.outcome env MessageType.handoverNack
        (env.handoverNack.dump (call.nackOf env srv c i)) =
        .raised (.crc32VerificationError (rejectedText ++ nack.errorMessage)) := by
      simp [P2PConn.outcome, hload, MessageType.handoverNack, MessageType.handoverAck]
    simp only [hout]
    exact h.raise (fun _ => ⟨i, hi, ha⟩) fun _ => ⟨hw, Or.inl ⟨_, rfl⟩⟩
  | error e =>
    have hout : P2PConn.outcome env MessageType.handoverNack
        (env.handoverNack.dump (call.nackOf env srv c i)) = .raised e := by
      simp [P2PConn.outcome, hload, MessageType.handoverNack, MessageType.handoverAck]
    simp only [hout]
    refine h.raise (fun _ => ⟨i, hi, ha⟩) fun hk => ?_
    have hkeeps := (hok hk).nackLoads i hi ha
    rw [Codec.Keeps, hload] at hkeeps
    cases hkeeps

theorem SendSessions.nacks_ne_nil {i : ℕ} (hi : i < r) (ha : call.Altered env c i) :
    call.nacks env srv c r ≠ [] := by
  obtain ⟨j, -, -, rest, he⟩ := nacks_head srv ⟨i, hi, ha⟩
  rw [he]
  intro hnil
  have := congrArg List.length hnil
  simp [nackBytes, replyBytes, headerSize] at this

/-- The sender reads the acknowledgement: nothing was altered. -/
theorem Handover.readAck (h : Handover env srv c call ok k w r out) (hk : k.client = .awaitReply)
    (hl : call.Loads env srv c) (hp : k.handler.point = .acked ∨ k.handler.point = .closed)
    (hi : k.handler.invocations = call.calls env srv c) (hf : call.AckFits env srv c)
    (ha : ∀ i < call.total, ¬ call.Altered env c i)
    (ho : k.toClient = call.ackBytes env srv c) {k' : P2PConn}
    (hs : k.readReply env = some k') : Handover env srv c call ok k' w r out := by
  obtain ⟨flags, hread⟩ : ∃ flags, readFrameAsync env.zlib (call.ackBytes env srv c ++ []) =
      .frame MessageType.handoverAck flags (env.handoverAck.dump (call.ackOf env srv c)) [] :=
    read_reply (by decide) hf []
  have hall : call.ackOf env srv c = srv.ack (env.serverTimeNs c call.total) call.sessions := by
    rw [ackOf, ingested_eq_iff.mpr fun i hi => ha (i + 1) (by rw [total]; omega)]
  have hload : env.handoverAck.load (env.handoverAck.dump (call.ackOf env srv c)) =
      .ok (call.ackOf env srv c) := by
    rw [hall]
    exact hl.ack
  unfold P2PConn.readReply at hs
  rw [ho, ← List.append_nil (call.ackBytes env srv c), hread] at hs
  obtain rfl := (Option.some.inj hs).symm
  have hout : P2PConn.outcome env MessageType.handoverAck
      (env.handoverAck.dump (call.ackOf env srv c)) = .returned (call.ackOf env srv c) := by
    simp only [P2PConn.outcome, if_true, hload]
  simp only [hout]
  exact {
    call_eq := h.call_eq
    written := by
      have := h.written
      rwa [hk] at this
    fits := h.fits
    read_le := h.read_le
    framesRead := h.framesRead
    inbox := h.inbox
    served := h.served
    outbox := fun he => by cases he
    returned := fun ack he => by
      obtain rfl : call.ackOf env srv c = ack := by simpa using he
      exact ⟨ha, rfl, hf, hi, hp⟩
    raised := fun e he => by cases he }

/-- The sender finds nothing to read. -/
theorem Handover.readNothing (h : Handover env srv c call ok k w r out)
    (hk : k.client = .awaitReply) (ho : k.toClient = [])
    (hok : ok → k.handler.point = .closed →
      (∀ i < call.total, ¬ call.Altered env c i) ∧ ¬ call.AckFits env srv c)
    {k' : P2PConn} (hs : k.readReply env = some k') :
    k.handler.point = .closed ∧ Handover env srv c call ok k' w r out := by
  have hw : w = call.total := by
    have := h.written
    rwa [hk] at this
  unfold P2PConn.readReply at hs
  rw [ho, readFrameAsync_nil] at hs
  simp only at hs
  split at hs
  · rename_i hc
    obtain rfl := Option.some.inj hs
    refine ⟨hc, h.raise (fun hrej => absurd hrej (not_rejected_of_ne fun _ hne => by cases hne))
      fun hk => ⟨hw, Or.inr (hok hk hc)⟩⟩
  · cases hs

/-- What the sender makes of the reply, whatever has happened. -/
theorem Handover.readReply (h : Handover env srv c call ok k w r out)
    (hk : k.client = .awaitReply) (hl : call.Loads env srv c)
    (hok : ok → call.Unhindered env srv c) {k' : P2PConn} (hs : k.readReply env = some k') :
    Handover env srv c call ok k' w r out := by
  have hout : k.toClient = out := h.outbox (by rw [hk]; rfl)
  -- an altered frame among the first `j` is what the first reply is about
  have hnack : ∀ j ≤ r, call.NacksFit env srv c j → (∃ i < j, call.Altered env c i) →
      ∀ tail, out = call.nacks env srv c j ++ tail → Handover env srv c call ok k' w r out := by
    intro j hj hn ha tail ho
    obtain ⟨i, hi, hai, rest, he⟩ := nacks_head srv ha
    have hr := h.read_le
    have hw := h.written.le
    exact h.readNack hk hok (by omega) hai (hn i hi hai)
      (by rw [hout, ho, he, List.append_assoc]) hs
  have hquiet : ∀ j ≤ r, call.NacksFit env srv c j → out = call.nacks env srv c j →
      (ok → k.handler.point = .closed →
        call.AckFits env srv c → False) →
      (ok → k.handler.point = .closed → out = call.nacks env srv c call.total) →
      Handover env srv c call ok k' w r out := by
    intro j hj hn ho hfit hall
    by_cases ha : ∃ i < j, call.Altered env c i
    · exact hnack j hj hn ha [] (by rw [ho, List.append_nil])
    · have hnil : out = [] := by
        rw [ho]
        exact nacks_of_intact fun i hi hai => ha ⟨i, hi, hai⟩
      refine (h.readNothing hk (hout.trans hnil) (fun hk hp => ⟨fun i hi hai => ?_, ?_⟩) hs).2
      · exact nacks_ne_nil hi hai ((hall hk hp).symm.trans hnil)
      · exact hfit hk hp
  cases h.served with
  | absent hp hr hs hi ho =>
    exact hquiet 0 (Nat.zero_le r) (fun i hi => by omega) ho
      (fun _ hc => by rw [hp] at hc; cases hc) fun _ hc => by rw [hp] at hc; cases hc
  | serving hp hs hi ho hn hr =>
    have hne : k.handler.point ≠ .closed := by rcases hp with hp | hp <;> rw [hp] <;> decide
    exact hquiet r (le_refl r) hn ho (fun _ hc => absurd hc hne) fun _ hc => absurd hc hne
  | gathering hp hs hi ho hn hr =>
    have hne : k.handler.point ≠ .closed := by rw [hp]; decide
    exact hquiet r (le_refl r) hn ho (fun _ hc => absurd hc hne) fun _ hc => absurd hc hne
  | acked hp hi ho hn hr ha =>
    by_cases hal : ∃ i < call.total, call.Altered env c i
    · exact hnack call.total (le_of_eq hr.all.symm) (hr.all ▸ hn) hal _ ho
    · have hall : ∀ i < call.total, ¬ call.Altered env c i := fun i hi hai => hal ⟨i, hi, hai⟩
      refine h.readAck hk hl hp hi ha hall ?_ hs
      rw [hout, ho, nacks_of_intact hall, List.nil_append]
  | dead hp hi ho why =>
    obtain ⟨j, hj, ho, hn⟩ := ho
    exact hquiet j hj hn ho (fun hk _ => (why hk).2.1) fun hk _ => (why hk).2.2

/-- A step of the sender. -/
theorem Handover.clientStep (h : Handover env srv c call ok k w r out)
    (hl : call.Loads env srv c) (hok : ok → call.Unhindered env srv c) {k' : P2PConn}
    (hs : k.clientStep env c = some k') :
    ∃ w', Handover env srv c call ok k' w' r out := by
  have hw := h.written
  have hfits : w < call.total → ok → (call.frame env c w).Fits env :=
    fun hlt hk => (hok hk).fits w hlt
  unfold P2PConn.clientStep at hs
  cases hk : k.client with
  | sendInit =>
    rw [hk] at hs hw
    obtain rfl : w = 0 := hw
    obtain rfl := Option.some.inj hs
    have hnext := written_nextState (Nat.zero_le call.sessions.length)
    have hlt : 0 < call.total := by rw [total]; omega
    rw [h.call_eq]
    exact h.write (by rw [hk]; rfl) hlt hnext.1 hnext.2 (hfits hlt) rfl
  | sendState idx attempt =>
    rw [hk] at hs hw
    obtain ⟨rfl, hi, rfl⟩ := hw
    have hnext := written_nextState (show idx + 1 ≤ call.sessions.length from hi)
    have hlt : idx + 1 < call.total := by rw [total]; omega
    simp only [P2PConn.sendState, h.call_eq, List.getElem?_eq_getElem hi, Option.map_some] at hs
    rw [if_pos (by decide)] at hs
    obtain rfl := Option.some.inj hs
    exact h.write (by rw [hk]; rfl) hlt hnext.1 hnext.2 (hfits hlt) (frame_state hi)
  | sendFin =>
    rw [hk] at hs hw
    obtain rfl : w = call.sessions.length + 1 := hw
    obtain rfl := Option.some.inj hs
    have hlt : call.sessions.length + 1 < call.total := by rw [total]; omega
    have hnext : call.Written .awaitReply (call.sessions.length + 1 + 1) := rfl
    have hfin : call.frame env c (call.sessions.length + 1) =
        ⟨.handoverFin, MessageType.handoverFin, finPayload, FrameFlags.none, false, []⟩ := frame_fin
    have hwrite := h.write (by rw [hk]; rfl) hlt hnext rfl (hfits hlt) hfin
    exact hwrite
  | awaitReply =>
    rw [hk] at hs
    exact ⟨w, h.readReply hk hl hok hs⟩
  | _ => rw [hk] at hs; cases hs

/-! ### The handler -/

theorem P2PServer.SameAs.nack_eq {s t : P2PServer} (h : s.SameAs t) (now : ℤ) (crcErr : String) :
    s.nack now crcErr = t.nack now crcErr := by
  simp only [P2PServer.nack, h.nodeId]

theorem P2PServer.SameAs.ack_eq {s t : P2PServer} (h : s.SameAs t) (now : ℤ)
    (sessions : List InferenceSession) : s.ack now sessions = t.ack now sessions := by
  simp only [P2PServer.ack, h.nodeId, h.resumePort]

/-- The handler moves on, before it has acknowledged. -/
theorem Handover.serveTo (h : Handover env srv c call ok k w r out)
    (hp : k.handler.point ≠ .acked ∧ k.handler.point ≠ .closed) {k' : P2PConn} {r' : ℕ}
    {out' : Bytes} (hcall : k'.call = k.call) (hclient : k'.client = k.client)
    (hread : k'.handler.framesRead = r') (hle : r' ≤ w)
    (hin : k'.toServer = (List.range' r' (w - r')).flatMap fun i => (call.frame env c i).wire env c)
    (hs : call.Served env srv c ok k'.handler r' out')
    (hout : k.client.ended = false → k'.toClient = out') :
    Handover env srv c call ok k' w r' out' where
  call_eq := hcall.trans h.call_eq
  written := hclient ▸ h.written
  fits := h.fits
  read_le := hle
  framesRead := hread
  inbox := hin
  served := hs
  outbox := fun he => hout (hclient ▸ he)
  returned := fun ack he => by
    rcases (h.returned ack (hclient ▸ he)).2.2.2.2 with hp' | hp'
    · exact absurd hp' hp.1
    · exact absurd hp' hp.2
  raised := fun e he => h.raised e (hclient ▸ he)

/-- The handler ends before its work is done. -/
theorem Handover.die (h : Handover env srv c call ok k w r out) (hok : ¬ ok) :
    Handover env srv c call ok (k.serveAt .closed) w r out where
  call_eq := h.call_eq
  written := h.written
  fits := h.fits
  read_le := h.read_le
  framesRead := h.framesRead
  inbox := h.inbox
  served := by
    cases h.served with
    | absent hp hr hs hi ho =>
      exact .dead rfl (Or.inl hi) ⟨0, Nat.zero_le r, ho, fun i hi => by omega⟩
        fun hk => absurd hk hok
    | serving hp hs hi ho hn hr =>
      exact .dead rfl (Or.inl hi) ⟨r, le_refl r, ho, hn⟩ fun hk => absurd hk hok
    | gathering hp hs hi ho hn hr =>
      exact .dead rfl (Or.inr ⟨hi, hr, hn⟩) ⟨r, le_refl r, ho, hn⟩ fun hk => absurd hk hok
    | acked hp hi ho hn hr ha => exact .acked (Or.inr rfl) hi ho hn hr ha
    | dead hp hi ho why => exact .dead rfl hi ho fun hk => absurd hk hok
  outbox := h.outbox
  returned := fun ack he => by
    obtain ⟨ha, he, hf, hi, -⟩ := h.returned ack he
    exact ⟨ha, he, hf, hi, Or.inr rfl⟩
  raised := h.raised

/-- At the head of the loop. -/
theorem SendSessions.served_loop {server : P2PServer} {x : ServerHandler}
    (hp : x.point = server.loop) (hs : x.sessionsInFlight = call.ingested env c r)
    (hi : x.invocations = []) (hn : call.NacksFit env srv c r)
    (hr : r = call.total → call.Altered env c (call.sessions.length + 1))
    (hok : ok → server.running = true) :
    call.Served env srv c ok x r (call.nacks env srv c r) := by
  unfold P2PServer.loop at hp
  split at hp
  · exact .serving (Or.inl hp) hs hi rfl hn hr
  · rename_i hrun
    exact .dead hp (Or.inl hi) ⟨r, le_refl r, rfl, hn⟩ fun hk => absurd (hok hk) hrun

/-- The frame that is read next, while there is one. -/
theorem Handover.inbox_cons (h : Handover env srv c call ok k w r out) (hr : r < w) :
    k.toServer = (call.frame env c r).wire env c ++
      (List.range' (r + 1) (w - (r + 1))).flatMap fun i => (call.frame env c i).wire env c := by
  rw [h.inbox, show w - r = (w - (r + 1)) + 1 by omega, List.range'_succ, List.flatMap_cons]

/-- The acknowledgement is sent, if it is within the limit. -/
theorem Handover.acknowledge (h : Handover env srv c call ok k w r out) {server : P2PServer}
    (hsame : server.SameAs srv) {k' : P2PConn} {r' : ℕ} {out' : Bytes}
    (hp : k.handler.point ≠ .acked ∧ k.handler.point ≠ .closed) (hcall : k'.call = k.call)
    (hclient : k'.client = k.client) (hread : k'.handler.framesRead = r') (hle : r' ≤ w)
    (hin : k'.toServer = (List.range' r' (w - r')).flatMap fun i => (call.frame env c i).wire env c)
    (hout : k.client.ended = false → k'.toClient = out')
    (hs : k'.handler.sessionsInFlight = call.ingested env c r')
    (hi : k'.handler.invocations = call.calls env srv c) (ho : out' = call.nacks env srv c r')
    (hn : call.NacksFit env srv c r') (hr : call.Finished env c r') :
    ∃ out'', Handover env srv c call ok (k'.acknowledge env c server) w r' out'' := by
  have hack : server.ack (env.serverTimeNs c k'.handler.framesRead) k'.handler.sessionsInFlight =
      call.ackOf env srv c := by
    rw [hsame.ack_eq, hs, hread, hr.all, ackOf]
  rw [hr.all] at ho
  unfold P2PConn.acknowledge P2PConn.reply
  rw [hack]
  by_cases hf : call.AckFits env srv c
  · rw [packFrame_reply (by decide) hf]
    exact ⟨out' ++ call.ackBytes env srv c, h.serveTo hp hcall hclient hread hle hin
      (.acked (Or.inl rfl) hi (by rw [ho]) hn hr hf) fun he => by simp only [hout he, ackBytes]⟩
  · obtain ⟨e, he⟩ : ∃ e, packFrame env.zlib MessageType.handoverAck
        (env.handoverAck.dump (call.ackOf env srv c)) FrameFlags.none protocolVersion false =
          .error e := packFrame_reply_too_long hf
    rw [he]
    refine ⟨out', h.serveTo hp hcall hclient hread hle hin
      (.dead rfl (Or.inr ⟨hi, hr, hn⟩) ⟨r', le_refl r', by rw [ho, hr.all], hn⟩
        fun _ => ⟨hi, hf, ho⟩) hout⟩

/-- The handler reads an altered frame. -/
theorem Handover.readAltered (h : Handover env srv c call ok k w r out) {server : P2PServer}
    (hsame : server.SameAs srv) (hp : k.handler.point = .reading) (hr : r < w)
    (ha : call.Altered env c r) (hok : ok → call.Unhindered env srv c)
    (hs : k.handler.sessionsInFlight = call.ingested env c r) (hi : k.handler.invocations = [])
    (ho : out = call.nacks env srv c r) (hn : call.NacksFit env srv c r) :
    ∃ out', Handover env srv c call ok
      ((k.readOff ((List.range' (r + 1) (w - (r + 1))).flatMap
        fun i => (call.frame env c i).wire env c)).sendNack env c server
          ((call.frame env c r).mismatch env c)) w (r + 1) out' := by
  have hne : k.handler.point ≠ .acked ∧ k.handler.point ≠ .closed := by
    rw [hp]
    exact ⟨by decide, by decide⟩
  have hread : k.handler.framesRead + 1 = r + 1 := by rw [h.framesRead]
  have hnack : server.nack (env.serverTimeNs c (k.handler.framesRead + 1))
      ((call.frame env c r).mismatch env c) = call.nackOf env srv c r := by
    rw [hsame.nack_eq, hread, nackOf]
  have hfin : r + 1 = call.total → call.Altered env c (call.sessions.length + 1) := by
    intro he
    rw [total] at he
    obtain rfl : r = call.sessions.length + 1 := by omega
    exact ha
  have hing : call.ingested env c (r + 1) = call.ingested env c r := by
    rw [ingested_succ, if_pos ha, List.append_nil]
  unfold P2PConn.sendNack P2PConn.reply P2PConn.readOff
  simp only [hnack]
  by_cases hf : call.NackFits env srv c r
  · rw [packFrame_reply (by decide) hf]
    have hn' : call.NacksFit env srv c (r + 1) := by
      intro i hlt hai
      rcases Nat.lt_succ_iff_lt_or_eq.mp hlt with hlt | rfl
      · exact hn i hlt hai
      · exact hf
    exact ⟨_, h.serveTo hne rfl rfl hread hr rfl
      (.serving (Or.inr rfl) (hs.trans hing.symm) hi rfl hn' hfin)
      fun he => by
        rw [nacks_succ, if_pos ha, ← ho, ← h.outbox he]
        rfl⟩
  · obtain ⟨e, he⟩ : ∃ e, packFrame env.zlib MessageType.handoverNack
        (env.handoverNack.dump (call.nackOf env srv c r)) FrameFlags.none protocolVersion false =
          .error e := packFrame_reply_too_long hf
    rw [he]
    have hw := h.written.le
    exact ⟨out, h.serveTo hne rfl rfl hread hr rfl
      (.dead rfl (Or.inl hi) ⟨r, by omega, ho, hn⟩
        fun hk => absurd ((hok hk).nackFits r (by omega) ha) hf) h.outbox⟩

/-- The callbacks are called with what has been ingested at the HANDOVER_FIN. -/
theorem SendSessions.calls_of_fin (env : P2PEnv) (c : ℕ) (call : SendSessions)
    {server : P2PServer} (hsame : server.SameAs srv) :
    call.calls env srv c =
      if call.ingested env c (call.sessions.length + 1) = [] then []
      else server.sessionCallbacks.map (·, call.ingested env c (call.sessions.length + 1)) := by
  rw [calls, P2PServer.callsFor, ingested_total, hsame.sessionCallbacks]

/-- The handler reads the HANDOVER_FIN, and it arrived intact. -/
theorem Handover.readFin {p : P2P}
    (h : Handover env srv c call ok (p.conns c) w (call.sessions.length + 1) out)
    (hsame : p.server.SameAs srv) (hp : (p.conns c).handler.point = .reading)
    (hr : call.sessions.length + 1 < w) (ha : ¬ call.Altered env c (call.sessions.length + 1))
    (hs : (p.conns c).handler.sessionsInFlight = call.ingested env c (call.sessions.length + 1 + 1))
    (hi : (p.conns c).handler.invocations = [])
    (ho : out = call.nacks env srv c (call.sessions.length + 1 + 1))
    (hn : call.NacksFit env srv c (call.sessions.length + 1 + 1)) :
    ∃ out', Handover env srv c call ok ((p.handleFrame env c
      ((p.conns c).readOff ((List.range' (call.sessions.length + 1 + 1)
        (w - (call.sessions.length + 1 + 1))).flatMap fun i => (call.frame env c i).wire env c))
      (call.frame env c (call.sessions.length + 1)).msgType
      (call.frame env c (call.sessions.length + 1)).payload).conns c) w
        (call.sessions.length + 1 + 1) out' := by
  have hne : (p.conns c).handler.point ≠ .acked ∧ (p.conns c).handler.point ≠ .closed := by
    rw [hp]
    exact ⟨by decide, by decide⟩
  have hread : (p.conns c).handler.framesRead + 1 = call.sessions.length + 1 + 1 := by
    rw [h.framesRead]
  have hfinished : call.Finished env c (call.sessions.length + 1 + 1) := ⟨rfl, ha⟩
  have hing : call.ingested env c (call.sessions.length + 1 + 1) =
      call.ingested env c (call.sessions.length + 1) := by
    rw [ingested_succ, if_neg ha, frame_fin, List.append_nil]
  have hcalls := calls_of_fin env c call hsame
  rw [frame_fin]
  unfold P2P.handleFrame
  simp only [show MessageType.handoverFin ≠ MessageType.handoverInit by decide,
    show MessageType.handoverFin ≠ MessageType.requestState by decide, if_false, if_true]
  split
  · rename_i hcb
    have hsess : call.ingested env c (call.sessions.length + 1) ≠ [] := by
      rw [← hing, ← hs]
      exact hcb.2
    rw [P2P.put_self]
    refine ⟨out, h.serveTo hne rfl rfl hread hr rfl (.gathering rfl hs ?_ ho hn hfinished) h.outbox⟩
    rw [hcalls, if_neg hsess]
    simp only [P2PConn.readOff, hi, hs, hing, List.nil_append]
  · rename_i hcb
    have hnone : call.calls env srv c = [] := by
      rw [hcalls]
      by_cases hnil : call.ingested env c (call.sessions.length + 1) = []
      · rw [if_pos hnil]
      · have hcbs : p.server.sessionCallbacks = [] := by
          by_contra hne'
          rw [← hing, ← hs] at hnil
          exact hcb ⟨hne', hnil⟩
        rw [if_neg hnil, hcbs, List.map_nil]
    rw [P2P.put_self]
    exact h.acknowledge hsame hne rfl rfl hread hr rfl h.outbox hs (hi.trans hnone.symm) ho hn
      hfinished

/-- The handler reads a frame that arrived intact. -/
theorem Handover.readIntact {p : P2P} (h : Handover env srv c call ok (p.conns c) w r out)
    (hsame : p.server.SameAs srv) (hp : (p.conns c).handler.point = .reading) (hr : r < w)
    (ha : ¬ call.Altered env c r) (hl : call.Loads env srv c)
    (hok : ok → call.Unhindered env srv c ∧ p.server.running = true)
    (hs : (p.conns c).handler.sessionsInFlight = call.ingested env c r)
    (hi : (p.conns c).handler.invocations = []) (ho : out = call.nacks env srv c r)
    (hn : call.NacksFit env srv c r) :
    ∃ out', Handover env srv c call ok ((p.handleFrame env c
      ((p.conns c).readOff ((List.range' (r + 1) (w - (r + 1))).flatMap
        fun i => (call.frame env c i).wire env c))
      (call.frame env c r).msgType (call.frame env c r).payload).conns c) w (r + 1) out' := by
  have hne : (p.conns c).handler.point ≠ .acked ∧ (p.conns c).handler.point ≠ .closed := by
    rw [hp]
    exact ⟨by decide, by decide⟩
  have hread : (p.conns c).handler.framesRead + 1 = r + 1 := by rw [h.framesRead]
  have hw := h.written.le
  have hn' : call.NacksFit env srv c (r + 1) := by
    intro i hlt hai
    rcases Nat.lt_succ_iff_lt_or_eq.mp hlt with hlt | rfl
    · exact hn i hlt hai
    · exact absurd hai ha
  have ho' : out = call.nacks env srv c (r + 1) := by
    rw [nacks_succ, if_neg ha, List.append_nil, ho]
  have hing : call.ingested env c (r + 1) =
      call.ingested env c r ++ (call.frame env c r).carried := by
    rw [ingested_succ, if_neg ha]
  have hrun : ok → p.server.running = true := fun hk => (hok hk).2
  cases r with
  | zero =>
    have hfin : 0 + 1 = call.total → call.Altered env c (call.sessions.length + 1) := by
      rw [total]
      omega
    have hing1 : call.ingested env c (0 + 1) = call.ingested env c 0 := by
      rw [hing]
      exact List.append_nil _
    simp only [P2P.handleFrame, frame, if_true]
    split
    · rw [P2P.put_self]
      exact ⟨out, h.serveTo hne rfl rfl hread hr rfl
        (ho' ▸ served_loop rfl (hs.trans hing1.symm) hi hn' hfin hrun) h.outbox⟩
    · rename_i e hload
      rw [P2P.put_self]
      refine ⟨out, h.serveTo hne rfl rfl hread hr rfl
        (.dead rfl (Or.inl hi) ⟨_, le_refl _, ho', hn'⟩ fun hk => ?_) h.outbox⟩
      have hkeeps := (hok hk).1.initLoads
      rw [Codec.Keeps, hload] at hkeeps
      cases hkeeps
  | succ i =>
    rcases Nat.lt_or_ge i call.sessions.length with hlt | hge
    · have hload : env.session.load (env.session.dump call.sessions[i]) =
          .ok call.sessions[i] := hl.session _ (List.getElem_mem hlt)
      have hfin : i + 1 + 1 = call.total → call.Altered env c (call.sessions.length + 1) := by
        rw [total]
        omega
      have hing1 : call.ingested env c (i + 1 + 1) =
          call.ingested env c (i + 1) ++ [call.sessions[i]] := by
        rw [hing, frame_state hlt]
      rw [frame_state hlt]
      unfold P2P.handleFrame
      simp only [show MessageType.requestState ≠ MessageType.handoverInit by decide, if_false,
        if_true, hload, P2P.put_self]
      exact ⟨out, h.serveTo hne rfl rfl hread hr rfl
        (ho' ▸ served_loop rfl (by rw [hing1, ← hs]; rfl) hi hn' hfin hrun) h.outbox⟩
    · have hi' : i = call.sessions.length := by
        rw [total] at hw
        omega
      subst hi'
      have hing1 : call.ingested env c (call.sessions.length + 1 + 1) =
          call.ingested env c (call.sessions.length + 1) := by
        rw [hing, frame_fin, List.append_nil]
      exact h.readFin hsame hp hr ha (hs.trans hing1.symm) hi ho' hn'

/-- The handler finds the stream at its end. -/
theorem Handover.eof_not_ok (h : Handover env srv c call ok k w w out)
    (hok : ok → call.Unhindered env srv c) (hk : k.client.ended = true)
    (hp : k.handler.point = .reading)
    (hr : w = call.total → call.Altered env c (call.sessions.length + 1)) : ¬ ok := by
  intro ho
  have hw := h.written
  cases hc : k.client with
  | returned ack =>
    rcases (h.returned ack hc).2.2.2.2 with hp' | hp' <;> rw [hp] at hp' <;> cases hp'
  | raised e => exact (hok ho).fin (hr ((h.raised e hc).2 ho).1)
  | hungUp =>
    rw [hc] at hw
    exact hw
  | _ => rw [hc] at hk; cases hk

/-- An iteration of the loop of the handler. -/
theorem Handover.serve {p q : P2P} (h : Handover env srv c call ok (p.conns c) w r out)
    (hsame : p.server.SameAs srv) (hp : (p.conns c).handler.point = .reading)
    (hl : call.Loads env srv c) (hok : ok → call.Unhindered env srv c ∧ p.server.running = true)
    (hq : p.serve env c = some q) :
    ∃ r' out', Handover env srv c call ok (q.conns c) w r' out' := by
  obtain ⟨hs, hi, ho, hn, hr⟩ := h.served.of_serving (Or.inl hp)
  unfold P2P.serve at hq
  simp only at hq
  rcases Nat.lt_or_ge r w with hlt | hge
  · have hfits := h.fits r hlt
    rw [h.inbox_cons hlt] at hq
    by_cases ha : call.Altered env c r
    · rw [Outgoing.read_wire_altered (small_frame r) hfits ha] at hq
      obtain rfl := Option.some.inj hq
      rw [P2P.put_self]
      exact ⟨r + 1, h.readAltered hsame hp hlt ha (fun hk => (hok hk).1) hs hi ho hn⟩
    · obtain ⟨flags, hread⟩ := Outgoing.read_wire_intact (small_frame r) hfits ha (hl.lossless r)
        ((List.range' (r + 1) (w - (r + 1))).flatMap fun i => (call.frame env c i).wire env c)
      rw [hread] at hq
      obtain rfl := Option.some.inj hq
      exact ⟨r + 1, h.readIntact hsame hp hlt ha hl hok hs hi ho hn⟩
  · obtain rfl : r = w := le_antisymm h.read_le hge
    have hnil : (p.conns c).toServer = [] := by
      rw [h.inbox, Nat.sub_self]
      rfl
    rw [hnil, readFrameAsync_nil] at hq
    simp only at hq
    split at hq
    · rename_i hended
      obtain rfl := Option.some.inj hq
      rw [P2P.put_self]
      exact ⟨r, out, h.die (h.eof_not_ok (fun hk => (hok hk).1) hended hp hr)⟩
    · cases hq

/-! ### Runs -/

/-- The network raises no checksum errors. -/
theorem P2PConn.canFail_crc (point : ClientPoint) (msg : String) :
    P2PConn.canFail point (.crc32VerificationError msg) = false := by
  cases point <;> rfl

/-- A handler that is acked is left. -/
theorem Handover.leave (h : Handover env srv c call ok k w r out)
    (hp : k.handler.point = .acked) : Handover env srv c call ok (k.serveAt .closed) w r out := by
  obtain ⟨hi, ho, hn, hr, ha⟩ := h.served.of_acked hp
  exact { h with
    served := .acked (Or.inr rfl) hi ho hn hr ha
    returned := fun ack he => by
      obtain ⟨h1, h2, h3, h4, -⟩ := h.returned ack he
      exact ⟨h1, h2, h3, h4, Or.inr rfl⟩ }

/-- The handler goes to the head of the loop, where nothing is read yet or after
a reply. -/
theorem Handover.loop (h : Handover env srv c call ok k w r out) {server : P2PServer}
    (hp : k.handler.point = .absent ∨ k.handler.point = .replied)
    (hok : ok → server.running = true) :
    Handover env srv c call ok (k.serveAt server.loop) w r out := by
  have hne : k.handler.point ≠ .acked ∧ k.handler.point ≠ .closed := by
    rcases hp with hp | hp <;> rw [hp] <;> exact ⟨by decide, by decide⟩
  refine h.serveTo hne rfl rfl h.framesRead h.read_le h.inbox ?_ h.outbox
  rcases hp with hp | hp
  · obtain ⟨rfl, hs, hi, rfl⟩ := h.served.of_absent hp
    exact served_loop rfl hs hi (fun i hi => by omega)
      (fun he => by rw [total] at he; omega) hok
  · obtain ⟨hs, hi, rfl, hn, hr⟩ := h.served.of_serving (Or.inr hp)
    exact served_loop rfl hs hi hn hr hok

/-- A step of the connection keeps the account of it. -/
theorem Handover.step {p q : P2P} {l : P2PLabel}
    (h : Handover env srv c call ok (p.conns c) w r out) (hsame : p.server.SameAs srv)
    (hl : call.Loads env srv c)
    (hok : ok → call.Unhindered env srv c ∧ p.server.running = true ∧ l.Clean c)
    (hc : l.conn = some c) (hq : P2P.step env p l = some q) :
    ∃ w' r' out', Handover env srv c call ok (q.conns c) w' r' out' := by
  have hU : ok → call.Unhindered env srv c := fun hk => (hok hk).1
  have hrun : ok → p.server.running = true := fun hk => (hok hk).2.1
  have hw := h.written
  cases P2P.stepped hc hq with
  | connected hk =>
    rw [P2P.put_self]
    rw [hk] at hw
    exact ⟨w, r, out, h.goto hw (by rw [hk]; rfl) rfl⟩
  | unreachable hk =>
    rw [P2P.put_self]
    exact ⟨w, r, out, h.raise
      (fun hrej => absurd hrej (not_rejected_of_ne fun _ hne => by cases hne))
      fun hk => absurd rfl (hok hk).2.2⟩
  | sender hs =>
    rw [P2P.put_self]
    obtain ⟨w', h'⟩ := h.clientStep hl hU hs
    exact ⟨w', r, out, h'⟩
  | senderFailed hcan =>
    rw [P2P.put_self]
    refine ⟨w, r, out, h.raise (fun hrej => absurd hrej (not_rejected_of_ne fun msg hne => ?_))
      fun hk => absurd rfl (hok hk).2.2⟩
    rw [hne, P2PConn.canFail_crc] at hcan
    cases hcan
  -- the peer is a sender
  | wrote hk | hungUp hk =>
    rw [hk] at hw
    exact hw.elim
  | accepted hp =>
    rw [P2P.put_self]
    exact ⟨w, r, out, h.loop (Or.inl hp) hrun⟩
  | served hp hs =>
    obtain ⟨r', out', h'⟩ := h.serve hsame hp hl (fun hk => ⟨hU hk, hrun hk⟩) hs
    exact ⟨w, r', out', h'⟩
  | looped hp =>
    rw [P2P.put_self]
    exact ⟨w, r, out, h.loop (Or.inr hp) hrun⟩
  | left hp =>
    rw [P2P.put_self]
    exact ⟨w, r, out, h.leave hp⟩
  | gathered hp =>
    rw [P2P.put_self]
    obtain ⟨hs, hi, ho, hn, hr⟩ := h.served.of_gathering hp
    obtain ⟨out', h'⟩ := h.acknowledge hsame ⟨by rw [hp]; decide, by rw [hp]; decide⟩ rfl rfl
      h.framesRead h.read_le h.inbox h.outbox hs hi ho hn hr
    exact ⟨w, r, out', h'⟩
  | handlerFailed =>
    rw [P2P.put_self]
    exact ⟨w, r, out, h.die fun hk => (hok hk).2.2 rfl⟩

/-- In every run of a server and its peers, each call of `send_sessions` is at
some point of its handover. Where `ok` holds, nothing but altered payloads
stands in its way. -/
theorem P2P.handover_run {peers : ℕ → Option SendSessions} {ls : List P2PLabel} {q : P2P}
    (hl : call.Loads env srv c) (hc : peers c = some call)
    (hok : ok → call.Unhindered env srv c ∧ srv.running = true ∧ ∀ l ∈ ls, l.Clean c)
    (hr : Machine.run (P2P.step env) (P2P.new srv peers) ls = some q) :
    q.server.SameAs srv ∧ ∃ w r out, Handover env srv c call ok (q.conns c) w r out := by
  have hinv : ∀ p l q, (p.server.SameAs srv ∧ (ok → p.server.running = true) ∧
      ∃ w r out, Handover env srv c call ok (p.conns c) w r out) → P2P.step env p l = some q →
      (ok → l.Clean c) → q.server.SameAs srv ∧ (ok → q.server.running = true) ∧
      ∃ w r out, Handover env srv c call ok (q.conns c) w r out := by
    intro p l q ⟨hsame, hrun, w, r, out, h⟩ hs hclean
    refine ⟨(P2P.step_sameAs hs).trans hsame,
      fun hk => P2P.step_running (hclean hk) hs (hrun hk), ?_⟩
    by_cases hlc : l.conn = some c
    · exact h.step hsame hl (fun hk => ⟨(hok hk).1, hrun hk, hclean hk⟩) hlc hs
    · rw [P2P.step_other hlc hs]
      exact ⟨w, r, out, h⟩
  have hnew : (P2P.new srv peers).conns c = { call := call, client := .connecting } := by
    simp only [P2P.new, hc]
  have hlabels : ∀ l ∈ ls, ok → l.Clean c := fun l hl hk => (hok hk).2.2 l hl
  have := Machine.run_inv_along hinv (⟨⟨rfl, rfl, rfl⟩, fun hk => (hok hk).2.1, 0, 0, [],
    hnew ▸ handover_new⟩) (Machine.Along.of_labels hlabels) hr
  exact ⟨this.1, this.2.2⟩

section

variable {peers : ℕ → Option SendSessions} {ls : List P2PLabel} {q : P2P}

/-- Whatever happens. -/
theorem P2P.exists_handover (hl : call.Loads env srv c) (hc : peers c = some call)
    (hr : Machine.run (P2P.step env) (P2P.new srv peers) ls = some q) :
    ∃ w r out, Handover env srv c call False (q.conns c) w r out := by
  have hrun : q.server.SameAs srv ∧ ∃ w r out, Handover env srv c call False (q.conns c) w r out :=
    P2P.handover_run hl hc (fun hk => hk.elim) hr
  exact hrun.2

/-- Nothing but altered payloads hinders the call. -/
theorem P2P.exists_unhindered (hl : call.Loads env srv c) (hc : peers c = some call)
    (hU : call.Unhindered env srv c) (hrun : srv.running = true) (hclean : ∀ l ∈ ls, l.Clean c)
    (hr : Machine.run (P2P.step env) (P2P.new srv peers) ls = some q) :
    ∃ w r out, Handover env srv c call True (q.conns c) w r out := by
  have hrun : q.server.SameAs srv ∧ ∃ w r out, Handover env srv c call True (q.conns c) w r out :=
    P2P.handover_run hl hc (fun _ => ⟨hU, hrun, hclean⟩) hr
  exact hrun.2

end

end
end Sgm
