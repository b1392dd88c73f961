/-
# When the callbacks are called

A handler calls its callbacks in one step, when it has read the HANDOVER_FIN,
and leaves the point where it awaits them in another. No other step touches
what it has called, and none of another connection touches the handler.

Key definitions: `ServePoint.Settled`, `P2P.HandlerMoved`.
Key theorems: `P2P.step_handler`, `P2P.step_returned`.
-/
import Sgm.Transport.Progress

namespace Sgm

/-- The handler has nothing more to do but to close. -/
def ServePoint.Settled (point : ServePoint) : Prop := point = .acked ∨ point = .closed

namespace P2P

variable {env : P2PEnv} {p q : P2P} {l : P2PLabel} {c : ℕ}

/-- A handler calls its callbacks when it has read the HANDOVER_FIN, and goes on
from there when they have all returned. -/
inductive HandlerMoved (l : P2PLabel) (c : ℕ) (callbacks : List SessionHandlerCallback)
    (x y : ServerHandler) : Prop
  | kept (hi : y.invocations = x.invocations) (hg : y.point = .gathering → x.point = .gathering)
    (hr : x.point = .gathering → y.point = .gathering ∨ y.point.Settled ∧ l = .gathered c)
    (hs : x.point.Settled → y.point.Settled)
  | called (hx : x.point = .reading) (hl : l = .serve c) (hy : y.point = .gathering)
    (hi : y.invocations = x.invocations ++ callbacks.map (·, y.sessionsInFlight))

theorem HandlerMoved.refl (x : ServerHandler) {callbacks : List SessionHandlerCallback} :
    HandlerMoved l c callbacks x x :=
  .kept rfl id Or.inl id

/-- To a point where no callback is awaited. -/
theorem HandlerMoved.to {x y : ServerHandler} {callbacks : List SessionHandlerCallback}
    (hi : y.invocations = x.invocations) (hy : y.point ≠ .gathering)
    (hx : x.point ≠ .gathering) (hs : x.point.Settled → y.point.Settled) :
    HandlerMoved l c callbacks x y :=
  .kept hi (fun h => absurd h hy) (fun h => absurd h hx) hs

theorem loop_ne_gathering (server : P2PServer) : server.loop ≠ .gathering := by
  unfold P2PServer.loop
  split <;> decide

theorem clientStep_handler {k k' : P2PConn} (h : k.clientStep env c = some k') :
    k'.handler = k.handler := by
  have hwrite (key : FrameKey) (msgType : ℕ) (payload : Bytes) (flags : ℕ) (compress : Bool)
      (next : ClientPoint) : (k.write env c key msgType payload flags compress next).handler = k.handler := by
    unfold P2PConn.write
    split <;> rfl
  unfold P2PConn.clientStep at h
  split at h
  · exact Option.some.inj h ▸ hwrite ..
  · obtain ⟨session, -, rfl⟩ := Option.map_eq_some_iff.mp h
    split
    · exact hwrite ..
    · rfl
  · exact Option.some.inj h ▸ hwrite ..
  · unfold P2PConn.readReply at h
    split at h
    · split at h
      · exact Option.some.inj h ▸ rfl
      · cases h
    · exact Option.some.inj h ▸ rfl
    · exact Option.some.inj h ▸ rfl
  · cases h

variable (env) in
/-- A reply changes nothing of the handler but its point. -/
theorem reply_handler (k : P2PConn) (msgType : ℕ) (payload : Bytes) (next : ServePoint) :
    (k.reply env msgType payload next).handler = (k.serveAt next).handler ∨
      (k.reply env msgType payload next).handler = (k.serveAt .closed).handler := by
  unfold P2PConn.reply
  split
  · exact Or.inl rfl
  · exact Or.inr rfl

variable (env c) in
theorem acknowledge_handler (k : P2PConn) (server : P2PServer) :
    (k.acknowledge env c server).handler.invocations = k.handler.invocations ∧
      (k.acknowledge env c server).handler.point.Settled := by
  rcases reply_handler env k MessageType.handoverAck _ .acked with h | h
  all_goals
    unfold P2PConn.acknowledge
    rw [h]
  · exact ⟨rfl, Or.inl rfl⟩
  · exact ⟨rfl, Or.inr rfl⟩

/-- A handler that was in its loop, or before it. -/
theorem HandlerMoved.of_loop {x y : ServerHandler} {callbacks : List SessionHandlerCallback}
    (hx : x.point = .absent ∨ x.point = .reading ∨ x.point = .replied)
    (hi : y.invocations = x.invocations) (hy : y.point ≠ .gathering) :
    HandlerMoved l c callbacks x y := by
  apply HandlerMoved.to hi hy
  · rcases hx with hx | hx | hx <;> rw [hx] <;> decide
  · rcases hx with hx | hx | hx <;> rintro (h | h) <;> rw [hx] at h <;> cases h

/-- A handler that was reading. -/
theorem HandlerMoved.of_reading {x y : ServerHandler} {callbacks : List SessionHandlerCallback}
    (hx : x.point = .reading) (hi : y.invocations = x.invocations) (hy : y.point ≠ .gathering) :
    HandlerMoved l c callbacks x y :=
  .of_loop (Or.inr (Or.inl hx)) hi hy

theorem handleFrame_handler {k : P2PConn} (hk : k.handler.point = .reading) (msgType : ℕ)
    (payload : Bytes) : HandlerMoved (.serve c) c p.server.sessionCallbacks k.handler
      ((p.handleFrame env c k msgType payload).conns c).handler := by
  have hreply (msgType : ℕ) (payload : Bytes) (next : ServePoint) (hn : next ≠ .gathering) :
      HandlerMoved (.serve c) c p.server.sessionCallbacks k.handler
        (k.reply env msgType payload next).handler := by
    rcases reply_handler env k msgType payload next with h | h
    · exact .of_reading hk (by rw [h]; rfl) (by rw [h]; exact hn)
    · exact .of_reading hk (by rw [h]; rfl) (by rw [h]; exact nofun)
  unfold handleFrame
  split
  · split
    · rw [put_self]
      exact .of_reading hk rfl (loop_ne_gathering _)
    · rw [put_self]
      exact .of_reading hk rfl nofun
  · split
    · split
      · rw [put_self]
        exact .of_reading hk rfl (loop_ne_gathering _)
      · rw [put_self]
        exact .of_reading hk rfl nofun
    · split
      · split
        · rw [put_self]
          exact .called hk rfl rfl rfl
        · rw [put_self]
          exact hreply _ _ _ nofun
      · split
        · rw [put_self]
          exact hreply _ _ _ nofun
        · rw [put_self]
          exact .of_reading hk rfl (loop_ne_gathering _)

theorem serve_handler (hp : (p.conns c).handler.point = .reading) (h : p.serve env c = some q) :
    HandlerMoved (.serve c) c p.server.sessionCallbacks (p.conns c).handler (q.conns c).handler := by
  have hoff (rest : Bytes) : ((p.conns c).readOff rest).handler.point = .reading := hp
  have hread {rest : Bytes} {y : ServerHandler}
      (hm : HandlerMoved (.serve c) c p.server.sessionCallbacks ((p.conns c).readOff rest).handler y) :
      HandlerMoved (.serve c) c p.server.sessionCallbacks (p.conns c).handler y := by
    cases hm with
    | kept hi hg hr hs => exact .kept hi hg hr hs
    | called hx hl hy hi => exact .called hx hl hy hi
  unfold serve at h
  simp only at h
  split at h
  · split at h
    · obtain rfl := Option.some.inj h
      rw [put_self]
      exact .of_reading hp rfl nofun
    · cases h
  · rename_i crcErr rest _
    obtain rfl := Option.some.inj h
    rw [put_self]
    refine hread (.of_reading (hoff rest) ?_ ?_)
    all_goals
      unfold P2PConn.sendNack
      rcases reply_handler env ((p.conns c).readOff rest) MessageType.handoverNack
        (env.handoverNack.dump (p.server.nack
          (env.serverTimeNs c ((p.conns c).readOff rest).handler.framesRead) crcErr)) .replied
        with he | he <;> rw [he]
    · rfl
    · rfl
    · exact nofun
    · exact nofun
  · obtain rfl := Option.some.inj h
    rw [put_self]
    exact .of_reading hp rfl nofun
  · obtain rfl := Option.some.inj h
    exact hread (handleFrame_handler (hoff _) _ _)

/-- What a step does to the handler of a connection. -/
theorem step_handler (h : step env p l = some q) :
    HandlerMoved l c p.server.sessionCallbacks (p.conns c).handler (q.conns c).handler := by
  by_cases hc : l.conn = some c
  · have hput {k : P2PConn} (hk : HandlerMoved l c p.server.sessionCallbacks (p.conns c).handler k.handler) :
        HandlerMoved l c p.server.sessionCallbacks (p.conns c).handler ((p.put c k).conns c).handler := by
      rwa [put_self]
    cases stepped hc h with
    | connected | unreachable | senderFailed | wrote | hungUp => exact hput (HandlerMoved.refl _)
    | sender hs =>
      apply hput
      rw [clientStep_handler hs]
      exact HandlerMoved.refl _
    | accepted hp => exact hput (.of_loop (Or.inl hp) rfl (loop_ne_gathering _))
    | served hp hs => exact serve_handler hp hs
    | looped hp => exact hput (.of_loop (Or.inr (Or.inr hp)) rfl (loop_ne_gathering _))
    | left hp =>
      refine hput (.to rfl nofun ?_ fun _ => Or.inr rfl)
      rw [hp]
      decide
    | gathered hp =>
      apply hput
      obtain ⟨hi, hset⟩ := acknowledge_handler env c (p.conns c) p.server
      refine .kept hi (fun hg => ?_) (fun _ => Or.inr ⟨hset, rfl⟩) fun _ => hset
      rcases hset with hs | hs <;> rw [hg] at hs <;> cases hs
    | handlerFailed hp =>
      refine hput (.to rfl nofun ?_ fun _ => Or.inr rfl)
      rcases hp with hp | hp | hp <;> rw [hp] <;> decide
  · rw [step_other hc h]
    exact HandlerMoved.refl _

/-- A call that has returned has returned for good. -/
theorem step_returned (h : step env p l = some q) {ack : HandoverAck}
    (hk : (p.conns c).client = .returned ack) : (q.conns c).client = .returned ack := by
  by_cases hc : l.conn = some c
  · cases stepped hc h with
    | connected hk' | unreachable hk' | wrote hk' | hungUp hk' =>
      rw [hk] at hk'
      cases hk'
    | sender hs =>
      simp only [P2PConn.clientStep, hk] at hs
      cases hs
    | senderFailed hf =>
      rw [hk] at hf
      cases hf
    | served _ hs => exact (serve_moves hs).2.1.trans hk
    | gathered =>
      rw [put_self]
      exact (P2PConn.acknowledge_moves p.server).2.1.trans hk
    | accepted | looped | left | handlerFailed =>
      rw [put_self]
      exact hk
  · rwa [step_other hc h]

end P2P

end Sgm
