/-
# A handover comes to its end

Each step of a connection uses up some of what its sender and its handler have
still to do, and until both are done one of them can take a step. So a
connection that does not fail takes a bounded number of steps and is never
stuck, whatever is altered in transit.

Key definitions: `P2PConn.effort`, `P2PConn.done`.
Key theorems: `Handover.effort_lt`, `Handover.enabled`, `P2P.steps_le`,
`P2P.exists_complete_run`.
-/
import Sgm.Transport.Handover

namespace Sgm

open Framing SendSessions

namespace SendSessions

/-- What a sender has to do still. -/
def clientEffort (call : SendSessions) : ClientPoint → ℕ
  | .connecting => call.sessions.length + 4
  | .sendInit => call.sessions.length + 3
  | .sendState idx _ => call.sessions.length + 2 - idx
  | .sendFin => 2
  | .awaitReply => 1
  | _ => 0

/-- What a handler has to do still, at most. -/
def serveEffort (call : SendSessions) (x : ServerHandler) : ℕ :=
  match x.point with
  | .absent => 2 * call.total + 3
  | .reading => 2 * (call.total - x.framesRead) + 2
  | .replied => 2 * (call.total - x.framesRead) + 3
  | .gathering => 2
  | .acked => 1
  | .closed => 0

end SendSessions

namespace P2PConn

def effort (k : P2PConn) : ℕ := k.call.clientEffort k.client + k.call.serveEffort k.handler

/-- Sender and handler are done. -/
def done (k : P2PConn) : Prop := k.client.ended = true ∧ k.handler.point = .closed

instance (k : P2PConn) : Decidable k.done := inferInstanceAs (Decidable (_ ∧ _))

end P2PConn

variable {env : P2PEnv} {srv : P2PServer} {c : ℕ} {call : SendSessions} {ok : Prop}
  {k k' : P2PConn} {p q : P2P} {w r : ℕ} {out : Bytes}

/-! ### Each step uses up some effort -/

theorem P2PConn.write_moves (key : FrameKey) (msgType : ℕ) (payload : Bytes) (flags : ℕ)
    (compress : Bool) {next : ClientPoint}
    (h : k.call.clientEffort next < k.call.clientEffort k.client) :
    let k' := k.write env c key msgType payload flags compress next
    k'.call = k.call ∧ k'.handler = k.handler ∧
      k.call.clientEffort k'.client < k.call.clientEffort k.client := by
  simp only [write]
  split
  · exact ⟨rfl, rfl, h⟩
  · exact ⟨rfl, rfl, Nat.zero_lt_of_lt h⟩

theorem SendSessions.clientEffort_nextState (idx : ℕ) :
    call.clientEffort (call.nextState idx) ≤ call.sessions.length + 2 - idx ∨
      call.clientEffort (call.nextState idx) = 2 := by
  unfold nextState
  split
  · exact Or.inl (le_refl _)
  · exact Or.inr rfl

theorem P2PConn.outcome_effort (msgType : ℕ) (payload : Bytes) :
    call.clientEffort (outcome env msgType payload) = 0 := by
  unfold outcome
  split
  · split <;> rfl
  · split
    · split <;> rfl
    · rfl

/-- A step of the sender leaves the handler alone. -/
theorem Handover.clientStep_moves (h : Handover env srv c call ok k w r out)
    (hs : k.clientStep env c = some k') : k'.call = k.call ∧ k'.handler = k.handler ∧
      k.call.clientEffort k'.client < k.call.clientEffort k.client := by
  have hw := h.written
  unfold P2PConn.clientStep at hs
  cases hk : k.client with
  | sendInit =>
    rw [hk] at hs
    obtain rfl := Option.some.inj hs
    rw [← hk]
    apply P2PConn.write_moves
    rw [hk]
    have : k.call.clientEffort .sendInit = k.call.sessions.length + 3 := rfl
    rcases k.call.clientEffort_nextState 0 with he | he <;> omega
  | sendState idx attempt =>
    rw [hk] at hs hw
    obtain ⟨-, hi, rfl⟩ := hw
    rw [← h.call_eq] at hi
    simp only [P2PConn.sendState, List.getElem?_eq_getElem hi, Option.map_some] at hs
    rw [if_pos (by decide)] at hs
    obtain rfl := Option.some.inj hs
    rw [← hk]
    apply P2PConn.write_moves
    rw [hk]
    have : k.call.clientEffort (.sendState idx 0) = k.call.sessions.length + 2 - idx := rfl
    rcases k.call.clientEffort_nextState (idx + 1) with he | he <;> omega
  | sendFin =>
    rw [hk] at hs
    obtain rfl := Option.some.inj hs
    rw [← hk]
    apply P2PConn.write_moves
    rw [hk]
    exact Nat.one_lt_two
  | awaitReply =>
    rw [hk] at hs
    simp only [P2PConn.readReply] at hs
    split at hs
    · split at hs
      · obtain rfl := Option.some.inj hs
        exact ⟨rfl, rfl, Nat.one_pos⟩
      · cases hs
    · obtain rfl := Option.some.inj hs
      exact ⟨rfl, rfl, Nat.one_pos⟩
    · obtain rfl := Option.some.inj hs
      refine ⟨rfl, rfl, ?_⟩
      simp only [P2PConn.outcome_effort]
      exact Nat.one_pos
  | _ => rw [hk] at hs; cases hs

theorem P2PConn.reply_moves (msgType : ℕ) (payload : Bytes) {next : ServePoint}
    (hn : next ≠ .absent) :
    let k' := k.reply env msgType payload next
    k'.call = k.call ∧ k'.client = k.client ∧ k'.handler.framesRead = k.handler.framesRead ∧
      k'.handler.point ≠ .absent := by
  simp only [reply]
  split
  · exact ⟨rfl, rfl, rfl, hn⟩
  · exact ⟨rfl, rfl, rfl, fun he => by cases he⟩

theorem P2PConn.acknowledge_moves (server : P2PServer) :
    let k' := k.acknowledge env c server
    k'.call = k.call ∧ k'.client = k.client ∧
      (k'.handler.point = .acked ∨ k'.handler.point = .closed) := by
  simp only [acknowledge, reply]
  split
  · exact ⟨rfl, rfl, Or.inl rfl⟩
  · exact ⟨rfl, rfl, Or.inr rfl⟩

theorem P2PServer.loop_ne_absent (server : P2PServer) : server.loop ≠ .absent := by
  unfold loop
  split <;> exact fun he => by cases he

theorem P2P.handleFrame_moves (msgType : ℕ) (payload : Bytes) :
    let k' := (p.handleFrame env c k msgType payload).conns c
    k'.call = k.call ∧ k'.client = k.client ∧ k'.handler.framesRead = k.handler.framesRead ∧
      k'.handler.point ≠ .absent := by
  have hloop := p.server.loop_ne_absent
  have hclosed : ServePoint.closed ≠ .absent := fun he => by cases he
  simp only [handleFrame]
  split
  · split
    · simpa using hloop
    · simp [P2PConn.serveAt]
  · split
    · split
      · simpa using hloop
      · simp [P2PConn.serveAt]
    · split
      · split
        · simp
        · rw [put_self]
          exact P2PConn.reply_moves _ _ fun he => by cases he
      · split
        · rw [put_self]
          exact P2PConn.reply_moves _ _ fun he => by cases he
        · rw [put_self]
          exact ⟨rfl, rfl, rfl, hloop⟩

/-- The handler reads a frame, or ends. -/
theorem P2P.serve_moves (h : p.serve env c = some q) :
    (q.conns c).call = (p.conns c).call ∧ (q.conns c).client = (p.conns c).client ∧
      ((q.conns c).handler.point = .closed ∨
        (q.conns c).handler.framesRead = (p.conns c).handler.framesRead + 1 ∧
          (q.conns c).handler.point ≠ .absent) := by
  simp only [serve] at h
  split at h
  · split at h
    · obtain rfl := Option.some.inj h
      rw [put_self]
      exact ⟨rfl, rfl, Or.inl rfl⟩
    · cases h
  · obtain rfl := Option.some.inj h
    rw [put_self]
    have hne : ServePoint.replied ≠ .absent := fun he => by cases he
    obtain ⟨h1, h2, h3, h4⟩ := P2PConn.reply_moves (k := (p.conns c).readOff _)
      MessageType.handoverNack _ hne
    exact ⟨h1, h2, Or.inr ⟨h3, h4⟩⟩
  · obtain rfl := Option.some.inj h
    rw [put_self]
    exact ⟨rfl, rfl, Or.inl rfl⟩
  · obtain rfl := Option.some.inj h
    obtain ⟨h1, h2, h3, h4⟩ := handleFrame_moves _ _
    exact ⟨h1, h2, Or.inr ⟨h3, h4⟩⟩

theorem SendSessions.serveEffort_loop (call : SendSessions) (x : ServerHandler)
    (server : P2PServer) :
    call.serveEffort { x with point := server.loop } ≤ 2 * (call.total - x.framesRead) + 2 := by
  unfold P2PServer.loop
  split
  · exact le_refl _
  · exact Nat.zero_le _

/-- A step of the connection uses up effort. -/
theorem Handover.effort_lt {l : P2PLabel} {w' r' : ℕ} {out' : Bytes}
    (h : Handover env srv c call ok (p.conns c) w r out)
    (h' : Handover env srv c call ok (q.conns c) w' r' out') (hc : l.conn = some c)
    (hq : P2P.step env p l = some q) : (q.conns c).effort < (p.conns c).effort := by
  have hread := h.framesRead
  have hread' := h'.framesRead
  have hle := h.read_le.trans h.written.le
  have hle' := h'.read_le.trans h'.written.le
  -- where only the handler moves, and where only the sender does
  have hserve : (q.conns c).call = (p.conns c).call → (q.conns c).client = (p.conns c).client →
      (p.conns c).call.serveEffort (q.conns c).handler <
        (p.conns c).call.serveEffort (p.conns c).handler →
      (q.conns c).effort < (p.conns c).effort := by
    intro h1 h2 h3
    unfold P2PConn.effort
    rw [h1, h2]
    omega
  have hclient : (q.conns c).call = (p.conns c).call → (q.conns c).handler = (p.conns c).handler →
      (p.conns c).call.clientEffort (q.conns c).client <
        (p.conns c).call.clientEffort (p.conns c).client →
      (q.conns c).effort < (p.conns c).effort := by
    intro h1 h2 h3
    unfold P2PConn.effort
    rw [h1, h2]
    omega
  have hw := h.written
  rw [← h.call_eq] at hle hle'
  cases P2P.stepped hc hq with
  | connected hk =>
    rw [P2P.put_self] at hclient ⊢
    refine hclient rfl rfl ?_
    rw [hk]
    exact Nat.lt_succ_self _
  | unreachable hk =>
    rw [P2P.put_self] at hclient ⊢
    refine hclient rfl rfl ?_
    rw [hk]
    exact Nat.succ_pos _
  | sender hs =>
    rw [P2P.put_self] at hclient ⊢
    obtain ⟨h1, h2, h3⟩ := h.clientStep_moves hs
    exact hclient h1 h2 h3
  | senderFailed hcan =>
    rw [P2P.put_self] at hclient ⊢
    refine hclient rfl rfl ?_
    cases hk : (p.conns c).client <;> rw [hk] at hcan hw <;>
      simp only [P2PConn.canFail, Bool.false_eq_true] at hcan
    · obtain ⟨-, hi, -⟩ := hw
      rw [← h.call_eq] at hi
      exact Nat.sub_pos_of_lt (by omega)
    · exact Nat.two_pos
    · exact Nat.one_pos
  | wrote hk | hungUp hk =>
    rw [hk] at hw
    exact hw.elim
  | accepted hp =>
    rw [P2P.put_self] at hserve ⊢
    refine hserve rfl rfl (lt_of_le_of_lt (serveEffort_loop _ _ _) ?_)
    simp only [serveEffort, hp]
    omega
  | served hp hs =>
    obtain ⟨h1, h2, h3⟩ := P2P.serve_moves hs
    refine hserve h1 h2 ?_
    rcases h3 with h3 | ⟨h3, h4⟩
    · simp only [serveEffort, hp, h3]
      omega
    · simp only [serveEffort, hp]
      cases hp' : (q.conns c).handler.point with
      | absent => exact absurd hp' h4
      | _ => simp only; omega
  | looped hp =>
    rw [P2P.put_self] at hserve ⊢
    refine hserve rfl rfl (lt_of_le_of_lt (serveEffort_loop _ _ _) ?_)
    simp only [serveEffort, hp]
    omega
  | left hp =>
    rw [P2P.put_self] at hserve ⊢
    refine hserve rfl rfl ?_
    simp only [serveEffort, hp, P2PConn.serveAt]
    omega
  | gathered hp =>
    rw [P2P.put_self] at hserve ⊢
    obtain ⟨h1, h2, hpoint⟩ := P2PConn.acknowledge_moves p.server
    refine hserve h1 h2 ?_
    simp only [serveEffort, hp]
    rcases hpoint with hpoint | hpoint <;> rw [hpoint] <;> simp
  | handlerFailed hp =>
    rw [P2P.put_self] at hserve ⊢
    refine hserve rfl rfl ?_
    rcases hp with hp | hp | hp <;> simp only [serveEffort, hp, P2PConn.serveAt] <;> omega

/-! ### Until both are done, there is a step -/

/-- A handler that is reading can go on where a frame is there, or the sender
has hung up. -/
theorem Handover.serve_enabled (h : Handover env srv c call ok (p.conns c) w r out)
    (hl : call.Loads env srv c) (hr : r < w ∨ (p.conns c).client.ended = true) :
    (p.serve env c).isSome = true := by
  simp only [P2P.serve]
  rcases Nat.lt_or_ge r w with hlt | hge
  · have hfits := h.fits r hlt
    rw [h.inbox_cons hlt]
    by_cases ha : call.Altered env c r
    · rw [Outgoing.read_wire_altered (small_frame r) hfits ha]
      rfl
    · obtain ⟨flags, hread⟩ := Outgoing.read_wire_intact (small_frame r) hfits ha (hl.lossless r)
        ((List.range' (r + 1) (w - (r + 1))).flatMap fun i => (call.frame env c i).wire env c)
      rw [hread]
      rfl
  · obtain rfl : r = w := le_antisymm h.read_le hge
    have hnil : (p.conns c).toServer = [] := by
      rw [h.inbox, Nat.sub_self]
      rfl
    rw [hnil, readFrameAsync_nil]
    simp only
    rw [if_pos (hr.resolve_left (lt_irrefl r))]
    rfl

/-- A sender that waits for a reply can go on where the handler has ended. -/
theorem P2PConn.readReply_enabled (hp : k.handler.point = .closed) :
    (k.readReply env).isSome = true := by
  unfold readReply
  split
  · rw [if_pos hp]
    rfl
  · rfl
  · rfl

/-- A handler that has read everything and is not done has refused the
HANDOVER_FIN, and the sender can read that it did. -/
theorem Handover.readReply_enabled (h : Handover env srv c call ok k w call.total out)
    (hk : k.client = .awaitReply) (hp : k.handler.point = .reading) :
    (k.readReply env).isSome = true := by
  have hout : k.toClient = out := h.outbox (by rw [hk]; rfl)
  obtain ⟨-, -, ho, hn, hr⟩ := h.served.of_serving (Or.inl hp)
  have hfin : call.sessions.length + 1 < call.total := by rw [total]; omega
  obtain ⟨i, hi, ha, rest, he⟩ := nacks_head srv ⟨_, hfin, hr rfl⟩
  obtain ⟨flags, hread⟩ : ∃ flags, readFrameAsync env.zlib (call.nackBytes env srv c i ++ rest) =
      .frame MessageType.handoverNack flags
        (env.handoverNack.dump (call.nackOf env srv c i)) rest :=
    read_reply (by decide) (hn i hi ha) rest
  unfold P2PConn.readReply
  rw [hout, ho, he, hread]
  rfl

/-- A sender that has not ended can go on, where it can read the reply. -/
theorem Handover.clientStep_enabled (h : Handover env srv c call ok k w r out)
    (hconn : k.client ≠ .connecting) (hk : k.client.ended = false)
    (hread : k.client = .awaitReply → (k.readReply env).isSome = true) :
    (k.clientStep env c).isSome = true := by
  have hw := h.written
  unfold P2PConn.clientStep
  cases hp : k.client with
  | connecting => exact absurd hp hconn
  | sendState idx attempt =>
    rw [hp] at hw
    obtain ⟨-, hi, -⟩ := hw
    simp only [P2PConn.sendState, h.call_eq, List.getElem?_eq_getElem hi]
    rfl
  | sendInit | sendFin => rfl
  | awaitReply => exact hread hp
  | returned ack | raised e | hungUp => rw [hp] at hk; cases hk
  | foreign => rw [hp] at hw; exact hw.elim

/-- While sender or handler has something to do, there is a step of the
connection that is no failure. -/
theorem Handover.enabled (h : Handover env srv c call ok (p.conns c) w r out)
    (hl : call.Loads env srv c) (hd : ¬ (p.conns c).done) :
    ∃ l, l.conn = some c ∧ l.Clean c ∧ (P2P.step env p l).isSome = true := by
  have hw := h.written
  by_cases hconn : (p.conns c).client = .connecting
  · exact ⟨.connect c, rfl, trivial, by simp only [P2P.step]; rw [if_pos hconn]; rfl⟩
  -- the handler first: only a handler that waits for a frame, or has ended, cannot go on
  cases hp : (p.conns c).handler.point with
  | absent =>
    exact ⟨.accept c, rfl, trivial, by simp only [P2P.step]; rw [if_pos ⟨hp, hconn⟩]; rfl⟩
  | replied => exact ⟨.serve c, rfl, trivial, by simp only [P2P.step, hp]; rfl⟩
  | acked => exact ⟨.serve c, rfl, trivial, by simp only [P2P.step, hp]; rfl⟩
  | gathering =>
    exact ⟨.gathered c, rfl, trivial, by simp only [P2P.step]; rw [if_pos hp]; rfl⟩
  | closed =>
    have hk : (p.conns c).client.ended = false := by
      by_contra he
      exact hd ⟨Bool.eq_true_of_not_eq_false he, hp⟩
    refine ⟨.client c, rfl, trivial, ?_⟩
    simp only [P2P.step, Option.isSome_map]
    exact h.clientStep_enabled hconn hk fun _ => P2PConn.readReply_enabled hp
  | reading =>
    by_cases hready : r < w ∨ (p.conns c).client.ended = true
    · exact ⟨.serve c, rfl, trivial, by
        simp only [P2P.step, hp]
        exact h.serve_enabled hl hready⟩
    · have hrw : r = w := le_antisymm h.read_le (not_lt.mp fun hlt => hready (Or.inl hlt))
      have hk : (p.conns c).client.ended = false :=
        Bool.eq_false_of_not_eq_true fun he => hready (Or.inr he)
      refine ⟨.client c, rfl, trivial, ?_⟩
      simp only [P2P.step, Option.isSome_map]
      refine h.clientStep_enabled hconn hk fun hk => ?_
      rw [hk] at hw
      obtain rfl : r = call.total := hrw.trans hw
      exact h.readReply_enabled hk hp

/-! ### Runs -/

/-- The effort of a handover before it begins. -/
def SendSessions.effort (call : SendSessions) : ℕ := call.sessions.length + 4 + (2 * call.total + 3)

section
variable {peers : ℕ → Option SendSessions}

theorem P2P.new_conns (hc : peers c = some call) :
    (P2P.new srv peers).conns c = { call := call, client := .connecting } := by
  simp only [P2P.new, hc]

/-- The invariant of a connection in any run. -/
def P2P.InHandover (env : P2PEnv) (srv : P2PServer) (c : ℕ) (call : SendSessions) (p : P2P) : Prop :=
  p.server.SameAs srv ∧ ∃ w r out, Handover env srv c call False (p.conns c) w r out

theorem P2P.inHandover_step (hl : call.Loads env srv c) (p : P2P) (l : P2PLabel) (q : P2P)
    (h : p.InHandover env srv c call) (hs : P2P.step env p l = some q) :
    q.InHandover env srv c call := by
  obtain ⟨hsame, w, r, out, h⟩ := h
  refine ⟨(P2P.step_sameAs hs).trans hsame, ?_⟩
  by_cases hlc : l.conn = some c
  · exact h.step hsame hl (fun hk => hk.elim) hlc hs
  · rw [P2P.step_other hlc hs]
    exact ⟨w, r, out, h⟩

/-- A handover takes a bounded number of steps. -/
theorem P2P.steps_le (hl : call.Loads env srv c) (hc : peers c = some call) {ls : List P2PLabel}
    (hr : Machine.run (P2P.step env) (P2P.new srv peers) ls = some q) :
    ls.countP (fun l => l.conn = some c) ≤ call.effort := by
  have hμ : ∀ p l q, InHandover env srv c call p → P2P.step env p l = some q → True →
      (q.conns c).effort + (if decide (l.conn = some c) then 1 else 0) ≤ (p.conns c).effort := by
    intro p l q h hs _
    obtain ⟨-, w', r', out', h'⟩ := inHandover_step hl p l q h hs
    obtain ⟨-, w, r, out, h⟩ := h
    by_cases hlc : l.conn = some c
    · have := h.effort_lt h' hlc hs
      rw [if_pos (by simpa using hlc)]
      omega
    · rw [P2P.step_other hlc hs, if_neg (by simpa using hlc)]
      omega
  have hnew : ((P2P.new srv peers).conns c).effort = call.effort := by
    rw [new_conns hc]
    rfl
  have hle := Machine.count_le (fun l : P2PLabel => decide (l.conn = some c))
    (fun p : P2P => (p.conns c).effort) (fun p l q h hs _ => inHandover_step hl p l q h hs) hμ
    ⟨⟨rfl, rfl, rfl⟩, 0, 0, [], new_conns hc ▸ handover_new⟩
    (Machine.Along.of_forall (fun _ _ _ _ => trivial) _ ls) hr
  omega

/-- From wherever a run has come to, a connection that does not fail from there
on can be brought to its end. -/
theorem P2P.exists_complete_run (hl : call.Loads env srv c) (hc : peers c = some call)
    {ls : List P2PLabel}
    (hr : Machine.run (P2P.step env) (P2P.new srv peers) ls = some p) :
    ∃ ls' q, Machine.run (P2P.step env) p ls' = some q ∧ (∀ l ∈ ls', l.Clean c) ∧
      (q.conns c).done := by
  have hp : p.InHandover env srv c call := handover_run hl hc (fun hk => hk.elim) hr
  have hmove : ∀ p, InHandover env srv c call p → ¬ (p.conns c).done →
      ∃ l q, P2P.step env p l = some q ∧ l.Clean c ∧ (q.conns c).effort < (p.conns c).effort := by
    intro p h hd
    obtain ⟨hsame, w, r, out, hh⟩ := h
    obtain ⟨l, hlc, hclean, hsome⟩ := hh.enabled hl hd
    obtain ⟨q, hq⟩ := Option.isSome_iff_exists.mp hsome
    obtain ⟨-, w', r', out', hh'⟩ := inHandover_step hl p l q ⟨hsame, w, r, out, hh⟩ hq
    exact ⟨l, q, hq, hclean, hh.effort_lt hh' hlc hq⟩
  obtain ⟨ls', q, hrun, halong, hdone⟩ : ∃ ls' q, Machine.run (P2P.step env) p ls' = some q ∧
      Machine.Along (P2P.step env) (fun _ l _ => l.Clean c) p ls' ∧ (q.conns c).done :=
    Machine.exists_run_of_measure (fun p : P2P => (p.conns c).effort)
      (fun p l q h hs _ => inHandover_step hl p l q h hs) hmove p hp
  exact ⟨ls', q, hrun, halong.labels hrun, hdone⟩

end
end Sgm
