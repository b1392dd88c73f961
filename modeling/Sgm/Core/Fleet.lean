/-
# A fleet with one standby

The daemons of the nodes that can be preempted, the transport, and the daemon
of the standby with the callback that takes up what the transport brings. Node
`n` has connection `n`; the connections from `env.size` on are of other peers.
All of them interleave freely.

What is sent is the registry of a node when it enters STATE_STREAMING. The
objects are shared with the registry, so `update_session_token`, which nothing
in the repository calls, is left out while they are on their way.

Key definitions: `Fleet`, `Fleet.step`, `Takeover`, `TakesUp`, `Fleet.Linked`.
Key theorems: `Fleet.inv_run`, `Fleet.handover_complete`, `Fleet.taken_sublist`.
-/
import Sgm.Core.Lifecycle
import Sgm.Transport.Adoption
import Sgm.Transport.Callbacks

namespace Sgm

/-! ### The callback of the standby -/

/-- What `_on_standby_sessions_received` posts for a session. -/
def InferenceSession.ready (s : InferenceSession) (now : ℤ) : HandoverReadyPayload where
  requestId := s.requestId
  startingSequenceId := s.lastFlushedSequenceId + 1
  timestampNs := now

/-- A pass of the loop of `_on_standby_sessions_received`: the session that is
stored, and what is posted. A post that fails is logged, and the loop goes on. -/
structure Takeover where
  conn : ℕ
  session : InferenceSession
  ready : HandoverReadyPayload
  deriving DecidableEq

/-! ### The fleet -/

structure FleetEnv where
  p2p : P2PEnv
  size : ℕ
  /-- the `p2p_client` of a node -/
  client : ℕ → P2PClient := fun _ => {}
  proxyUrl : String := "http://127.0.0.1:8000"

structure Fleet where
  nodes : ℕ → DaemonSystem
  p2p : P2P
  standby : DaemonSystem
  /-- the nodes that have called `send_sessions` -/
  called : ℕ → Bool := fun _ => false
  /-- what the callback that a handler awaits has still to take up -/
  adopting : ℕ → Option (List InferenceSession) := fun _ => none
  takeovers : List Takeover := []

inductive FleetLabel
  /-- a node that can be preempted -/
  | node (n : ℕ) (l : DaemonLabel)
  | transport (l : P2PLabel)
  /-- the callback of connection `c` goes on to its next post -/
  | callback (c : ℕ) (now : ℤ)
  | standby (l : DaemonLabel)

namespace Fleet

/-- A server whose one callback is that of its daemon. -/
def standbyServer (nodeId : String) : P2PServer where
  nodeId := nodeId
  sessionCallbacks := [0]

def new (env : FleetEnv) (standbyId : String) : Fleet where
  nodes := fun n => DaemonSystem.new (env.client n).nodeId env.proxyUrl
  p2p := P2P.new (standbyServer standbyId) fun n =>
    if n < env.size then some { client := env.client n, sessions := [] } else none
  standby := DaemonSystem.new standbyId env.proxyUrl

variable (env : FleetEnv) (f : Fleet)

def call (n : ℕ) (sessions : List InferenceSession) : SendSessions where
  client := env.client n
  sessions := sessions

/-- Node `n` calls `send_sessions`. -/
def send (n : ℕ) (sessions : List InferenceSession) : Fleet :=
  { f with
    called := Function.update f.called n true
    p2p := f.p2p.put n { call := call env n sessions, client := .connecting } }

/-- A call that is cancelled closes its connection. -/
def abandon (n : ℕ) : Fleet :=
  if (f.p2p.conns n).client.ended then f
  else { f with p2p := f.p2p.put n ((f.p2p.conns n).raise (.exception "CancelledError")) }

/-- The reply is what `send_sessions` has come to. -/
def outcome (n : ℕ) (reply : Awaited) : Bool :=
  match reply with
  | .ack ack => decide ((f.p2p.conns n).client = .returned ack)
  | .error e => decide ((f.p2p.conns n).client = .raised e)
  | _ => false

def setNode (n : ℕ) (d : DaemonSystem) : Fleet := { f with nodes := Function.update f.nodes n d }

/-- What a step of its daemon means to the connection of node `n`. -/
def dispatch (n : ℕ) (d : DaemonSystem) : DaemonLabel → Option Fleet
  | .resume t wake =>
    match (f.nodes n).tasks t, d.tasks t with
    | .sending _ _, _ => if f.outcome n wake.reply then some (f.setNode n d) else none
    | _, .sending sessions _ => some ((f.setNode n d).send env n sessions)
    | _, _ => some (f.setNode n d)
  | .cancel t =>
    match (f.nodes n).tasks t with
    | .sending _ _ => some ((f.setNode n d).abandon n)
    | _ => some (f.setNode n d)
  | .updateSessionToken _ _ _ _ =>
    if f.called n ∧ (f.p2p.conns n).client.ended = false then none else some (f.setNode n d)
  | .standbySession _ => none
  | _ => some (f.setNode n d)

/-- A handler that has read the HANDOVER_FIN calls the callback. -/
def invoke (c : ℕ) (p : P2P) : Fleet :=
  if (p.conns c).handler.point = .gathering then
    { f with
      p2p := p
      adopting := Function.update f.adopting c (some (p.conns c).handler.sessionsInFlight) }
  else { f with p2p := p }

/-- A connection is made by the call, and the acknowledgement waits for the
callback. -/
def allows : P2PLabel → Bool
  | .connect n | .connectFails n _ => f.called n
  | .gathered c => decide (f.adopting c = some [])
  | _ => true

def step (f : Fleet) : FleetLabel → Option Fleet
  | .node n l =>
    if n < env.size then ((f.nodes n).step l).bind fun d => f.dispatch env n d l else none
  | .transport l =>
    if f.allows l then
      (f.p2p.step env.p2p l).map fun p =>
        match l with
        | .serve c => f.invoke c p
        | _ => { f with p2p := p }
    else none
  | .callback c now =>
    match f.adopting c with
    | some (s :: rest) =>
      (f.standby.step (.standbySession s)).map fun d =>
        { f with
          standby := d
          adopting := Function.update f.adopting c (some rest)
          takeovers := f.takeovers ++ [⟨c, s, s.ready now⟩] }
    | _ => none
  | .standby l =>
    match l with
    | .standbySession _ => none
    | _ => (f.standby.step l).map fun d => { f with standby := d }

/-- The sessions taken up from connection `c`. -/
def taken (c : ℕ) : List InferenceSession :=
  (f.takeovers.filter (·.conn = c)).map Takeover.session

end Fleet

/-! ### What a daemon does for the transport -/

namespace NodeDaemon

variable {d : NodeDaemon} {n : ℕ} {event : PreemptionEvent} {wake : Wakeup}

/-- The handover is over. -/
def Complete (d : NodeDaemon) : Prop := d.state = .handoverComplete ∨ d.state = .terminated

instance : Decidable d.Complete := inferInstanceAs (Decidable (_ ∨ _))

theorem OnCourse.complete_iff (h : d.OnCourse n) : d.Complete ↔ 8 ≤ n := by
  have hall : ∀ m ≤ 9, (stateAfter m = .handoverComplete ∨ stateAfter m = .terminated) ↔ 8 ≤ m := by
    decide
  unfold Complete
  rw [h.state_eq]
  exact hall n h.le

theorem OnCourse.mem_iff (h : d.OnCourse n) {i : ℕ} {s : Milestone} (hs : course[i]? = some s) :
    s ∈ d.milestones ↔ i < n := by
  have hle := h.le
  obtain ⟨hi, rfl⟩ := List.getElem?_eq_some_iff.mp hs
  rw [h.milestones_eq, List.mem_take_iff_getElem]
  constructor
  · rintro ⟨j, hj, he⟩
    have hji : j = i := (List.Nodup.getElem_inj_iff course_nodup).mp he
    omega
  · exact fun hin => ⟨i, by omega, rfl⟩

theorem pauseLocalEngine_ne_sending (ids : List String) (sessions : List InferenceSession)
    (event' : PreemptionEvent) : (d.pauseLocalEngine event ids).2 ≠ .sending sessions event' := by
  cases ids <;> simp [pauseLocalEngine]

theorem enterBufferingIngress_ne_sending (sessions : List InferenceSession)
    (event' : PreemptionEvent) : (d.enterBufferingIngress event wake).2 ≠ .sending sessions event' := by
  unfold enterBufferingIngress
  split
  · simp
  · simp
  · exact pauseLocalEngine_ne_sending _ sessions event'

theorem onPreemption_ne_sending (sessions : List InferenceSession) (event' : PreemptionEvent) :
    (d.onPreemption event wake).2 ≠ .sending sessions event' := by
  unfold onPreemption enterPreemptionDetected
  split
  · simp
  · split
    · simp
    · simp
    · split
      · simp
      · simp [notifyProxyPreemption]

theorem enterTerminated_ne_sending (sessions : List InferenceSession) (event' : PreemptionEvent) :
    (d.enterTerminated event wake).2 ≠ .sending sessions event' := by
  unfold enterTerminated
  split <;> simp

theorem enterHandoverComplete_ne_sending (sessions : List InferenceSession)
    (event' : PreemptionEvent) : (d.enterHandoverComplete event wake).2 ≠ .sending sessions event' := by
  unfold enterHandoverComplete
  split
  · simp
  · simp [notifyProxyFailure]
  · exact enterTerminated_ne_sending sessions event'

/-- A call goes on to `send_sessions` from the pause of the engine alone, and
sends what it has logged. -/
theorem resume_sending {point : PreemptionPoint} {x : NodeDaemon × PreemptionPoint}
    {sessions : List InferenceSession} (hp : ∀ new event, point ≠ .acquiring new event)
    (hx : d.resume point wake = some x) (hs : x.2 = .sending sessions event) :
    (∃ event', point = .pausing event') ∧ .send sessions ∈ x.1.events := by
  unfold resume at hx
  split at hx
  case h_1 => exact absurd (Option.some.inj hx ▸ hs) (onPreemption_ne_sending _ _)
  case h_2 new event _ => exact absurd rfl (hp new event)
  case h_3 =>
    rw [← Option.some.inj hx] at hs
    dsimp only at hs
    split at hs <;> cases hs
  case h_9 | h_10 => exact absurd (Option.some.inj hx ▸ hs) (enterBufferingIngress_ne_sending _ _)
  case h_11 | h_12 => exact absurd (Option.some.inj hx ▸ hs) (pauseLocalEngine_ne_sending _ _ _)
  case h_13 event' _ | h_14 event' _ _ =>
    refine ⟨⟨event', rfl⟩, ?_⟩
    rw [← Option.some.inj hx] at hs ⊢
    unfold enterStateStreaming at hs ⊢
    split at hs
    · cases hs
    · cases hs
    · rename_i d' _
      obtain ⟨rfl, -⟩ := PreemptionPoint.sending.inj hs
      exact List.mem_append_right _ (List.mem_singleton.mpr rfl)
  case h_15 => exact absurd (Option.some.inj hx ▸ hs) (enterHandoverComplete_ne_sending _ _)
  case h_21 => cases hx
  all_goals
    rw [← Option.some.inj hx] at hs
    cases hs

/-- An acknowledgement is awaited by `send_sessions` alone. -/
theorem resume_ack {point : PreemptionPoint} {x : NodeDaemon × PreemptionPoint} {ack : HandoverAck}
    (hx : d.resume point wake = some x) (hreply : wake.reply = .ack ack) :
    ∃ sessions event, point = .sending sessions event := by
  unfold resume at hx
  split at hx <;> simp_all

/-- A call only adds to the log; unless it gets an acknowledgement, it enters no
state after STATE_STREAMING. -/
theorem resume_events {point : PreemptionPoint} {x : NodeDaemon × PreemptionPoint}
    (hp : ∀ new event, point ≠ .acquiring new event) (hx : d.resume point wake = some x) :
    ∃ l, x.1.events = d.events ++ l ∧
      ((∀ ack, wake.reply ≠ .ack ack) → ∀ new registered, .state new registered ∈ l → new ∈ earlyStates) := by
  rcases resume_cases hp hx with ⟨sessions, event, ack, -, hreply, rfl⟩ | ⟨event, requests, -, -, rfl⟩ | hf
  · have hlog : d.Extends [.handoverComplete, .terminated] (d.log (.acked ack)) :=
      d.extends_log fun _ _ he => by cases he
    obtain ⟨l, hl, -⟩ := (hlog.trans enterHandoverComplete_follows.extends_).events
    exact ⟨l, hl, fun hno => absurd hreply (hno ack)⟩
  · obtain ⟨sessions, he⟩ := d.syncSessions_eq requests
    refine ⟨[], ?_, fun _ _ _ hmem => by cases hmem⟩
    rw [he, List.append_nil]
  · obtain ⟨l, hl, hst⟩ := hf.extends_.events
    exact ⟨l, hl, fun _ new registered hmem => (hst new registered hmem).1⟩

end NodeDaemon
namespace DaemonSystem

variable {p q : DaemonSystem} {l : DaemonLabel}

/-- A step only adds to the log; unless a call gets an acknowledgement, no state
after STATE_STREAMING is entered. -/
theorem step_events (h : p.Driven) (hs : p.step l = some q) :
    ∃ new, q.daemon.events = p.daemon.events ++ new ∧
      ((∀ t wake ack, l = .resume t wake → wake.reply ≠ .ack ack) →
        ∀ st registered, .state st registered ∈ new → st ∈ NodeDaemon.earlyStates) := by
  have hsame : q.daemon.events = p.daemon.events → ∃ new, q.daemon.events = p.daemon.events ++ new ∧
      ((∀ t wake ack, l = .resume t wake → wake.reply ≠ .ack ack) →
        ∀ st registered, .state st registered ∈ new → st ∈ NodeDaemon.earlyStates) := by
    intro he
    exact ⟨[], by rw [he, List.append_nil], fun _ _ _ hmem => by cases hmem⟩
  cases l with
  | trigger t event =>
    simp only [step] at hs
    split at hs
    · exact hsame (Option.some.inj hs ▸ rfl)
    · cases hs
  | resume t wake =>
    obtain ⟨x, hx, rfl⟩ := Option.map_eq_some_iff.mp hs
    obtain ⟨new, hnew, hst⟩ := NodeDaemon.resume_events (h.not_acquiring t) hx
    exact ⟨new, hnew, fun hno => hst fun ack => hno t wake ack rfl⟩
  | cancel t =>
    obtain ⟨point, -, rfl⟩ := Option.map_eq_some_iff.mp hs
    exact hsame rfl
  | registerSession session | standbySession session | completeSession requestId =>
    exact hsame (Option.some.inj hs ▸ rfl)
  | updateSessionToken requestId tokenId tokenStr sequenceId =>
    refine hsame (Option.some.inj hs ▸ ?_)
    dsimp only [NodeDaemon.updateSessionToken]
    split <;> rfl

/-- Unless a call gets an acknowledgement, no handover is over that was not. -/
theorem complete_of_step (h : p.Driven) (hs : p.step l = some q)
    (hl : ∀ t wake ack, l = .resume t wake → wake.reply ≠ .ack ack) (hq : q.daemon.Complete) :
    p.daemon.Complete := by
  obtain ⟨m, hqm, -⟩ := h.step hs
  obtain ⟨new, hnew, hst⟩ := step_events h hs
  obtain ⟨n, hp, -⟩ := h
  have hidx : course[7]? = some (.state .handoverComplete) := rfl
  have hmem : Milestone.state .handoverComplete ∈ q.daemon.milestones :=
    (hqm.mem_iff hidx).mpr (hqm.complete_iff.mp hq)
  rw [NodeDaemon.milestones, hnew, List.filterMap_append] at hmem
  rcases List.mem_append.mp hmem with hold | hlate
  · exact hp.complete_iff.mpr ((hp.mem_iff hidx).mp hold)
  · obtain ⟨e, he, hmile⟩ := List.mem_filterMap.mp hlate
    cases e with
    | state st registered =>
      obtain rfl : st = .handoverComplete := by simpa [DaemonEvent.milestone] using hmile
      exact absurd (hst hl _ _ he) (by decide)
    | _ => cases hmile

/-- Only a call that goes on can begin to send. -/
theorem sending_of_step (hs : p.step l = some q) (hl : ∀ t wake, l ≠ .resume t wake) (t : ℕ)
    (sessions : List InferenceSession) (event : PreemptionEvent)
    (hq : q.tasks t = .sending sessions event) : p.tasks t = .sending sessions event := by
  have hput {t' : ℕ} {point : PreemptionPoint} (hp : ∀ s e, point ≠ .sending s e)
      (hq : (p.put t' (p.daemon, point)).tasks t = .sending sessions event) :
      p.tasks t = .sending sessions event := by
    by_cases ht : t = t'
    · rw [ht, put_tasks_self] at hq
      exact absurd hq (hp sessions event)
    · rwa [put_tasks_ne p ht] at hq
  cases l with
  | trigger t' event' =>
    simp only [step] at hs
    split at hs
    · obtain rfl := Option.some.inj hs
      exact hput (fun _ _ he => by cases he) hq
    · cases hs
  | resume t' wake => exact absurd rfl (hl t' wake)
  | cancel t' =>
    obtain ⟨point, hc, rfl⟩ := Option.map_eq_some_iff.mp hs
    refine hput (fun s e he => ?_) hq
    rw [he] at hc
    unfold PreemptionPoint.cancel at hc
    split at hc <;> cases hc
  | _ =>
    obtain rfl := Option.some.inj hs
    exact hq

end DaemonSystem

/-! ### Steps of the fleet -/

namespace Fleet

variable {env : FleetEnv} {f g : Fleet} {n : ℕ}

variable (env f) in
/-- The outcomes of a step. -/
inductive Stepped : FleetLabel → Fleet → Prop
  | quiet {n : ℕ} {l : DaemonLabel} {d : DaemonSystem} (hn : n < env.size)
    (hd : (f.nodes n).step l = some d)
    (hl : ∀ t wake ack, l = .resume t wake → wake.reply ≠ .ack ack)
    (hq : ∀ t sessions event, d.tasks t = .sending sessions event →
      (f.nodes n).tasks t = .sending sessions event) :
    Stepped (.node n l) (f.setNode n d)
  | answered {n t : ℕ} {wake : Wakeup} {d : DaemonSystem} {ack : HandoverAck} (hn : n < env.size)
    (hd : (f.nodes n).step (.resume t wake) = some d)
    (hs : ∃ sessions event, (f.nodes n).tasks t = .sending sessions event)
    (hack : (f.p2p.conns n).client = .returned ack) :
    Stepped (.node n (.resume t wake)) (f.setNode n d)
  | sent {n t : ℕ} {wake : Wakeup} {d : DaemonSystem} {sessions : List InferenceSession}
    {event : PreemptionEvent} (hn : n < env.size)
    (hd : (f.nodes n).step (.resume t wake) = some d)
    (hp : ∀ sessions event, (f.nodes n).tasks t ≠ .sending sessions event)
    (hs : d.tasks t = .sending sessions event) :
    Stepped (.node n (.resume t wake)) ((f.setNode n d).send env n sessions)
  | abandoned {n t : ℕ} {d : DaemonSystem} (hn : n < env.size)
    (hd : (f.nodes n).step (.cancel t) = some d)
    (hs : ∃ sessions event, (f.nodes n).tasks t = .sending sessions event) :
    Stepped (.node n (.cancel t)) ((f.setNode n d).abandon n)
  | moved {l : P2PLabel} {p : P2P} (ha : f.allows l = true) (hp : f.p2p.step env.p2p l = some p)
    (hl : ∀ c, l ≠ .serve c) : Stepped (.transport l) { f with p2p := p }
  | served {c : ℕ} {p : P2P} (hp : f.p2p.step env.p2p (.serve c) = some p) :
    Stepped (.transport (.serve c)) (f.invoke c p)
  | tookUp {c : ℕ} {now : ℤ} {s : InferenceSession} {rest : List InferenceSession}
    (ha : f.adopting c = some (s :: rest)) :
    Stepped (.callback c now) { f with
      standby := { f.standby with daemon := f.standby.daemon.registerSession s }
      adopting := Function.update f.adopting c (some rest)
      takeovers := f.takeovers ++ [⟨c, s, s.ready now⟩] }
  | standby {l : DaemonLabel} {d : DaemonSystem} (hd : f.standby.step l = some d) :
    Stepped (.standby l) { f with standby := d }

theorem Stepped.of_dispatch {l : DaemonLabel} {d : DaemonSystem} (hn : n < env.size)
    (hd : (f.nodes n).step l = some d) (h : f.dispatch env n d l = some g) :
    Stepped env f (.node n l) g := by
  cases l with
  | resume t wake =>
    obtain ⟨x, hx, hxd⟩ := Option.map_eq_some_iff.mp hd
    have hothers {t' : ℕ} (ht : t' ≠ t) : d.tasks t' = (f.nodes n).tasks t' := by
      rw [← hxd, DaemonSystem.put_tasks_ne _ ht]
    simp only [dispatch] at h
    split at h
    · rename_i sessions event hp
      split_ifs at h with ho
      obtain rfl := Option.some.inj h
      cases hreply : wake.reply with
      | ack ack =>
        rw [hreply] at ho
        exact .answered hn hd ⟨sessions, event, hp⟩ (by simpa [outcome] using ho)
      | _ =>
        refine .quiet hn hd (fun t' wake' ack he => ?_) fun t' s e hs => ?_
        · obtain ⟨-, rfl⟩ := DaemonLabel.resume.inj he
          rw [hreply]
          exact nofun
        · by_cases ht : t' = t
          · subst ht
            rw [← hxd, DaemonSystem.put_tasks_self] at hs
            obtain ⟨⟨event', hpause⟩, -⟩ :=
              NodeDaemon.resume_sending (by rw [hp]; exact nofun) hx hs
            rw [hp] at hpause
            cases hpause
          · rwa [← hothers ht]
    · rename_i sessions event hs hp
      obtain rfl := Option.some.inj h
      exact .sent hn hd (fun s e he => hp s e he) hs
    · rename_i hp hs
      obtain rfl := Option.some.inj h
      refine .quiet hn hd (fun t' wake' ack he hreply => ?_) fun t' s e hse => ?_
      · obtain ⟨rfl, rfl⟩ := DaemonLabel.resume.inj he
        obtain ⟨sessions, event, hsend⟩ := NodeDaemon.resume_ack hx hreply
        exact hp sessions event hsend
      · by_cases ht : t' = t
        · subst ht
          exact absurd hse (hs s e)
        · rwa [← hothers ht]
  | cancel t =>
    have hq := DaemonSystem.sending_of_step hd nofun
    simp only [dispatch] at h
    split at h
    · rename_i sessions event hp
      obtain rfl := Option.some.inj h
      exact .abandoned hn hd ⟨sessions, event, hp⟩
    · obtain rfl := Option.some.inj h
      exact .quiet hn hd nofun hq
  | updateSessionToken requestId tokenId tokenStr sequenceId =>
    simp only [dispatch] at h
    split_ifs at h
    obtain rfl := Option.some.inj h
    exact .quiet hn hd nofun (DaemonSystem.sending_of_step hd nofun)
  | standbySession session => cases h
  | _ =>
    obtain rfl := Option.some.inj h
    exact .quiet hn hd nofun (DaemonSystem.sending_of_step hd nofun)

theorem Stepped.of_step {l : FleetLabel} (h : f.step env l = some g) : Stepped env f l g := by
  cases l with
  | node n l =>
    simp only [step] at h
    split_ifs at h with hn
    obtain ⟨d, hd, hg⟩ := Option.bind_eq_some_iff.mp h
    exact .of_dispatch hn hd hg
  | transport l =>
    simp only [step] at h
    split_ifs at h with ha
    obtain ⟨p, hp, rfl⟩ := Option.map_eq_some_iff.mp h
    cases l with
    | serve c => exact .served hp
    | _ => exact .moved ha hp nofun
  | callback c now =>
    simp only [step] at h
    split at h
    · rename_i s rest ha
      obtain rfl := Option.some.inj h
      exact .tookUp ha
    · cases h
  | standby l =>
    have hmap : (f.standby.step l).map (fun d => ({ f with standby := d } : Fleet)) = some g := by
      cases l with
      | standbySession session => cases h
      | _ => exact h
    obtain ⟨d, hd, rfl⟩ := Option.map_eq_some_iff.mp hmap
    exact .standby hd

/-! ### The callbacks -/

/-- How far the callback of a handler is: what is taken up, and what is left. -/
inductive TakesUp (x : ServerHandler) (taken : List InferenceSession) :
    Option (List InferenceSession) → Prop
  | waiting (hi : x.invocations = []) (hp : x.point ≠ .gathering) (ht : taken = []) :
    TakesUp x taken none
  | called (rest : List InferenceSession) (hi : x.invocations = [(0, taken ++ rest)])
    (hp : x.point = .gathering ∨ x.point.Settled ∧ rest = []) : TakesUp x taken (some rest)

section
variable {x y : ServerHandler} {taken : List InferenceSession}
  {adopting : Option (List InferenceSession)} {l : P2PLabel} {c : ℕ}

/-- A handler moves on, from its callback when this has taken up everything. -/
theorem TakesUp.moved (h : TakesUp x taken adopting) (hm : P2P.HandlerMoved l c [0] x y)
    (ha : l = .gathered c → adopting = some []) (hl : y.point = .gathering → l ≠ .serve c) :
    TakesUp y taken adopting := by
  cases hm with
  | kept hi hg hr hs =>
    cases h with
    | waiting hx hp ht => exact .waiting (hi.trans hx) (fun hy => hp (hg hy)) ht
    | called rest hx hp =>
      refine .called rest (hi.trans hx) ?_
      rcases hp with hp | ⟨hp, hrest⟩
      · rcases hr hp with hy | ⟨hy, hl⟩
        · exact Or.inl hy
        · exact Or.inr ⟨hy, Option.some.inj (ha hl)⟩
      · exact Or.inr ⟨hs hp, hrest⟩
  | called hx hlc hy hi => exact absurd hlc (hl hy)

/-- A handler calls its callback. -/
theorem TakesUp.invoked (h : TakesUp x taken adopting) (hm : P2P.HandlerMoved (.serve c) c [0] x y)
    (hx : x.point ≠ .gathering) (hy : y.point = .gathering) :
    TakesUp y taken (some y.sessionsInFlight) := by
  cases hm with
  | kept hi hg hr hs => exact absurd (hg hy) hx
  | called hread hlc _ hi =>
    cases h with
    | waiting hnil _ ht =>
      refine .called _ ?_ (Or.inl hy)
      rw [hi, hnil, ht]
      rfl
    | called rest _ hp =>
      rcases hp with hp | ⟨hp | hp, -⟩ <;> rw [hread] at hp <;> cases hp

/-- The callback takes up the next session. -/
theorem TakesUp.next {s : InferenceSession} {rest : List InferenceSession}
    (h : TakesUp x taken (some (s :: rest))) : TakesUp x (taken ++ [s]) (some rest) := by
  cases h with
  | called _ hi hp =>
    refine .called rest ?_ ?_
    · rw [hi, List.append_assoc]
      rfl
    · rcases hp with hp | ⟨-, hnil⟩
      · exact Or.inl hp
      · cases hnil

/-- Only what the callback was called with is taken up, from its beginning. -/
theorem TakesUp.prefix_of (h : TakesUp x taken adopting) {sessions : List InferenceSession}
    {standbyId : String}
    (hi : x.invocations = [] ∨ x.invocations = (standbyServer standbyId).callsFor sessions) :
    taken <+: sessions := by
  cases h with
  | waiting _ _ ht => exact ht ▸ List.nil_prefix
  | called rest hx _ =>
    rcases hi with hi | hi
    · rw [hx] at hi
      cases hi
    · rw [hx, P2PServer.callsFor] at hi
      split at hi
      · cases hi
      · obtain ⟨-, rfl⟩ := Prod.mk.inj (List.cons.inj hi).1
        exact List.prefix_append _ _

/-- A handler that has acknowledged has had everything taken up. -/
theorem TakesUp.of_settled (h : TakesUp x taken adopting) (hx : x.point.Settled)
    {sessions : List InferenceSession} {standbyId : String}
    (hi : x.invocations = (standbyServer standbyId).callsFor sessions) : taken = sessions := by
  cases h with
  | waiting hnil _ ht =>
    rw [hnil, P2PServer.callsFor] at hi
    split at hi
    · rename_i hsessions
      rw [ht, hsessions]
    · cases hi
  | called rest hcall hp =>
    rcases hp with hp | ⟨-, rfl⟩
    · rcases hx with hx | hx <;> rw [hp] at hx <;> cases hx
    · rw [hcall, P2PServer.callsFor] at hi
      split at hi
      · cases hi
      · obtain ⟨-, he⟩ := Prod.mk.inj (List.cons.inj hi).1
        rwa [List.append_nil] at he

end

/-! ### The nodes -/

variable (env f) in
/-- Where node `n` is with its handover: it has not called `send_sessions`, or
it has, once. -/
inductive Linked (standbyId : String) (n : ℕ) : Prop
  | waiting (hc : f.called n = false)
    (hk : f.p2p.conns n = { call := call env n [], client := .connecting })
    (hw : ∀ t sessions event, (f.nodes n).tasks t ≠ .sending sessions event)
    (hd : ¬ (f.nodes n).daemon.Complete)
  | called (sessions : List InferenceSession) (hc : f.called n = true)
    (hs : .send sessions ∈ (f.nodes n).daemon.events)
    (hh : (call env n sessions).Loads env.p2p (standbyServer standbyId) n →
      ∃ w r out, Handover env.p2p (standbyServer standbyId) n (call env n sessions) False
        (f.p2p.conns n) w r out)
    (hd : (f.nodes n).daemon.Complete → ∃ ack, (f.p2p.conns n).client = .returned ack)

variable (env f) in
/-- What holds of every fleet that is reached. -/
structure Inv (standbyId : String) : Prop where
  driven : ∀ n, (f.nodes n).Driven
  same : f.p2p.server.SameAs (standbyServer standbyId)
  linked : ∀ n < env.size, Linked env f standbyId n
  takes : ∀ c, TakesUp (f.p2p.conns c).handler (f.taken c) (f.adopting c)

variable {standbyId : String}

@[simp] theorem setNode_self (d : DaemonSystem) : (f.setNode n d).nodes n = d := by
  simp [setNode]

theorem setNode_of_ne {m : ℕ} (h : m ≠ n) (d : DaemonSystem) :
    (f.setNode n d).nodes m = f.nodes m := by
  simp [setNode, h]

theorem inv_new : Inv env (new env standbyId) standbyId where
  driven n := DaemonSystem.driven_new _ _
  same := ⟨rfl, rfl, rfl⟩
  linked n hn := by
    refine .waiting rfl ?_ (fun _ _ _ he => by cases he) ?_
    · simp [new, P2P.new, hn, call]
    · simp [new, DaemonSystem.new, NodeDaemon.Complete]
  takes c := by
    refine .waiting ?_ ?_ rfl
    · simp only [new, P2P.new]
      split <;> rfl
    · simp only [new, P2P.new]
      split <;> exact fun he => by cases he

/-- The node that calls `send_sessions` has not called it before. -/
theorem Inv.sent (h : Inv env f standbyId) {t : ℕ} {wake : Wakeup} {d : DaemonSystem}
    {sessions : List InferenceSession} {event : PreemptionEvent} (hn : n < env.size)
    (hd : (f.nodes n).step (.resume t wake) = some d) (hs : d.tasks t = .sending sessions event) :
    f.p2p.conns n = { call := call env n [], client := .connecting } ∧
      .send sessions ∈ d.daemon.events ∧ ¬ d.daemon.Complete := by
  obtain ⟨x, hx, rfl⟩ := Option.map_eq_some_iff.mp hd
  rw [DaemonSystem.put_tasks_self] at hs
  obtain ⟨⟨event', hp⟩, hsend⟩ := NodeDaemon.resume_sending ((h.driven n).not_acquiring t) hx hs
  obtain ⟨m, hm, hat, -⟩ := (h.driven n).owner (t := t) (by rw [hp]; trivial)
  obtain rfl : m = 4 := by rwa [hp] at hat
  obtain ⟨k, hk, hatk⟩ := hm.resume hat hx
  rw [hs] at hatk
  obtain rfl : k = 6 := hatk
  refine ⟨?_, hsend, fun hdone => ?_⟩
  · cases h.linked n hn with
    | waiting _ hk => exact hk
    | called _ _ hs _ _ =>
      have hsent : Milestone.send ∈ (f.nodes n).daemon.milestones :=
        List.mem_filterMap.mpr ⟨_, hs, rfl⟩
      have hlt := (hm.mem_iff (show course[5]? = some .send from rfl)).mp hsent
      omega
  · have hle := hk.complete_iff.mp hdone
    omega

section
variable {m : ℕ} {a : FleetLabel}

@[simp] theorem send_nodes (sessions : List InferenceSession) :
    (f.send env n sessions).nodes = f.nodes := rfl

@[simp] theorem abandon_nodes : (f.abandon n).nodes = f.nodes := by
  unfold abandon
  split <;> rfl

@[simp] theorem invoke_nodes (p : P2P) : (f.invoke n p).nodes = f.nodes := by
  unfold invoke
  split <;> rfl

@[simp] theorem invoke_p2p (p : P2P) : (f.invoke n p).p2p = p := by
  unfold invoke
  split <;> rfl

theorem abandon_server : (f.abandon n).p2p.server = f.p2p.server := by
  unfold abandon
  split <;> rfl

theorem Inv.driven_step (h : Inv env f standbyId) (hs : Stepped env f a g) (m : ℕ) :
    (g.nodes m).Driven := by
  have hset {n : ℕ} {l : DaemonLabel} {d : DaemonSystem} (hd : (f.nodes n).step l = some d) :
      ((f.setNode n d).nodes m).Driven := by
    by_cases hm : m = n
    · subst hm
      rw [setNode_self]
      exact (h.driven m).step hd
    · rw [setNode_of_ne hm]
      exact h.driven m
  cases hs with
  | quiet _ hd | answered _ hd => exact hset hd
  | sent _ hd => exact hset hd
  | abandoned _ hd =>
    rw [abandon_nodes]
    exact hset hd
  | served =>
    rw [invoke_nodes]
    exact h.driven m
  | moved | tookUp | standby => exact h.driven m

theorem Inv.same_step (h : Inv env f standbyId) (hs : Stepped env f a g) :
    g.p2p.server.SameAs (standbyServer standbyId) := by
  cases hs with
  | moved _ hp => exact (P2P.step_sameAs hp).trans h.same
  | served hp =>
    rw [invoke_p2p]
    exact (P2P.step_sameAs hp).trans h.same
  | abandoned =>
    rw [abandon_server]
    exact h.same
  | _ => exact h.same

/-- The connection of a node that has not called cannot move. -/
theorem not_moves_waiting {p : P2P} {l : P2PLabel} (hc : f.called n = false)
    (hk : f.p2p.conns n = { call := call env n [], client := .connecting }) (ha : f.allows l = true)
    (hp : f.p2p.step env.p2p l = some p) : l.conn ≠ some n := by
  intro hl
  cases P2P.stepped hl hp with
  | connected | unreachable =>
    rw [allows, hc] at ha
    cases ha
  | sender hs =>
    rw [hk] at hs
    cases hs
  | senderFailed hf =>
    rw [hk] at hf
    cases hf
  | wrote hf | hungUp hf =>
    rw [hk] at hf
    cases hf
  | accepted _ hne => exact hne (by rw [hk])
  | served hpoint | looped hpoint | left hpoint | gathered hpoint =>
    rw [hk] at hpoint
    cases hpoint
  | handlerFailed hpoint =>
    rcases hpoint with hpoint | hpoint | hpoint <;> rw [hk] at hpoint <;> cases hpoint

/-- A step of the transport keeps every node linked. -/
theorem Linked.moved {p : P2P} {l : P2PLabel} (h : Linked env f standbyId m)
    (hsame : f.p2p.server.SameAs (standbyServer standbyId)) (ha : f.allows l = true)
    (hp : f.p2p.step env.p2p l = some p) (hg : g.p2p = p) (hn : g.nodes = f.nodes)
    (hcalled : g.called = f.called) : Linked env g standbyId m := by
  cases h with
  | waiting hc hk hw hd =>
    refine .waiting (by rw [hcalled, hc]) ?_ (by rwa [hn]) (by rwa [hn])
    rw [hg, P2P.step_other (not_moves_waiting hc hk ha hp) hp, hk]
  | called sessions hc hs hh hd =>
    refine .called sessions (by rw [hcalled, hc]) (by rwa [hn]) (fun hl => ?_) fun hdone => ?_
    · obtain ⟨w, r, out, hh⟩ := hh hl
      rw [hg]
      by_cases hconn : l.conn = some m
      · exact hh.step hsame hl (fun hf => hf.elim) hconn hp
      · rw [P2P.step_other hconn hp]
        exact ⟨w, r, out, hh⟩
    · rw [hn] at hdone
      obtain ⟨ack, hack⟩ := hd hdone
      exact ⟨ack, by rw [hg]; exact P2P.step_returned hp hack⟩

/-- A step of another node, or of the standby. -/
theorem Linked.congr (h : Linked env f standbyId m) (hp : g.p2p.conns m = f.p2p.conns m)
    (hn : g.nodes m = f.nodes m) (hc : g.called m = f.called m) : Linked env g standbyId m := by
  cases h with
  | waiting hc' hk hw hd => exact .waiting (by rw [hc, hc']) (by rw [hp, hk]) (by rwa [hn]) (by rwa [hn])
  | called sessions hc' hs hh hd =>
    exact .called sessions (by rw [hc, hc']) (by rwa [hn]) (by rwa [hp]) (by rwa [hn, hp])

/-- What a node has logged stays in its log. -/
theorem Inv.logged (h : Inv env f standbyId) {l : DaemonLabel} {d : DaemonSystem}
    (hd : (f.nodes n).step l = some d) {e : DaemonEvent} (he : e ∈ (f.nodes n).daemon.events) :
    e ∈ d.daemon.events := by
  obtain ⟨new, hnew, -⟩ := DaemonSystem.step_events (h.driven n) hd
  rw [hnew]
  exact List.mem_append_left _ he

theorem Inv.linked_step (h : Inv env f standbyId) (hs : Stepped env f a g) (hm : m < env.size) :
    Linked env g standbyId m := by
  have hlink := h.linked m hm
  cases hs with
  | @quiet n l d hn hd hl hq =>
    by_cases hmn : m = n
    · subst hmn
      cases hlink with
      | waiting hc hk hw hdone =>
        refine .waiting hc hk (fun t s e hs => ?_) fun hdone' => ?_
        · rw [setNode_self] at hs
          exact hw t s e (hq t s e hs)
        · rw [setNode_self] at hdone'
          exact hdone (DaemonSystem.complete_of_step (h.driven m) hd hl hdone')
      | called sessions hc hs hh hdone =>
        refine .called sessions hc ?_ hh fun hdone' => ?_
        · rw [setNode_self]
          exact h.logged hd hs
        · rw [setNode_self] at hdone'
          exact hdone (DaemonSystem.complete_of_step (h.driven m) hd hl hdone')
    · exact hlink.congr rfl (setNode_of_ne hmn d) rfl
  | @answered n t wake d ack hn hd hs hack =>
    by_cases hmn : m = n
    · subst hmn
      cases hlink with
      | waiting _ hk =>
        rw [hk] at hack
        cases hack
      | called sessions hc hs hh hdone =>
        refine .called sessions hc ?_ hh fun _ => ⟨ack, hack⟩
        rw [setNode_self]
        exact h.logged hd hs
    · exact hlink.congr rfl (setNode_of_ne hmn d) rfl
  | @sent n t wake d sessions event hn hd hp hs =>
    by_cases hmn : m = n
    · subst hmn
      obtain ⟨hk, hsend, hdone⟩ := h.sent hm hd hs
      refine .called sessions ?_ ?_ (fun hl => ⟨0, 0, [], ?_⟩) fun hdone' => ?_
      · simp [send]
      · rwa [send_nodes, setNode_self]
      · simp only [send, P2P.put_self]
        exact handover_new
      · rw [send_nodes, setNode_self] at hdone'
        exact absurd hdone' hdone
    · refine hlink.congr ?_ (setNode_of_ne hmn d) ?_
      · simp only [send]
        rw [P2P.put_ne _ _ hmn]
        rfl
      · simp [send, hmn, setNode]
  | @abandoned n t d hn hd hs =>
    by_cases hmn : m = n
    · subst hmn
      cases hlink with
      | waiting _ _ hw =>
        obtain ⟨sessions, event, hs⟩ := hs
        exact absurd hs (hw t sessions event)
      | called sessions hc hsend hh hdone =>
        have hsend' : .send sessions ∈ (((f.setNode m d).abandon m).nodes m).daemon.events := by
          rw [abandon_nodes, setNode_self]
          exact h.logged hd hsend
        have hdone' (hd' : (((f.setNode m d).abandon m).nodes m).daemon.Complete) :
            ∃ ack, (f.p2p.conns m).client = .returned ack := by
          rw [abandon_nodes, setNode_self] at hd'
          exact hdone (DaemonSystem.complete_of_step (h.driven m) hd nofun hd')
        by_cases hend : (f.p2p.conns m).client.ended = true
        · have hsame : (f.setNode m d).abandon m = f.setNode m d := if_pos hend
          rw [hsame] at hsend' hdone' ⊢
          exact .called sessions hc hsend' hh hdone'
        · have hput : (f.setNode m d).abandon m = { f.setNode m d with
              p2p := f.p2p.put m ((f.p2p.conns m).raise (.exception "CancelledError")) } := if_neg hend
          rw [hput] at hsend' hdone' ⊢
          refine .called sessions hc hsend' (fun hl => ?_) fun hd' => ?_
          · obtain ⟨w, r, out, hh⟩ := hh hl
            refine ⟨w, r, out, ?_⟩
            rw [P2P.put_self]
            exact hh.raise (fun hr => absurd hr (not_rejected_of_ne fun _ => nofun)) fun hf => hf.elim
          · obtain ⟨ack, hack⟩ := hdone' hd'
            rw [hack] at hend
            exact absurd rfl hend
    · refine hlink.congr ?_ ?_ ?_
      · unfold abandon
        split
        · rfl
        · exact P2P.put_ne _ _ hmn _
      · rw [abandon_nodes, setNode_of_ne hmn]
      · unfold abandon
        split <;> rfl
  | moved ha hp => exact hlink.moved h.same ha hp rfl rfl rfl
  | served hp =>
    refine hlink.moved h.same rfl hp (invoke_p2p _) (invoke_nodes _) ?_
    unfold invoke
    split <;> rfl
  | tookUp | standby => exact hlink.congr rfl rfl rfl

theorem taken_concat (x : Takeover) (c : ℕ) :
    taken { f with takeovers := f.takeovers ++ [x] } c =
      f.taken c ++ if x.conn = c then [x.session] else [] := by
  unfold taken
  rw [List.filter_append, List.map_append]
  split <;> simp_all

theorem Inv.takes_step (h : Inv env f standbyId) (hs : Stepped env f a g) (c : ℕ) :
    TakesUp (g.p2p.conns c).handler (g.taken c) (g.adopting c) := by
  have htake := h.takes c
  have hcb : f.p2p.server.sessionCallbacks = [0] := h.same.sessionCallbacks
  have hmove {l : P2PLabel} {p : P2P} (hp : f.p2p.step env.p2p l = some p) :
      P2P.HandlerMoved l c [0] (f.p2p.conns c).handler (p.conns c).handler := by
    rw [← hcb]
    exact P2P.step_handler hp
  cases hs with
  | quiet | answered | standby => exact htake
  | @sent n t wake d sessions event hn hd hp hs =>
    have hhandler : ((f.p2p.put n { call := call env n sessions, client := .connecting }).conns c).handler =
        (f.p2p.conns c).handler := by
      by_cases hcn : c = n
      · subst hcn
        rw [P2P.put_self, (h.sent hn hd hs).1]
      · rw [P2P.put_ne _ _ hcn]
    simp only [send, setNode]
    rw [hhandler]
    exact htake
  | @abandoned n t d hn hd hs =>
    have hhandler : (((f.setNode n d).abandon n).p2p.conns c).handler = (f.p2p.conns c).handler := by
      unfold abandon
      split
      · rfl
      · by_cases hcn : c = n
        · subst hcn
          simp only [setNode, P2P.put_self]
          rfl
        · simp only [setNode]
          rw [P2P.put_ne _ _ hcn]
    have hrest : ((f.setNode n d).abandon n).taken c = f.taken c ∧
        ((f.setNode n d).abandon n).adopting c = f.adopting c := by
      unfold abandon
      split <;> exact ⟨rfl, rfl⟩
    rw [hhandler, hrest.1, hrest.2]
    exact htake
  | @moved l p ha hp hl =>
    refine htake.moved (hmove hp) (fun hc => ?_) fun _ => hl c
    rw [hc] at ha
    simpa [allows] using ha
  | @served c' p hp =>
    unfold invoke
    by_cases hcc : c = c'
    · subst hcc
      have hx : (f.p2p.conns c).handler.point ≠ .gathering := by
        cases P2P.stepped rfl hp with
        | served hpoint | looped hpoint | left hpoint =>
          rw [hpoint]
          decide
      split
      · rename_i hy
        simp only [Function.update_self]
        exact htake.invoked (hmove hp) hx hy
      · rename_i hy
        exact htake.moved (hmove hp) nofun fun hg => absurd hg hy
    · have hconn : p.conns c = f.p2p.conns c := by
        refine P2P.step_other (fun hc => hcc ?_) hp
        exact (Option.some.inj hc).symm
      split
      · simp only [Function.update_of_ne hcc]
        rw [hconn]
        exact htake
      · show TakesUp (p.conns c).handler _ _
        rw [hconn]
        exact htake
  | @tookUp c' now s rest ha =>
    show TakesUp (f.p2p.conns c).handler (taken { f with takeovers := f.takeovers ++ [_] } c) _
    rw [taken_concat]
    by_cases hcc : c = c'
    · subst hcc
      rw [if_pos rfl]
      simp only [Function.update_self]
      rw [ha] at htake
      exact htake.next
    · rw [if_neg (Ne.symm hcc), List.append_nil]
      simp only [Function.update_of_ne hcc]
      exact htake

/-- What holds of a fleet holds after each step. -/
theorem Inv.step (h : Inv env f standbyId) (hs : Fleet.step env f a = some g) :
    Inv env g standbyId where
  driven := h.driven_step (.of_step hs)
  same := h.same_step (.of_step hs)
  linked _ hm := h.linked_step (.of_step hs) hm
  takes := h.takes_step (.of_step hs)

theorem inv_run {ls : List FleetLabel} (hr : Machine.run (Fleet.step env) (new env standbyId) ls = some f) :
    Inv env f standbyId :=
  Machine.run_inv (I := fun f => Inv env f standbyId) (fun _ _ _ h hs => h.step hs) inv_new hr

/-! ### What is taken up -/

/-- A session that is taken up is in the registry of the standby, and announced. -/
theorem takeovers_step (hs : Stepped env f a g) : g.takeovers = f.takeovers ∨
    ∃ x : Takeover, g.takeovers = f.takeovers ++ [x] ∧ (∃ now, x.ready = x.session.ready now) ∧
      g.standby.daemon.activeSessions.get? x.session.requestId = some x.session := by
  cases hs with
  | @tookUp c now s rest ha =>
    exact Or.inr ⟨⟨c, s, s.ready now⟩, rfl, ⟨now, rfl⟩, Dict.get?_set_self _ _ _⟩
  | abandoned =>
    left
    unfold abandon
    split <;> rfl
  | served =>
    left
    unfold invoke
    split <;> rfl
  | _ => exact Or.inl rfl

theorem takeover_run {ls : List FleetLabel} {x : Takeover}
    (hr : Machine.run (Fleet.step env) (new env standbyId) ls = some f) (hx : x ∈ f.takeovers) :
    (∃ now, x.ready = x.session.ready now) ∧ ∃ bs g, bs <+: ls ∧
      Machine.run (Fleet.step env) (new env standbyId) bs = some g ∧
      g.standby.daemon.activeSessions.get? x.session.requestId = some x.session := by
  obtain ⟨bs, a, t, v, hbs, ht, hv, hno, hyes⟩ :=
    Machine.exists_step (Φ := fun f : Fleet => x ∈ f.takeovers) hr List.not_mem_nil hx
  rcases takeovers_step (.of_step hv) with hsame | ⟨y, hy, hready, hstored⟩
  · rw [hsame] at hyes
    exact absurd hyes hno
  · rw [hy, List.mem_append, List.mem_singleton] at hyes
    obtain rfl : x = y := hyes.resolve_left hno
    exact ⟨hready, bs ++ [a], v, hbs, Machine.run_concat_eq_some.mpr ⟨t, ht, hv⟩, hstored⟩

end

end Fleet

theorem SendSessions.ingested_sublist {penv : P2PEnv} {c : ℕ} {call : SendSessions} {r : ℕ}
    (hr : r ≤ call.sessions.length) :
    (call.ingested penv c (r + 1)).Sublist (call.sessions.take r) := by
  induction r with
  | zero => simp [ingested, frame]
  | succ r ih =>
    rw [ingested_succ, List.take_succ_eq_append_getElem (by omega)]
    refine (ih (by omega)).append ?_
    split
    · exact List.nil_sublist _
    · rw [frame_state (by omega)]

namespace Fleet

variable {env : FleetEnv} {f : Fleet} {standbyId : String} {ls : List FleetLabel} {n : ℕ}

/-- What is announced to the proxy for the sessions of connection `c`. -/
def announced (f : Fleet) (c : ℕ) : List (String × ℤ) :=
  (f.takeovers.filter (·.conn = c)).map fun x => (x.ready.requestId, x.ready.startingSequenceId)

theorem announced_eq (hr : Machine.run (Fleet.step env) (new env standbyId) ls = some f) (c : ℕ) :
    f.announced c = (f.taken c).map fun s => (s.requestId, s.lastFlushedSequenceId + 1) := by
  unfold announced taken
  rw [List.map_map]
  refine List.map_congr_left fun x hx => ?_
  obtain ⟨⟨now, hready⟩, -⟩ := takeover_run hr (List.mem_filter.mp hx).1
  rw [hready]
  rfl

/-- Of a node whose call is acknowledged, all that it has sent is taken up. -/
theorem Inv.taken_of_returned (h : Inv env f standbyId) (hn : n < env.size) {ack : HandoverAck}
    (hack : (f.p2p.conns n).client = .returned ack)
    (hload : ∀ sessions, .send sessions ∈ (f.nodes n).daemon.events →
      (call env n sessions).Loads env.p2p (standbyServer standbyId) n) :
    ∃ sessions, .send sessions ∈ (f.nodes n).daemon.events ∧
      ack.acceptedRequestIds = sessions.map (·.requestId) ∧ f.taken n = sessions := by
  cases h.linked n hn with
  | waiting _ hk =>
    rw [hk] at hack
    cases hack
  | called sessions _ hs hh _ =>
    obtain ⟨w, r, out, hh⟩ := hh (hload sessions hs)
    obtain ⟨hcalls, hids⟩ := hh.of_returned hack
    obtain ⟨-, -, -, -, hsettled⟩ := hh.returned ack hack
    exact ⟨sessions, hs, hids, (h.takes n).of_settled hsettled hcalls⟩

/-- **A handover that is over has been taken up.** However the nodes, the
transport, the callbacks and the standby interleave, and whatever is altered or
lost on the way: when a node is in HANDOVER_COMPLETE or TERMINATED, each
session that it sent has been stored in the registry of the standby, and has
been announced to the proxy with the sequence id after the last one flushed, in
the order of the sending and once. -/
theorem handover_complete (hr : Machine.run (Fleet.step env) (new env standbyId) ls = some f)
    (hn : n < env.size) (hdone : (f.nodes n).daemon.Complete)
    (hload : ∀ sessions, .send sessions ∈ (f.nodes n).daemon.events →
      (call env n sessions).Loads env.p2p (standbyServer standbyId) n) :
    ∃ sessions ack, .send sessions ∈ (f.nodes n).daemon.events ∧
      (f.p2p.conns n).client = .returned ack ∧
      ack.acceptedRequestIds = sessions.map (·.requestId) ∧ f.taken n = sessions ∧
      f.announced n = sessions.map (fun s => (s.requestId, s.lastFlushedSequenceId + 1)) ∧
      ∀ s ∈ sessions, ∃ bs g, bs <+: ls ∧
        Machine.run (Fleet.step env) (new env standbyId) bs = some g ∧
        g.standby.daemon.activeSessions.get? s.requestId = some s := by
  have hinv := inv_run hr
  obtain ⟨ack, hack⟩ : ∃ ack, (f.p2p.conns n).client = .returned ack := by
    cases hinv.linked n hn with
    | waiting _ _ _ hd => exact absurd hdone hd
    | called _ _ _ _ hd => exact hd hdone
  obtain ⟨sessions, hs, hids, htaken⟩ := hinv.taken_of_returned hn hack hload
  refine ⟨sessions, ack, hs, hack, hids, htaken, ?_, fun s hmem => ?_⟩
  · rw [announced_eq hr, htaken]
  · rw [← htaken, taken, List.mem_map] at hmem
    obtain ⟨x, hx, rfl⟩ := hmem
    exact (takeover_run hr (List.mem_filter.mp hx).1).2

/-- What is taken up from a node is a part of what it has sent. -/
theorem Inv.taken_part (h : Inv env f standbyId) (hn : n < env.size)
    (hload : ∀ sessions, .send sessions ∈ (f.nodes n).daemon.events →
      (call env n sessions).Loads env.p2p (standbyServer standbyId) n) :
    f.taken n = [] ∨ ∃ sessions, .send sessions ∈ (f.nodes n).daemon.events ∧
      (f.taken n).Sublist sessions := by
  cases h.linked n hn with
  | waiting _ hk =>
    left
    have hnil : (f.p2p.conns n).handler.invocations = [] ∨
        (f.p2p.conns n).handler.invocations = (standbyServer standbyId).callsFor [] := by
      rw [hk]
      exact Or.inl rfl
    exact List.prefix_nil.mp ((h.takes n).prefix_of hnil)
  | called sessions _ hs hh _ =>
    right
    obtain ⟨w, r, out, hh⟩ := hh (hload sessions hs)
    have hcalls : (f.p2p.conns n).handler.invocations = [] ∨
        (f.p2p.conns n).handler.invocations = (call env n sessions).calls env.p2p (standbyServer standbyId) n :=
      hh.invocations_eq.imp_right And.left
    have hpre := (h.takes n).prefix_of hcalls
    refine ⟨sessions, hs, hpre.sublist.trans ?_⟩
    rw [SendSessions.ingested_total]
    exact (SendSessions.ingested_sublist le_rfl).trans (List.take_sublist _ _)

/-- **Nothing is made up, and nothing twice.** At any time what the standby has
taken up from a node, and announced, is what the node sent or a part of it, in
the same order; nothing before the node has sent. -/
theorem taken_sublist (hr : Machine.run (Fleet.step env) (new env standbyId) ls = some f)
    (hn : n < env.size)
    (hload : ∀ sessions, .send sessions ∈ (f.nodes n).daemon.events →
      (call env n sessions).Loads env.p2p (standbyServer standbyId) n) :
    f.taken n = [] ∨ ∃ sessions, .send sessions ∈ (f.nodes n).daemon.events ∧
      (f.taken n).Sublist sessions :=
  (inv_run hr).taken_part hn hload

end Fleet
end Sgm
