/-
# The node daemon

`NodeDaemon.on_preemption`, from one suspension to the next, and the session
registry it migrates. Any number of calls may be under way, triggered by the
watchdog and by the control API; what an awaited operation brings is in the
label of the step that resumes the call (`Wakeup`). `_get_http_session` and the
acquisition of a free lock do not suspend, and so are inside a step.

The log (`events`) is of the model: what the daemon has sent, and the states it
has gone through.

Key definitions: `NodeDaemon`, `NodeDaemon.setState`, `PreemptionPoint`,
`NodeDaemon.resume`, `DaemonSystem.step`.
Key theorems: `NodeDaemon.setState_of_free`, `NodeDaemon.resume_cases`.
-/
import Sgm.Lib.Dict
import Sgm.Lib.Machine
import Sgm.Models

namespace Sgm

/-! ### The daemon -/

/-- What a daemon does; each state with the ids in the registry at that time. -/
inductive DaemonEvent
  | state (new : NodeLifecycleState) (registered : List String)
  | alert (payload : PreemptionAlertPayload)
  | abort (requestId : String)
  | pause
  | send (sessions : List InferenceSession)
  | acked (ack : HandoverAck)
  | failed (requestIds : List String)
  deriving DecidableEq

structure NodeDaemon where
  nodeId : String := "spot-node-01"
  proxyUrl : String := "http://127.0.0.1:8000"
  state : NodeLifecycleState := .healthy
  stateLock : Bool := false
  activeSessions : Dict String InferenceSession := Dict.empty
  events : List DaemonEvent := []

/-- A request as the proxy lists it; an entry may lack all but the id. -/
structure ActiveRequest where
  requestId : String
  prompt : Option PyStr := none
  lastFlushedSequenceId : Option ℤ := none
  model : Option PyStr := none
  deriving DecidableEq

/-- The session made of a listed request. -/
def ActiveRequest.session (r : ActiveRequest) : InferenceSession where
  requestId := r.requestId
  prompt := r.prompt.getD []
  lastFlushedSequenceId := r.lastFlushedSequenceId.getD (-1)
  model := r.model.getD "mock-llm"

/-- What an awaited operation brings. -/
inductive Awaited
  | ok
  | status (code : ℕ)
  /-- the listed requests; `none` is an entry that raises -/
  | body (requests : List (Option ActiveRequest))
  | ack (ack : HandoverAck)
  | error (e : Exc)

/-- What a resumed call meets: the reply, the time, and what `on_state_change`
raises when it is told a state. -/
structure Wakeup where
  reply : Awaited := .ok
  timeNs : ℤ := 0
  onStateChange : NodeLifecycleState → Option Exc := fun _ => none

/-- Where a call of `on_preemption` is suspended, or how it ended. -/
inductive PreemptionPoint
  | idle
  | called (event : PreemptionEvent)
  /-- the guard has turned it away -/
  | ignored
  /-- in `set_state`, while another holds the lock -/
  | acquiring (new : NodeLifecycleState) (event : PreemptionEvent)
  /-- waiting for the list of the proxy, for its body, and for its end -/
  | syncing (event : PreemptionEvent)
  | readingSync (event : PreemptionEvent)
  | leavingSync (event : PreemptionEvent)
  | notifying (event : PreemptionEvent)
  | aborting (ids : List String) (event : PreemptionEvent)
  | pausing (event : PreemptionEvent)
  /-- in `send_sessions`; the objects are shared with the registry, so only
  their ids stay what they are here -/
  | sending (sessionsToMigrate : List InferenceSession) (event : PreemptionEvent)
  | failing (e : Exc)
  | tearingDown
  | returned
  | raised (e : Exc)
  /-- cancelled before it began, and later -/
  | dropped
  | cancelled
  deriving DecidableEq

/-- How a `set_state` goes. -/
inductive SetState
  | acquiring
  | raised (e : Exc) (d : NodeDaemon)
  | done (d : NodeDaemon)

namespace NodeDaemon

variable (d : NodeDaemon)

def log (e : DaemonEvent) : NodeDaemon := { d with events := d.events ++ [e] }

/-! ### The registry -/

def registerSession (session : InferenceSession) : NodeDaemon :=
  { d with activeSessions := d.activeSessions.set session.requestId session }

def updateSessionToken (requestId : String) (tokenId : ℤ) (tokenStr : PyStr) (sequenceId : ℤ) :
    NodeDaemon :=
  match d.activeSessions.get? requestId with
  | some session =>
    { d with
      activeSessions := d.activeSessions.set requestId { session with
        generatedTokens := session.generatedTokens ++ [tokenId]
        generatedText := session.generatedText ++ [tokenStr]
        totalTokensGenerated := session.totalTokensGenerated + 1
        lastFlushedSequenceId := sequenceId } }
  | none => d

def completeSession (requestId : String) : NodeDaemon :=
  { d with activeSessions := d.activeSessions.pop requestId }

/-- The loop over the listed requests. An entry that raises ends it. -/
def syncSessions (d : NodeDaemon) : List (Option ActiveRequest) → NodeDaemon
  | some r :: rs =>
    syncSessions { d with activeSessions := d.activeSessions.set r.requestId r.session } rs
  | _ => d

/-! ### `on_preemption` -/

/-- `set_state`, under the lock. -/
def setState (new : NodeLifecycleState) (hook : NodeLifecycleState → Option Exc) : SetState :=
  if d.stateLock then .acquiring
  else
    let d := { d with stateLock := true }
    if d.state = new then .done { d with stateLock := false }
    else
      let d := { d with state := new }.log (.state new d.activeSessions.keys)
      match hook new with
      | some e => .raised e { d with stateLock := false }
      | none => .done { d with stateLock := false }

/-- Up to the end of the call, from the last `set_state`. -/
def enterTerminated (event : PreemptionEvent) (wake : Wakeup) : NodeDaemon × PreemptionPoint :=
  match d.setState .terminated wake.onStateChange with
  | .acquiring => (d, .acquiring .terminated event)
  | .raised e d => (d, .raised e)
  | .done d => (d, .tearingDown)

/-- `_notify_proxy_failure`, in the handler of the exception. -/
def notifyProxyFailure (e : Exc) : NodeDaemon × PreemptionPoint :=
  (d.log (.failed d.activeSessions.keys), .failing e)

def enterHandoverComplete (event : PreemptionEvent) (wake : Wakeup) : NodeDaemon × PreemptionPoint :=
  match d.setState .handoverComplete wake.onStateChange with
  | .acquiring => (d, .acquiring .handoverComplete event)
  | .raised e d => d.notifyProxyFailure e
  | .done d => d.enterTerminated event wake

def enterStateStreaming (event : PreemptionEvent) (wake : Wakeup) : NodeDaemon × PreemptionPoint :=
  match d.setState .stateStreaming wake.onStateChange with
  | .acquiring => (d, .acquiring .stateStreaming event)
  | .raised e d => (d, .raised e)
  | .done d => (d.log (.send d.activeSessions.values), .sending d.activeSessions.values event)

/-- `_pause_local_engine`: the requests are aborted one by one, then the engine is paused. -/
def pauseLocalEngine (event : PreemptionEvent) : List String → NodeDaemon × PreemptionPoint
  | id :: ids => (d.log (.abort id), .aborting ids event)
  | [] => (d.log .pause, .pausing event)

def enterBufferingIngress (event : PreemptionEvent) (wake : Wakeup) : NodeDaemon × PreemptionPoint :=
  match d.setState .bufferingIngress wake.onStateChange with
  | .acquiring => (d, .acquiring .bufferingIngress event)
  | .raised e d => (d, .raised e)
  | .done d => d.pauseLocalEngine event d.activeSessions.keys

/-- The largest sequence id flushed, over the registry. -/
def cutoffSeq : ℤ :=
  d.activeSessions.values.foldl
    (fun cutoff s => if s.lastFlushedSequenceId > cutoff then s.lastFlushedSequenceId else cutoff) (-1)

def notifyProxyPreemption (event : PreemptionEvent) (wake : Wakeup) : NodeDaemon × PreemptionPoint :=
  (d.log (.alert {
    nodeId := d.nodeId
    provider := event.provider
    deadlineSeconds := event.deadlineSeconds
    cutoffSequenceId := d.cutoffSeq
    activeRequestIds := d.activeSessions.keys
    timestampNs := wake.timeNs }), .notifying event)

def enterPreemptionDetected (event : PreemptionEvent) (wake : Wakeup) :
    NodeDaemon × PreemptionPoint :=
  match d.setState .preemptionDetected wake.onStateChange with
  | .acquiring => (d, .acquiring .preemptionDetected event)
  | .raised e d => (d, .raised e)
  | .done d =>
    if d.activeSessions.size = 0 ∧ d.proxyUrl ≠ "" then (d, .syncing event)
    else d.notifyProxyPreemption event wake

/-- The beginning of `on_preemption`: the guard reads the state without the lock. -/
def onPreemption (event : PreemptionEvent) (wake : Wakeup) : NodeDaemon × PreemptionPoint :=
  if d.state ≠ .healthy then (d, .ignored) else d.enterPreemptionDetected event wake

/-- A `set_state` that has waited for the lock. -/
def enter (new : NodeLifecycleState) (event : PreemptionEvent) (wake : Wakeup) :
    NodeDaemon × PreemptionPoint :=
  match new with
  | .healthy => (d, .acquiring .healthy event)
  | .preemptionDetected => d.enterPreemptionDetected event wake
  | .bufferingIngress => d.enterBufferingIngress event wake
  | .stateStreaming => d.enterStateStreaming event wake
  | .handoverComplete => d.enterHandoverComplete event wake
  | .terminated => d.enterTerminated event wake

/-- A call goes on to its next suspension. -/
def resume (point : PreemptionPoint) (wake : Wakeup) : Option (NodeDaemon × PreemptionPoint) :=
  match point, wake.reply with
  | .called event, .ok => some (d.onPreemption event wake)
  | .acquiring new event, .ok => if d.stateLock then none else some (d.enter new event wake)
  | .syncing event, .status code =>
    some (d, if code = 200 then .readingSync event else .leavingSync event)
  | .syncing event, .error _ => some (d.notifyProxyPreemption event wake)
  | .readingSync event, .body requests => some (d.syncSessions requests, .leavingSync event)
  | .readingSync event, .error _ => some (d, .leavingSync event)
  | .leavingSync event, .ok | .leavingSync event, .error _ =>
    some (d.notifyProxyPreemption event wake)
  | .notifying event, .ok | .notifying event, .error _ => some (d.enterBufferingIngress event wake)
  | .aborting ids event, .ok | .aborting ids event, .error _ => some (d.pauseLocalEngine event ids)
  | .pausing event, .ok | .pausing event, .error _ => some (d.enterStateStreaming event wake)
  | .sending _ event, .ack ack => some ((d.log (.acked ack)).enterHandoverComplete event wake)
  | .sending _ _, .error e => some (d.notifyProxyFailure e)
  | .failing e, .ok | .failing e, .error _ => some (d, .raised e)
  | .tearingDown, .ok => some (d, .returned)
  | .tearingDown, .error e => some (d, .raised e)
  | _, _ => none

end NodeDaemon

namespace PreemptionPoint

/-- The guard has let the call pass. -/
def Passed : PreemptionPoint → Prop
  | .idle | .called _ | .ignored | .dropped => False
  | _ => True

instance : DecidablePred Passed := fun p => by
  cases p <;> first | exact isTrue trivial | exact isFalse id

/-- A call that is cancelled where it is suspended. -/
def cancel : PreemptionPoint → Option PreemptionPoint
  | .called _ => some .dropped
  | .idle | .ignored | .returned | .raised _ | .dropped | .cancelled => none
  | _ => some .cancelled

end PreemptionPoint

/-! ### The system -/

structure DaemonSystem where
  daemon : NodeDaemon
  tasks : ℕ → PreemptionPoint

inductive DaemonLabel
  /-- `on_preemption` is called, as a task -/
  | trigger (t : ℕ) (event : PreemptionEvent)
  | resume (t : ℕ) (wake : Wakeup)
  | cancel (t : ℕ)
  | registerSession (session : InferenceSession)
  | updateSessionToken (requestId : String) (tokenId : ℤ) (tokenStr : PyStr) (sequenceId : ℤ)
  | completeSession (requestId : String)
  /-- `_on_standby_sessions_received` stores the next of the sessions -/
  | standbySession (session : InferenceSession)

namespace DaemonSystem

/-- A daemon that has just been made. -/
def new (nodeId proxyUrl : String) : DaemonSystem where
  daemon := { nodeId := nodeId, proxyUrl := proxyUrl }
  tasks := fun _ => .idle

variable (p : DaemonSystem)

def put (t : ℕ) (x : NodeDaemon × PreemptionPoint) : DaemonSystem where
  daemon := x.1
  tasks := Function.update p.tasks t x.2

def step (p : DaemonSystem) : DaemonLabel → Option DaemonSystem
  | .trigger t event => if p.tasks t = .idle then some (p.put t (p.daemon, .called event)) else none
  | .resume t wake => (p.daemon.resume (p.tasks t) wake).map (p.put t)
  | .cancel t => (p.tasks t).cancel.map fun point => p.put t (p.daemon, point)
  | .registerSession session | .standbySession session =>
    some { p with daemon := p.daemon.registerSession session }
  | .updateSessionToken requestId tokenId tokenStr sequenceId =>
    some { p with daemon := p.daemon.updateSessionToken requestId tokenId tokenStr sequenceId }
  | .completeSession requestId => some { p with daemon := p.daemon.completeSession requestId }

/-! ### What a step does -/

@[simp] theorem put_tasks_self (t : ℕ) (x : NodeDaemon × PreemptionPoint) :
    (p.put t x).tasks t = x.2 := Function.update_self ..

theorem put_tasks_ne {t t' : ℕ} (h : t' ≠ t) (x : NodeDaemon × PreemptionPoint) :
    (p.put t x).tasks t' = p.tasks t' := Function.update_of_ne h ..

end DaemonSystem

namespace NodeDaemon

variable (d : NodeDaemon)

/-- The daemon in another state. -/
def moved (new : NodeLifecycleState) : NodeDaemon :=
  { d with state := new }.log (.state new d.activeSessions.keys)

@[simp] theorem log_activeSessions (e : DaemonEvent) :
    (d.log e).activeSessions = d.activeSessions := rfl

@[simp] theorem moved_activeSessions (new : NodeLifecycleState) :
    (d.moved new).activeSessions = d.activeSessions := rfl

/-- A `set_state` with a free lock does not suspend, and leaves it free. -/
theorem setState_of_free {d : NodeDaemon} {new : NodeLifecycleState}
    {hook : NodeLifecycleState → Option Exc} (hd : d.stateLock = false) (hne : d.state ≠ new) :
    d.setState new hook =
      match hook new with
      | some e => .raised e (d.moved new)
      | none => .done (d.moved new) := by
  obtain ⟨nodeId, proxyUrl, state, lock, sessions, events⟩ := d
  obtain rfl : lock = false := hd
  have hst : state ≠ new := hne
  simp only [setState, Bool.false_eq_true, if_false, if_neg hst, moved, log]

/-- The sync touches the registry alone. -/
theorem syncSessions_eq (requests : List (Option ActiveRequest)) :
    ∃ sessions, d.syncSessions requests = { d with activeSessions := sessions } := by
  induction requests generalizing d with
  | nil => exact ⟨_, rfl⟩
  | cons r rs ih =>
    cases r with
    | none => exact ⟨_, rfl⟩
    | some r => exact ih { d with activeSessions := d.activeSessions.set r.requestId r.session }

/-- `d'` is `d` after it has entered none but these states, each with the
registry as it was, and is. -/
structure Extends (d : NodeDaemon) (news : List NodeLifecycleState) (d' : NodeDaemon) : Prop where
  registry : d'.activeSessions = d.activeSessions
  events : ∃ l, d'.events = d.events ++ l ∧ ∀ new registered, .state new registered ∈ l →
    new ∈ news ∧ registered = d.activeSessions.keys

/-- The same of a call, which if it is sending has taken the whole registry. -/
structure Follows (d : NodeDaemon) (news : List NodeLifecycleState)
    (x : NodeDaemon × PreemptionPoint) : Prop where
  extends_ : d.Extends news x.1
  sending : ∀ sessions event, x.2 = .sending sessions event → sessions = d.activeSessions.values

variable {d} {d' d'' : NodeDaemon} {news news' : List NodeLifecycleState} {event : PreemptionEvent}
  {wake : Wakeup}

theorem Extends.refl (d : NodeDaemon) (news : List NodeLifecycleState) : d.Extends news d :=
  ⟨rfl, [], by simp, by simp⟩

theorem Extends.trans (h : d.Extends news d') (h' : d'.Extends news d'') : d.Extends news d'' := by
  obtain ⟨l, hl, hst⟩ := h.events
  obtain ⟨l', hl', hst'⟩ := h'.events
  refine ⟨h'.registry.trans h.registry, l ++ l', by rw [hl', hl, List.append_assoc], ?_⟩
  intro new registered hmem
  rcases List.mem_append.mp hmem with hmem | hmem
  · exact hst new registered hmem
  · have hr := hst' new registered hmem
    exact ⟨hr.1, h.registry ▸ hr.2⟩

theorem Extends.mono (h : d.Extends news d') (hsub : news ⊆ news') : d.Extends news' d' := by
  obtain ⟨l, hl, hst⟩ := h.events
  exact ⟨h.registry, l, hl, fun new registered hmem =>
    ⟨hsub (hst new registered hmem).1, (hst new registered hmem).2⟩⟩

theorem extends_log (d : NodeDaemon) {e : DaemonEvent} (he : ∀ new registered, e ≠ .state new registered) :
    d.Extends news (d.log e) :=
  ⟨rfl, [e], rfl, fun new registered hmem => absurd (List.mem_singleton.mp hmem).symm (he new registered)⟩

theorem Follows.mono {x : NodeDaemon × PreemptionPoint} (h : d.Follows news x)
    (hsub : news ⊆ news') : d.Follows news' x :=
  ⟨h.extends_.mono hsub, h.sending⟩

theorem Extends.follows (h : d.Extends news d') {x : NodeDaemon × PreemptionPoint}
    (h' : d'.Follows news x) : d.Follows news x :=
  ⟨h.trans h'.extends_, fun sessions event hx => h.registry ▸ h'.sending sessions event hx⟩

/-- To a point where nothing is being sent. -/
theorem Extends.to (h : d.Extends news d') {point : PreemptionPoint}
    (hp : ∀ sessions event, point ≠ .sending sessions event) : d.Follows news (d', point) :=
  ⟨h, fun sessions event hx => absurd hx (hp sessions event)⟩

/-- A `set_state` enters the new state, or nothing. -/
theorem setState_extends {new : NodeLifecycleState} {hook : NodeLifecycleState → Option Exc}
    (h : d.setState new hook = .done d' ∨ ∃ e, d.setState new hook = .raised e d') :
    d.Extends [new] d' := by
  unfold setState at h
  split at h
  · rcases h with h | ⟨e, h⟩ <;> cases h
  · dsimp only at h
    split at h
    · rcases h with h | ⟨e, h⟩
      · obtain rfl := SetState.done.inj h
        exact ⟨rfl, [], by simp, by simp⟩
      · cases h
    · have hd : d' = { d with
          state := new
          stateLock := false
          events := d.events ++ [.state new d.activeSessions.keys] } := by
        split at h
        · rcases h with h | ⟨e, h⟩
          · cases h
          · exact (SetState.raised.inj h).2.symm
        · rcases h with h | ⟨e, h⟩
          · exact (SetState.done.inj h).symm
          · cases h
      rw [hd]
      refine ⟨rfl, _, rfl, fun new' registered hmem => ?_⟩
      obtain ⟨rfl, rfl⟩ := DaemonEvent.state.inj (List.mem_singleton.mp hmem)
      exact ⟨List.mem_singleton.mpr rfl, rfl⟩

theorem notifyProxyFailure_follows (e : Exc) : d.Follows news (d.notifyProxyFailure e) :=
  (d.extends_log fun _ _ he => by cases he).to fun _ _ he => by cases he

theorem enterTerminated_follows : d.Follows [.terminated] (d.enterTerminated event wake) := by
  unfold enterTerminated
  split
  · exact (Extends.refl d _).to fun _ _ he => by cases he
  · rename_i h
    exact (setState_extends (Or.inr ⟨_, h⟩)).to fun _ _ he => by cases he
  · rename_i h
    exact (setState_extends (Or.inl h)).to fun _ _ he => by cases he

theorem enterHandoverComplete_follows :
    d.Follows [.handoverComplete, .terminated] (d.enterHandoverComplete event wake) := by
  unfold enterHandoverComplete
  split
  · exact (Extends.refl d _).to fun _ _ he => by cases he
  · rename_i h
    have hsub : [NodeLifecycleState.handoverComplete] ⊆ [.handoverComplete, .terminated] := by decide
    exact ((setState_extends (Or.inr ⟨_, h⟩)).mono hsub).follows (notifyProxyFailure_follows _)
  · rename_i h
    have hsub : [NodeLifecycleState.handoverComplete] ⊆ [.handoverComplete, .terminated] := by decide
    exact ((setState_extends (Or.inl h)).mono hsub).follows
      (enterTerminated_follows.mono (by decide))

theorem enterStateStreaming_follows :
    d.Follows [.stateStreaming] (d.enterStateStreaming event wake) := by
  unfold enterStateStreaming
  split
  · exact (Extends.refl d _).to fun _ _ he => by cases he
  · rename_i h
    exact (setState_extends (Or.inr ⟨_, h⟩)).to fun _ _ he => by cases he
  · rename_i d' h
    have hset := setState_extends (Or.inl h)
    refine ⟨hset.trans (d'.extends_log fun _ _ he => by cases he), fun sessions event' hx => ?_⟩
    obtain ⟨rfl, -⟩ := PreemptionPoint.sending.inj hx
    exact congrArg Dict.values hset.registry

theorem pauseLocalEngine_follows (ids : List String) :
    d.Follows news (d.pauseLocalEngine event ids) := by
  cases ids with
  | nil => exact (d.extends_log fun _ _ he => by cases he).to fun _ _ he => by cases he
  | cons id ids => exact (d.extends_log fun _ _ he => by cases he).to fun _ _ he => by cases he

theorem enterBufferingIngress_follows :
    d.Follows [.bufferingIngress] (d.enterBufferingIngress event wake) := by
  unfold enterBufferingIngress
  split
  · exact (Extends.refl d _).to fun _ _ he => by cases he
  · rename_i h
    exact (setState_extends (Or.inr ⟨_, h⟩)).to fun _ _ he => by cases he
  · rename_i h
    exact (setState_extends (Or.inl h)).follows (pauseLocalEngine_follows _)

theorem notifyProxyPreemption_follows : d.Follows news (d.notifyProxyPreemption event wake) :=
  (d.extends_log fun _ _ he => by cases he).to fun _ _ he => by cases he

theorem enterPreemptionDetected_follows :
    d.Follows [.preemptionDetected] (d.enterPreemptionDetected event wake) := by
  unfold enterPreemptionDetected
  split
  · exact (Extends.refl d _).to fun _ _ he => by cases he
  · rename_i h
    exact (setState_extends (Or.inr ⟨_, h⟩)).to fun _ _ he => by cases he
  · rename_i h
    have hset := setState_extends (Or.inl h)
    split
    · exact hset.to fun _ _ he => by cases he
    · exact hset.follows notifyProxyPreemption_follows

/-- The states before the acknowledgement. -/
def earlyStates : List NodeLifecycleState :=
  [.preemptionDetected, .bufferingIngress, .stateStreaming]

/-- What a call does that goes on: it gets the acknowledgement, or it stores
the list of the proxy, or it leaves the registry alone. -/
theorem resume_cases {point : PreemptionPoint} {x : NodeDaemon × PreemptionPoint}
    (hp : ∀ new event, point ≠ .acquiring new event) (hx : d.resume point wake = some x) :
    (∃ sessions event ack, point = .sending sessions event ∧ wake.reply = .ack ack ∧
      x = (d.log (.acked ack)).enterHandoverComplete event wake) ∨
    (∃ event requests, point = .readingSync event ∧ wake.reply = .body requests ∧
      x = (d.syncSessions requests, .leavingSync event)) ∨
    d.Follows earlyStates x := by
  unfold resume at hx
  split at hx
  case h_1 =>
    refine Or.inr (Or.inr (Option.some.inj hx ▸ ?_))
    unfold onPreemption
    split
    · exact (Extends.refl d _).to fun _ _ he => by cases he
    · exact enterPreemptionDetected_follows.mono (by decide)
  case h_2 new event _ => exact absurd rfl (hp new event)
  case h_3 =>
    refine Or.inr (Or.inr (Option.some.inj hx ▸ (Extends.refl d _).to fun _ _ he => ?_))
    split at he <;> cases he
  case h_4 | h_7 | h_8 => exact Or.inr (Or.inr (Option.some.inj hx ▸ notifyProxyPreemption_follows))
  case h_5 event requests hreply =>
    exact Or.inr (Or.inl ⟨event, requests, rfl, hreply, (Option.some.inj hx).symm⟩)
  case h_9 | h_10 =>
    exact Or.inr (Or.inr (Option.some.inj hx ▸ enterBufferingIngress_follows.mono (by decide)))
  case h_11 | h_12 => exact Or.inr (Or.inr (Option.some.inj hx ▸ pauseLocalEngine_follows _))
  case h_13 | h_14 =>
    exact Or.inr (Or.inr (Option.some.inj hx ▸ enterStateStreaming_follows.mono (by decide)))
  case h_15 sessions event ack hreply =>
    exact Or.inl ⟨sessions, event, ack, rfl, hreply, (Option.some.inj hx).symm⟩
  case h_16 => exact Or.inr (Or.inr (Option.some.inj hx ▸ notifyProxyFailure_follows _))
  case h_21 => cases hx
  all_goals
    exact Or.inr (Or.inr (Option.some.inj hx ▸ (Extends.refl d _).to fun _ _ he => by cases he))

end NodeDaemon
end Sgm
