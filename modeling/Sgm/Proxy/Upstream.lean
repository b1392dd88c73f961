/-
# The stream multiplexer

`proxy/upstream.py`. `stream_with_handover` is an async generator: it runs from
one suspension point to the next, where another task may run. A suspension is
a pull on an upstream, a `yield` to the consumer, the wait for the standby, or
the call of the standby factory. `Generator` is the generator object, with the
`Point` it is suspended at, and `streamWithHandover` is one resumption of it.
The tables of the multiplexer are shared by all generators; session objects
live on a heap, since a generator keeps its session when the table no longer
has it. A `System` is a multiplexer with its generators and the clock, and a
`Label` is one move in it: a generator is created, resumed or closed, a signal
comes in, or time passes. Signals so land at suspension points only.

A generator logs the events an observer sees: connections opened, chunks
pulled, ends of upstreams and items yielded. Times are in nanoseconds.

Key definitions: `StreamMultiplexer`, `Generator`,
`StreamMultiplexer.streamWithHandover`, `System.step`.
-/
import Sgm.Lib.Machine
import Sgm.Proxy.Buffer

namespace Sgm

/-! ### What goes in and what comes out -/

/-- How the iteration of an upstream ends: after the upstream's own `[DONE]`,
without it, or by an exception. The multiplexer cannot tell the first two
apart. -/
inductive UpstreamEnd
  | done
  | closed
  | raised (e : Exc)
  deriving DecidableEq, Repr

/-- What is left of an upstream's iteration. -/
structure Upstream where
  chunks : List TokenChunk
  ending : UpstreamEnd
  deriving DecidableEq, Repr

/-- An item yielded to the client: `_format_sse_chunk` of a chunk, the comment
`: keep-alive`, or `data: [DONE]`. -/
inductive SseItem
  | data (chunk : TokenChunk)
  | keepAlive
  | done
  deriving DecidableEq, Repr

inductive Event
  | connected
  | pulled (chunk : TokenChunk)
  | upstreamEnded (ending : UpstreamEnd)
  | sent (item : SseItem)
  deriving DecidableEq, Repr

/-! ### Sessions and the multiplexer's tables -/

structure StreamSessionState where
  requestId : String
  preemptionSignaled : Bool := false
  handoverReady : Bool := false
  cutoffSequenceId : ℤ := -1
  isCompleted : Bool := false
  error : Option Exc := none
  deriving DecidableEq

structure StreamMultiplexer where
  deduplicator : TokenDeduplicator
  keepaliveInterval : ℕ := 800000000
  /-- Requests to session references. -/
  activeSessions : Dict String ℕ := Dict.empty
  /-- The session objects by reference; generator `i` allocates at `i`. -/
  heap : ℕ → StreamSessionState := fun _ => { requestId := "" }

namespace StreamMultiplexer

def modifySession (m : StreamMultiplexer) (ref : ℕ) (f : StreamSessionState → StreamSessionState) :
    StreamMultiplexer :=
  { m with heap := Function.update m.heap ref (f (m.heap ref)) }

/-- The session of a request; a new one is allocated at `fresh`. -/
def getOrCreateSession (m : StreamMultiplexer) (requestId : String) (fresh : ℕ) :
    StreamMultiplexer × ℕ :=
  match m.activeSessions.get? requestId with
  | some ref => (m, ref)
  | none =>
    ({ m with
        activeSessions := m.activeSessions.set requestId fresh
        heap := Function.update m.heap fresh { requestId := requestId } }, fresh)

/-- Preemption has started on the active node. -/
def triggerPreemption (m : StreamMultiplexer) (requestId : String) (cutoffSeq : ℤ) :
    StreamMultiplexer :=
  match m.activeSessions.get? requestId with
  | some ref => m.modifySession ref fun session =>
    { session with cutoffSequenceId := cutoffSeq, preemptionSignaled := true }
  | none => m

/-- The standby node is ready to stream. -/
def triggerHandoverReady (m : StreamMultiplexer) (requestId : String) : StreamMultiplexer :=
  match m.activeSessions.get? requestId with
  | some ref => m.modifySession ref fun session => { session with handoverReady := true }
  | none => m

/-- The `finally` clause of `stream_with_handover`. -/
def cleanup (m : StreamMultiplexer) (requestId : String) : StreamMultiplexer :=
  { m with
    activeSessions := m.activeSessions.pop requestId
    deduplicator := m.deduplicator.resetRequest requestId }

end StreamMultiplexer

/-! ### The generator -/

inductive Outcome
  | completed
  | raised (e : Exc)
  | closed
  deriving DecidableEq, Repr

/-- Where a generator is suspended. -/
inductive Point
  /-- not called yet -/
  | absent
  /-- the generator object exists, its body has not started -/
  | created
  /-- in `async for chunk in active_upstream` -/
  | pullActive
  /-- in the `yield` of a chunk of the active upstream -/
  | yieldedActive (chunk : TokenChunk)
  /-- in the `yield` of a keep-alive comment, with the `now` of the loop -/
  | yieldedKeepAlive (now : ℕ)
  /-- in `wait_for(handover_ready.wait())`, entered at `since` -/
  | waitReady (since : ℕ)
  /-- in `await standby_factory()` -/
  | callStandby
  /-- in `async for chunk in standby_upstream` -/
  | pullStandby
  /-- in the `yield` of a chunk of the standby upstream -/
  | yieldedStandby
  /-- in the `yield` of the end of stream signal -/
  | yieldedDone
  | ended (outcome : Outcome)
  deriving DecidableEq, Repr

/-- A generator object: its arguments, its local variables and its log. The
standby factory is given the last flushed id, the only mutable state a factory
reads. -/
structure Generator where
  requestId : String
  active : Upstream
  standbyFactory : ℤ → Except Exc Upstream
  standby : Upstream := ⟨[], .closed⟩
  session : ℕ := 0
  lastActivityTime : ℕ := 0
  bufferingStart : ℕ := 0
  point : Point := .created
  log : List Event := []

namespace Generator

def absent : Generator where
  requestId := ""
  active := ⟨[], .closed⟩
  standbyFactory := fun _ => .ok ⟨[], .closed⟩
  point := .absent

def at_ (g : Generator) (p : Point) : Generator := { g with point := p }

def record (g : Generator) (e : Event) : Generator := { g with log := g.log ++ [e] }

/-- Yields an item, to be suspended at `p`. -/
def emit (g : Generator) (item : SseItem) (p : Point) : Generator := (g.record (.sent item)).at_ p

end Generator

namespace StreamMultiplexer

/-- SLA timeout ceiling of the buffering phase. -/
def maxBuffering : ℕ := 2500000000

/-- The timeout of one wait for the standby. -/
def waitTick : ℕ := 100000000

/-- The `except` and `finally` clauses, for an exception in the body. -/
def raise (m : StreamMultiplexer) (g : Generator) (e : Exc) : StreamMultiplexer × Generator :=
  match e with
  | .connectionResetError | .brokenPipeError =>
    let requestId := g.requestId
    (m.cleanup g.requestId, g.at_ (.ended (.raised
      (.clientDisconnectedError s!"Client disconnected for request {requestId}"))))
  | e =>
    let m := m.modifySession g.session fun session => { session with error := some e }
    (m.cleanup g.requestId, g.at_ (.ended (.raised e)))

def endOfStream (m : StreamMultiplexer) (g : Generator) : StreamMultiplexer × Generator :=
  (m, g.emit .done .yieldedDone)

/-- The head of the loop `while not session.handover_ready.is_set()`. -/
def bufferingLoop (now : ℕ) (m : StreamMultiplexer) (g : Generator) : StreamMultiplexer × Generator :=
  if (m.heap g.session).handoverReady then
    (m, g.at_ .callStandby)
  else if now - g.bufferingStart ≥ maxBuffering then
    (m.modifySession g.session fun session => { session with handoverReady := true },
      g.at_ .callStandby)
  else if now - g.lastActivityTime ≥ m.keepaliveInterval then
    (m, g.emit .keepAlive (.yieldedKeepAlive now))
  else
    (m, g.at_ (.waitReady now))

/-- After the loop over the active upstream. -/
def afterActive (now : ℕ) (m : StreamMultiplexer) (g : Generator) : StreamMultiplexer × Generator :=
  if (m.heap g.session).preemptionSignaled then
    bufferingLoop now m { g with bufferingStart := now }
  else
    endOfStream m g

/-- Stop reading the active upstream at the cutoff. -/
def checkCutoff (now : ℕ) (m : StreamMultiplexer) (g : Generator) (chunk : TokenChunk) :
    StreamMultiplexer × Generator :=
  let session := m.heap g.session
  if session.preemptionSignaled ∧ session.cutoffSequenceId ≥ 0 ∧
      chunk.sequenceId ≥ session.cutoffSequenceId then
    afterActive now m g
  else
    (m, g.at_ .pullActive)

/-- One resumption of generator `i`, `stream_with_handover`, at time `now`: from
the point it is suspended at to the next; `none` where it cannot go on yet. -/
def streamWithHandover (now i : ℕ) (m : StreamMultiplexer) (g : Generator) :
    Option (StreamMultiplexer × Generator) :=
  match g.point with
  | .absent | .ended _ => none
  | .created =>
    let (m, session) := m.getOrCreateSession g.requestId i
    some (m, { g.record .connected with
      session := session, lastActivityTime := now, point := .pullActive })
  | .pullActive =>
    match g.active.chunks with
    | chunk :: rest =>
      let g := { g.record (.pulled chunk) with active := ⟨rest, g.active.ending⟩ }
      match m.deduplicator.filterChunk g.requestId chunk with
      | .error e => some (raise m g e)
      | .ok (none, d) => some (checkCutoff now { m with deduplicator := d } g chunk)
      | .ok (some filtered, d) =>
        some ({ m with deduplicator := d }, g.emit (.data filtered) (.yieldedActive chunk))
    | [] =>
      let g := g.record (.upstreamEnded g.active.ending)
      match g.active.ending with
      | .raised e => some (raise m g e)
      | .done | .closed => some (afterActive now m g)
  | .yieldedActive chunk => some (checkCutoff now m { g with lastActivityTime := now } chunk)
  | .yieldedKeepAlive t => some (m, { g with lastActivityTime := t, point := .waitReady now })
  | .waitReady since =>
    if (m.heap g.session).handoverReady ∨ since + waitTick ≤ now then some (bufferingLoop now m g)
    else none
  | .callStandby =>
    match g.standbyFactory (m.deduplicator.getLastFlushed g.requestId) with
    | .error e => some (raise m g e)
    | .ok upstream => some (m, { g.record .connected with standby := upstream, point := .pullStandby })
  | .pullStandby =>
    match g.standby.chunks with
    | chunk :: rest =>
      let g := { g.record (.pulled chunk) with standby := ⟨rest, g.standby.ending⟩ }
      match m.deduplicator.filterChunk g.requestId chunk with
      | .error e => some (raise m g e)
      | .ok (none, d) => some ({ m with deduplicator := d }, g)
      | .ok (some filtered, d) =>
        some ({ m with deduplicator := d }, g.emit (.data filtered) .yieldedStandby)
    | [] =>
      let g := g.record (.upstreamEnded g.standby.ending)
      match g.standby.ending with
      | .raised e => some (raise m g e)
      | .done | .closed => some (endOfStream m g)
  | .yieldedStandby => some (m, { g with lastActivityTime := now, point := .pullStandby })
  | .yieldedDone =>
    let m := m.modifySession g.session fun session => { session with isCompleted := true }
    some (m.cleanup g.requestId, g.at_ (.ended .completed))

/-- The consumer closes the generator, or its task is cancelled: only the
`finally` clause runs, and not even that if the body has not started. -/
def close (m : StreamMultiplexer) (g : Generator) : Option (StreamMultiplexer × Generator) :=
  match g.point with
  | .absent | .ended _ => none
  | .created => some (m, g.at_ (.ended .closed))
  | _ => some (m.cleanup g.requestId, g.at_ (.ended .closed))

end StreamMultiplexer

/-! ### The multiplexer with its generators -/

inductive Label
  | call (i : ℕ) (requestId : String) (active : Upstream)
      (standbyFactory : ℤ → Except Exc Upstream)
  | resume (i : ℕ)
  | close (i : ℕ)
  | triggerPreemption (requestId : String) (cutoffSeq : ℤ)
  | triggerHandoverReady (requestId : String)
  | elapse (dt : ℕ)

structure System where
  mux : StreamMultiplexer
  generators : ℕ → Generator := fun _ => Generator.absent
  clock : ℕ := 0

namespace System

/-- Generator `i` and the multiplexer after a move of that generator. -/
def put (s : System) (i : ℕ) (r : StreamMultiplexer × Generator) : System :=
  { s with mux := r.1, generators := Function.update s.generators i r.2 }

def step (s : System) : Label → Option System
  | .call i requestId active standbyFactory =>
    match (s.generators i).point with
    | .absent => some (s.put i (s.mux,
        { requestId := requestId, active := active, standbyFactory := standbyFactory }))
    | _ => none
  | .resume i => (s.mux.streamWithHandover s.clock i (s.generators i)).map (s.put i)
  | .close i => (s.mux.close (s.generators i)).map (s.put i)
  | .triggerPreemption requestId cutoffSeq =>
    some { s with mux := s.mux.triggerPreemption requestId cutoffSeq }
  | .triggerHandoverReady requestId => some { s with mux := s.mux.triggerHandoverReady requestId }
  | .elapse dt => some { s with clock := s.clock + dt }

/-- A multiplexer no request has used yet. -/
def init (bufferCapacity : ℕ) (h : 0 < bufferCapacity) (keepaliveInterval : ℕ) : System where
  mux := {
    deduplicator := TokenDeduplicator.new bufferCapacity h
    keepaliveInterval := keepaliveInterval }

end System
end Sgm
