/-
# The P2P transport: sender and receiver of the session states

`P2PClient.send_sessions` and `P2PServer._handle_client`, over connections
that are two queues of bytes. A step takes one task from one suspension to the
next; between the two directions, and between connections, the steps
interleave freely. A handler reads a frame in one step, once all its bytes are
there: before that the bytes only wait in the stream.

On the way to the server the payload of a frame may be altered, in any way
that its checksum tells (`Transit`); which frames are, is a part of the
environment, by the place of the frame in the protocol. The JSON of the models
is that of the library that makes it (`Codec`). Timeouts, lost connections and
the end of the server are steps that may happen at any time.

Key definitions: `Transit`, `P2PEnv`, `SendSessions`, `P2PServer`,
`P2PConn.clientStep`, `P2P.serve`, `P2P.step`.
Key theorems: `P2P.stepped`, `P2P.step_other`, `P2P.step_server`.
-/
import Sgm.Lib.Dict
import Sgm.Lib.Machine
import Sgm.Lib.Text
import Sgm.Protocol.Framing

namespace Sgm

open Framing Crc32

/-! ### The environment -/

/-- A model as the bytes of its JSON. -/
structure Codec (α : Type) where
  dump : α → Bytes
  load : Bytes → Except Exc α

/-- Loading the dump of `x` gives `x` back. -/
def Codec.Keeps {α : Type} (c : Codec α) (x : α) : Prop := c.load (c.dump x) = .ok x

/-- The frames that a sender transmits. -/
inductive FrameKey
  | handoverInit
  | requestState (idx attempt : ℕ)
  | handoverFin
  deriving DecidableEq

/-- What becomes of the payloads in transit: each arrives as it was sent, or so
that its checksum no longer matches. -/
structure Transit where
  arrive : FrameKey → Bytes → Bytes
  length_arrive : ∀ key payload, (arrive key payload).length = payload.length
  detected : ∀ key payload, arrive key payload = payload ∨
    crc32 (arrive key payload) ≠ crc32 payload

/-- The bytes of a frame as they arrive. -/
def Transit.deliver (t : Transit) (key : FrameKey) (frame : Bytes) : Bytes :=
  frame.take headerSize ++ t.arrive key (frame.drop headerSize)

structure P2PEnv where
  zlib : Zlib
  handoverInit : Codec HandoverInit
  session : Codec InferenceSession
  handoverAck : Codec HandoverAck
  handoverNack : Codec HandoverNack
  transit : ℕ → Transit
  /-- `time.time_ns()` when the sender of a connection writes its first frame. -/
  clientTimeNs : ℕ → ℤ
  /-- `time.time_ns()` when the handler of a connection has read so many frames. -/
  serverTimeNs : ℕ → ℕ → ℤ

/-! ### The sender -/

structure P2PClient where
  targetHost : String := "127.0.0.1"
  targetPort : ℕ := 9002
  nodeId : String := "node-active"

/-- A call of `send_sessions`. The timeout is not in it: it may run out whenever
the sender waits for the reply. -/
structure SendSessions where
  client : P2PClient := {}
  sessions : List InferenceSession
  compress : Bool := false

/-- Where a sender is suspended, or how it ended. -/
inductive ClientPoint
  | connecting
  | sendInit
  | sendState (idx attempt : ℕ)
  | sendFin
  | awaitReply
  | returned (ack : HandoverAck)
  | raised (e : Exc)
  /-- the peer is no `P2PClient` and writes what it likes -/
  | foreign
  | hungUp
  deriving DecidableEq

def ClientPoint.ended : ClientPoint → Bool
  | .returned _ | .raised _ | .hungUp => true
  | _ => false

namespace SendSessions

def initPayload (call : SendSessions) (now : ℤ) : HandoverInit where
  sourceNodeId := call.client.nodeId
  targetNodeId := "standby@" ++ call.client.targetHost ++ ":" ++ toString call.client.targetPort
  activeRequestCount := call.sessions.length
  timestampNs := now

/-- The flags of the frame of a session. -/
def stateFlags (call : SendSessions) (idx : ℕ) : ℕ :=
  if idx + 1 = call.sessions.length then FrameFlags.isLastChunk else FrameFlags.none

/-- The point after the frames of the first `idx` sessions. -/
def nextState (call : SendSessions) (idx : ℕ) : ClientPoint :=
  if idx < call.sessions.length then .sendState idx 0 else .sendFin

end SendSessions

def maxRetries : ℕ := 2

/-- `{"status":"DONE"}`. -/
def finPayload : Bytes :=
  Text.encodeUtf8 ['\x7b', '"', 's', 't', 'a', 't', 'u', 's', '"', ':', '"', 'D', 'O', 'N', 'E',
    '"', '\x7d']

def rejectedText : String := "Standby rejected state stream: "

/-! ### The receiver -/

/-- Callbacks are told apart by a number. -/
abbrev SessionHandlerCallback := ℕ

structure P2PServer where
  nodeId : String := "node-standby"
  resumePort : ℤ := 8002
  sessionCallbacks : List SessionHandlerCallback := []
  receivedSessions : Dict String InferenceSession := Dict.empty
  running : Bool := false

/-- Where the handler of a connection is suspended. -/
inductive ServePoint
  | absent
  | reading
  /-- in the `drain` after a reply -/
  | replied
  /-- in the `asyncio.gather` of the callbacks -/
  | gathering
  /-- in the `drain` after the acknowledgement -/
  | acked
  | closed
  deriving DecidableEq

structure ServerHandler where
  point : ServePoint := .absent
  sessionsInFlight : List InferenceSession := []
  sourceNodeId : String := "unknown"
  framesRead : ℕ := 0
  /-- the calls of callbacks so far, with their argument -/
  invocations : List (SessionHandlerCallback × List InferenceSession) := []

namespace P2PServer

/-- The point at the head of the loop. -/
def loop (server : P2PServer) : ServePoint := if server.running then .reading else .closed

def nack (server : P2PServer) (now : ℤ) (crcErr : String) : HandoverNack where
  sourceNodeId := server.nodeId
  errorCode := 0x01
  errorMessage := "CRC32 checksum mismatch: " ++ crcErr
  timestampNs := now

def ack (server : P2PServer) (now : ℤ) (sessionsInFlight : List InferenceSession) :
    HandoverAck where
  sourceNodeId := server.nodeId
  acceptedRequestIds := sessionsInFlight.map (·.requestId)
  standbyReadyTimestampNs := now
  resumePort := server.resumePort

end P2PServer

/-! ### A connection -/

structure P2PConn where
  call : SendSessions
  client : ClientPoint
  handler : ServerHandler := {}
  toServer : Bytes := []
  toClient : Bytes := []

namespace P2PConn

variable (env : P2PEnv) (c : ℕ) (k : P2PConn)

def raise (e : Exc) : P2PConn := { k with client := .raised e }

def serveAt (point : ServePoint) : P2PConn := { k with handler := { k.handler with point := point } }

/-- `write_frame_async` of the sender. -/
def write (key : FrameKey) (msgType : ℕ) (payload : Bytes) (flags : ℕ) (compress : Bool)
    (next : ClientPoint) : P2PConn :=
  match packFrame env.zlib msgType payload flags protocolVersion compress with
  | .ok frame =>
    { k with toServer := k.toServer ++ (env.transit c).deliver key frame, client := next }
  | .error e => k.raise e

/-- An attempt at the frame of a session. The loop over the attempts is left after the first
write. -/
def sendState (idx attempt : ℕ) : Option P2PConn :=
  k.call.sessions[idx]?.map fun session =>
    if attempt < maxRetries + 1 then
      k.write env c (.requestState idx attempt) MessageType.requestState (env.session.dump session)
        (k.call.stateFlags idx) k.call.compress (k.call.nextState (idx + 1))
    else
      k.raise (.crc32VerificationError ("Failed to transmit session " ++ session.requestId ++
        " after " ++ toString maxRetries ++ " retries"))

/-- What the sender makes of the reply. -/
def outcome (msgType : ℕ) (payload : Bytes) : ClientPoint :=
  if msgType = MessageType.handoverAck then
    match env.handoverAck.load payload with
    | .ok ack => .returned ack
    | .error e => .raised e
  else if msgType = MessageType.handoverNack then
    match env.handoverNack.load payload with
    | .ok nack => .raised (.crc32VerificationError (rejectedText ++ nack.errorMessage))
    | .error e => .raised e
  else .raised (.valueError ("Unexpected frame type received: 0x" ++ hex 2 msgType))

/-- The sender reads one frame, whatever it is. -/
def readReply : Option P2PConn :=
  match readFrameAsync env.zlib k.toClient with
  | .incomplete => if k.handler.point = .closed then some (k.raise .incompleteReadError) else none
  | .raised e rest => some ({ k with toClient := rest }.raise e)
  | .frame msgType _ payload rest =>
    some { k with toClient := rest, client := outcome env msgType payload }

def clientStep : Option P2PConn :=
  match k.client with
  | .sendInit =>
    some (k.write env c .handoverInit MessageType.handoverInit
      (env.handoverInit.dump (k.call.initPayload (env.clientTimeNs c))) FrameFlags.none false
      (k.call.nextState 0))
  | .sendState idx attempt => k.sendState env c idx attempt
  | .sendFin =>
    some (k.write env c .handoverFin MessageType.handoverFin finPayload FrameFlags.none false
      .awaitReply)
  | .awaitReply => k.readReply env
  | _ => none

/-- The exceptions of the network that can reach the sender where it is. -/
def canFail (point : ClientPoint) (e : Exc) : Bool :=
  match point, e with
  | .sendState _ _, .connectionResetError | .sendState _ _, .brokenPipeError
  | .sendFin, .connectionResetError | .sendFin, .brokenPipeError
  | .awaitReply, .connectionResetError | .awaitReply, .brokenPipeError
  | .awaitReply, .timeoutError => true
  | _, _ => false

/-- `write_frame_async` of the handler. An exception is logged, and ends it. -/
def reply (msgType : ℕ) (payload : Bytes) (next : ServePoint) : P2PConn :=
  match packFrame env.zlib msgType payload FrameFlags.none protocolVersion false with
  | .ok frame => { k.serveAt next with toClient := k.toClient ++ frame }
  | .error _ => k.serveAt .closed

def acknowledge (server : P2PServer) : P2PConn :=
  k.reply env MessageType.handoverAck (env.handoverAck.dump
    (server.ack (env.serverTimeNs c k.handler.framesRead) k.handler.sessionsInFlight)) .acked

def sendNack (server : P2PServer) (crcErr : String) : P2PConn :=
  k.reply env MessageType.handoverNack (env.handoverNack.dump
    (server.nack (env.serverTimeNs c k.handler.framesRead) crcErr)) .replied

/-- The connection when its handler has read one more frame, and `rest` is left. -/
def readOff (rest : Bytes) : P2PConn :=
  { k with toServer := rest, handler := { k.handler with framesRead := k.handler.framesRead + 1 } }

end P2PConn

/-! ### The system -/

structure P2P where
  server : P2PServer
  conns : ℕ → P2PConn

/-- A server and its peers: those that call `send_sessions`, and others. -/
def P2P.new (server : P2PServer) (peers : ℕ → Option SendSessions) : P2P where
  server := server
  conns := fun c =>
    match peers c with
    | some call => { call := call, client := .connecting }
    | none => { call := { sessions := [] }, client := .foreign }

inductive P2PLabel
  | start
  | stop
  | connect (c : ℕ)
  | connectFails (c : ℕ) (text : String)
  | client (c : ℕ)
  /-- a timeout, or the connection is lost -/
  | clientFails (c : ℕ) (e : Exc)
  | foreign (c : ℕ) (bytes : Bytes)
  | hangUp (c : ℕ)
  | accept (c : ℕ)
  | serve (c : ℕ)
  /-- all callbacks have returned or raised -/
  | gathered (c : ℕ)
  | handlerFails (c : ℕ)
  deriving DecidableEq

namespace P2PLabel

/-- The connection of a step. -/
def conn : P2PLabel → Option ℕ
  | .start | .stop => none
  | .connect c | .connectFails c _ | .client c | .clientFails c _ | .foreign c _ | .hangUp c
  | .accept c | .serve c | .gathered c | .handlerFails c => some c

/-- The server does not stop, and connection `c` does not fail. -/
def Clean (c : ℕ) : P2PLabel → Prop
  | .stop => False
  | .connectFails c' _ | .clientFails c' _ | .handlerFails c' => c' ≠ c
  | _ => True

end P2PLabel

namespace P2P

variable (env : P2PEnv) (p : P2P) (c : ℕ)

def put (k : P2PConn) : P2P := { p with conns := Function.update p.conns c k }

/-- The frames that the handler accepts. -/
def handleFrame (k : P2PConn) (msgType : ℕ) (payload : Bytes) : P2P :=
  if msgType = MessageType.handoverInit then
    match env.handoverInit.load payload with
    | .ok initData =>
      p.put c { k with
        handler := { k.handler with
          sourceNodeId := initData.sourceNodeId, point := p.server.loop } }
    | .error _ => p.put c (k.serveAt .closed)
  else if msgType = MessageType.requestState then
    match env.session.load payload with
    | .ok session =>
      { p with
        server := { p.server with
          receivedSessions := p.server.receivedSessions.set session.requestId session } }.put c
        { k with
          handler := { k.handler with
            sessionsInFlight := k.handler.sessionsInFlight ++ [session],
            point := p.server.loop } }
    | .error _ => p.put c (k.serveAt .closed)
  else if msgType = MessageType.handoverFin then
    if p.server.sessionCallbacks ≠ [] ∧ k.handler.sessionsInFlight ≠ [] then
      p.put c { k with
        handler := { k.handler with
          invocations := k.handler.invocations ++
            p.server.sessionCallbacks.map (·, k.handler.sessionsInFlight),
          point := .gathering } }
    else p.put c (k.acknowledge env c p.server)
  else if msgType = MessageType.heartbeat then
    p.put c (k.reply env MessageType.heartbeat (Text.encodeUtf8 ['P', 'O', 'N', 'G']) .replied)
  else p.put c (k.serveAt p.server.loop)

/-- An iteration of the loop of `_handle_client`. A frame whose checksum does
not match is refused, and the loop goes on. -/
def serve : Option P2P :=
  let k := p.conns c
  match readFrameAsync env.zlib k.toServer with
  | .incomplete => if k.client.ended then some (p.put c (k.serveAt .closed)) else none
  | .raised (.crc32VerificationError crcErr) rest =>
    some (p.put c ((k.readOff rest).sendNack env c p.server crcErr))
  | .raised _ rest => some (p.put c ((k.readOff rest).serveAt .closed))
  | .frame msgType _ payload rest => some (p.handleFrame env c (k.readOff rest) msgType payload)

def step (p : P2P) : P2PLabel → Option P2P
  | .start => some { p with server := { p.server with running := true } }
  | .stop => some { p with server := { p.server with running := false } }
  | .connect c =>
    if (p.conns c).client = .connecting then
      some (p.put c { p.conns c with client := .sendInit }) else none
  | .connectFails c text =>
    if (p.conns c).client = .connecting then
      some (p.put c ((p.conns c).raise (.p2pConnectionFailedError
        ("Connection failed to " ++ (p.conns c).call.client.targetHost ++ ":" ++
          toString (p.conns c).call.client.targetPort ++ ": " ++ text))))
    else none
  | .client c => ((p.conns c).clientStep env c).map (p.put c)
  | .clientFails c e =>
    if P2PConn.canFail (p.conns c).client e then some (p.put c ((p.conns c).raise e)) else none
  | .foreign c bytes =>
    if (p.conns c).client = .foreign then
      some (p.put c { p.conns c with toServer := (p.conns c).toServer ++ bytes }) else none
  | .hangUp c =>
    if (p.conns c).client = .foreign then
      some (p.put c { p.conns c with client := .hungUp }) else none
  | .accept c =>
    if (p.conns c).handler.point = .absent ∧ (p.conns c).client ≠ .connecting then
      some (p.put c ((p.conns c).serveAt p.server.loop)) else none
  | .serve c =>
    match (p.conns c).handler.point with
    | .reading => p.serve env c
    | .replied => some (p.put c ((p.conns c).serveAt p.server.loop))
    | .acked => some (p.put c ((p.conns c).serveAt .closed))
    | _ => none
  | .gathered c =>
    if (p.conns c).handler.point = .gathering then
      some (p.put c ((p.conns c).acknowledge env c p.server)) else none
  | .handlerFails c =>
    match (p.conns c).handler.point with
    | .reading | .replied | .acked => some (p.put c ((p.conns c).serveAt .closed))
    | _ => none

/-! ### What a step does -/

@[simp] theorem put_server (k : P2PConn) : (p.put c k).server = p.server := rfl

@[simp] theorem put_self (k : P2PConn) : (p.put c k).conns c = k := by simp [put]

theorem put_ne {c' : ℕ} (h : c' ≠ c) (k : P2PConn) : (p.put c k).conns c' = p.conns c' := by
  simp [put, h]

/-- What a step of connection `c` does, and where it is taken. -/
inductive Stepped (p : P2P) (c : ℕ) : P2PLabel → P2P → Prop
  | connected (hk : (p.conns c).client = .connecting) :
    Stepped p c (.connect c) (p.put c { p.conns c with client := .sendInit })
  | unreachable {text msg : String} (hk : (p.conns c).client = .connecting) :
    Stepped p c (.connectFails c text)
      (p.put c ((p.conns c).raise (.p2pConnectionFailedError msg)))
  | sender {k : P2PConn} (hs : (p.conns c).clientStep env c = some k) :
    Stepped p c (.client c) (p.put c k)
  | senderFailed {e : Exc} (hk : P2PConn.canFail (p.conns c).client e = true) :
    Stepped p c (.clientFails c e) (p.put c ((p.conns c).raise e))
  | wrote {bytes : Bytes} (hk : (p.conns c).client = .foreign) :
    Stepped p c (.foreign c bytes)
      (p.put c { p.conns c with toServer := (p.conns c).toServer ++ bytes })
  | hungUp (hk : (p.conns c).client = .foreign) :
    Stepped p c (.hangUp c) (p.put c { p.conns c with client := .hungUp })
  | accepted (hp : (p.conns c).handler.point = .absent) (hk : (p.conns c).client ≠ .connecting) :
    Stepped p c (.accept c) (p.put c ((p.conns c).serveAt p.server.loop))
  | served {q : P2P} (hp : (p.conns c).handler.point = .reading) (hs : p.serve env c = some q) :
    Stepped p c (.serve c) q
  | looped (hp : (p.conns c).handler.point = .replied) :
    Stepped p c (.serve c) (p.put c ((p.conns c).serveAt p.server.loop))
  | left (hp : (p.conns c).handler.point = .acked) :
    Stepped p c (.serve c) (p.put c ((p.conns c).serveAt .closed))
  | gathered (hp : (p.conns c).handler.point = .gathering) :
    Stepped p c (.gathered c) (p.put c ((p.conns c).acknowledge env c p.server))
  | handlerFailed (hp : (p.conns c).handler.point = .reading ∨
      (p.conns c).handler.point = .replied ∨ (p.conns c).handler.point = .acked) :
    Stepped p c (.handlerFails c) (p.put c ((p.conns c).serveAt .closed))

variable {env p c}

theorem stepped {l : P2PLabel} {q : P2P} (hc : l.conn = some c) (h : step env p l = some q) :
    Stepped env p c l q := by
  cases l <;> simp only [P2PLabel.conn, Option.some.injEq, reduceCtorEq] at hc <;> subst hc <;>
    simp only [step, Option.ite_none_right_eq_some, Option.some.injEq] at h
  case connect =>
    obtain ⟨hk, rfl⟩ := h
    exact .connected hk
  case connectFails =>
    obtain ⟨hk, rfl⟩ := h
    exact .unreachable hk
  case client =>
    obtain ⟨k, hs, rfl⟩ := Option.map_eq_some_iff.mp h
    exact .sender hs
  case clientFails =>
    obtain ⟨hk, rfl⟩ := h
    exact .senderFailed hk
  case foreign =>
    obtain ⟨hk, rfl⟩ := h
    exact .wrote hk
  case hangUp =>
    obtain ⟨hk, rfl⟩ := h
    exact .hungUp hk
  case accept =>
    obtain ⟨⟨hp, hk⟩, rfl⟩ := h
    exact .accepted hp hk
  case serve =>
    split at h
    · exact .served ‹_› h
    · exact Option.some.inj h ▸ .looped ‹_›
    · exact Option.some.inj h ▸ .left ‹_›
    · cases h
  case gathered =>
    obtain ⟨hp, rfl⟩ := h
    exact .gathered hp
  case handlerFails =>
    split at h
    · exact Option.some.inj h ▸ .handlerFailed (Or.inl ‹_›)
    · exact Option.some.inj h ▸ .handlerFailed (Or.inr (Or.inl ‹_›))
    · exact Option.some.inj h ▸ .handlerFailed (Or.inr (Or.inr ‹_›))
    · cases h

/-! ### What a step leaves alone -/

end P2P

/-- What of a server never changes. -/
structure P2PServer.SameAs (s t : P2PServer) : Prop where
  nodeId : s.nodeId = t.nodeId
  resumePort : s.resumePort = t.resumePort
  sessionCallbacks : s.sessionCallbacks = t.sessionCallbacks

theorem P2PServer.SameAs.trans {s t u : P2PServer} (h : s.SameAs t) (h' : t.SameAs u) :
    s.SameAs u :=
  ⟨h.nodeId.trans h'.nodeId, h.resumePort.trans h'.resumePort,
    h.sessionCallbacks.trans h'.sessionCallbacks⟩

namespace P2P

/-- `q` is `p` but for connection `c`, and the sessions received. -/
structure Touches (p : P2P) (c : ℕ) (q : P2P) : Prop where
  others : ∀ c', c' ≠ c → q.conns c' = p.conns c'
  same : q.server.SameAs p.server
  running : q.server.running = p.server.running

variable {env : P2PEnv} {p q : P2P} {l : P2PLabel} {c : ℕ}

theorem touches_put (p : P2P) (c : ℕ) (k : P2PConn) : p.Touches c (p.put c k) :=
  ⟨fun _ h => p.put_ne c h k, ⟨rfl, rfl, rfl⟩, rfl⟩

theorem touches_received (p : P2P) (c : ℕ) (k : P2PConn) (r : Dict String InferenceSession) :
    p.Touches c ({ p with server := { p.server with receivedSessions := r } }.put c k) :=
  ⟨fun _ h => put_ne _ c h k, ⟨rfl, rfl, rfl⟩, rfl⟩

theorem touches_handleFrame (k : P2PConn) (msgType : ℕ) (payload : Bytes) :
    p.Touches c (p.handleFrame env c k msgType payload) := by
  unfold handleFrame
  split
  · split <;> exact p.touches_put c _
  · split
    · split
      · exact p.touches_received c _ _
      · exact p.touches_put c _
    · split
      · split <;> exact p.touches_put c _
      · split <;> exact p.touches_put c _

theorem touches_serve (h : p.serve env c = some q) : p.Touches c q := by
  unfold serve at h
  simp only at h
  split at h
  · split at h
    · exact Option.some.inj h ▸ p.touches_put c _
    · cases h
  · exact Option.some.inj h ▸ p.touches_put c _
  · exact Option.some.inj h ▸ p.touches_put c _
  · exact Option.some.inj h ▸ touches_handleFrame _ _ _

/-- A step of a connection touches no other. -/
theorem touches_step (hc : l.conn = some c) (h : step env p l = some q) : p.Touches c q := by
  cases stepped hc h with
  | served _ hs => exact touches_serve hs
  | _ => exact p.touches_put c _

/-- A step of no connection starts or stops the server. -/
theorem step_server (hc : l.conn = none) (h : step env p l = some q) :
    q.conns = p.conns ∧ q.server.SameAs p.server ∧ (l.Clean c → q.server.running = true) := by
  cases l <;> simp only [P2PLabel.conn, reduceCtorEq] at hc <;> simp only [step] at h <;>
    obtain rfl := Option.some.inj h
  case start => exact ⟨rfl, ⟨rfl, rfl, rfl⟩, fun _ => rfl⟩
  case stop => exact ⟨rfl, ⟨rfl, rfl, rfl⟩, fun hl => hl.elim⟩

theorem step_other (hc : l.conn ≠ some c) (h : step env p l = some q) :
    q.conns c = p.conns c := by
  cases hl : l.conn with
  | none => rw [(step_server (c := c) hl h).1]
  | some c' =>
    rw [hl] at hc
    exact (touches_step hl h).others c fun he => hc (congrArg some he.symm)

theorem step_sameAs (h : step env p l = some q) : q.server.SameAs p.server := by
  cases hl : l.conn with
  | none => exact (step_server (c := 0) hl h).2.1
  | some c => exact (touches_step hl h).same

theorem step_running (hl : l.Clean c) (h : step env p l = some q) (hp : p.server.running = true) :
    q.server.running = true := by
  cases hc : l.conn with
  | none => exact (step_server hc h).2.2 hl
  | some c => exact (touches_step hc h).running.trans hp

end P2P
end Sgm
