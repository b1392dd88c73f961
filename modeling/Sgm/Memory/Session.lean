/-
# The one-shot handover listener

`StateSerializer.receive_handover` of `daemon/memory/session.py`: a call that
listens, serves any number of connections by handlers that share its local
variables, and returns when one of them has acknowledged a handover. A step
takes a handler, or the call itself, from one suspension to the next, and the
steps interleave freely. The call leaves its `finally` clause only when no
connection is open any more, as `Server.wait_closed` does.

A handler appends to the list of all, and an exception of any handler is the
outcome of the call. So what is returned is what was acknowledged in the runs
where the other connections have brought no session and no exception when the
first acknowledgement is written, nor do until the call is over (`Orderly`).

Key definitions: `ReceiveHandover`, `Incoming.next`, `ReceiveHandover.step`, `Orderly`, `Acked`.
Key theorems: `Stepped.of_eq`, `shared_step`, `acked_step`, `receiveHandover_returns`.
-/
import Sgm.Transport.Acknowledged

namespace Sgm

open Framing

/-! ### The call and its connections -/

/-- Where the handler of a connection is suspended. -/
inductive IncomingPoint
  | absent
  | reading
  /-- in the `drain` after a refusal -/
  | nacking
  /-- in the `drain` after the acknowledgement -/
  | acking
  | closed
  deriving DecidableEq

def IncomingPoint.isOpen : IncomingPoint → Bool
  | .reading | .nacking | .acking => true
  | .absent | .closed => false

/-- A frame that a handler writes, as the model that is its payload. -/
inductive HandoverReply
  | nack (nack : HandoverNack)
  | ack (ack : HandoverAck)
  deriving DecidableEq

/-- A connection, with its handler. The sessions and the replies are logs. -/
structure Incoming where
  point : IncomingPoint := .absent
  buffer : Bytes := []
  eof : Bool := false
  framesRead : ℕ := 0
  received : List InferenceSession := []
  replies : List HandoverReply := []

/-- Where a call of `receive_handover` is suspended, or how it ended. -/
inductive ReceivePoint
  /-- in `wait_for(handover_done_event.wait(), timeout)` -/
  | waiting
  /-- in `server.wait_closed()`, with what it raises then -/
  | closing (error : Option Exc)
  | returned (sessions : List InferenceSession)
  | raised (e : Exc)
  deriving DecidableEq

/-- A call of `receive_handover`, with the variables its handlers share. -/
structure ReceiveHandover where
  nodeId : String := "node-active"
  receivedSessions : List InferenceSession := []
  handoverDone : Bool := false
  clientError : Option Exc := none
  point : ReceivePoint := .waiting
  conns : ℕ → Incoming := fun _ => {}
  /-- The connections that the server has accepted. -/
  accepted : List ℕ := []
  /-- The connections an acknowledgement was written on, in that order. -/
  acknowledged : List ℕ := []

namespace Incoming

/-- What an iteration of a handler's loop finds. -/
inductive Next
  /-- the bytes of a frame are not all there -/
  | nothing
  /-- the checksum does not match -/
  | corrupt (err : String) (rest : Bytes)
  | failed (e : Exc) (rest : Bytes)
  | session (session : InferenceSession) (rest : Bytes)
  | fin (rest : Bytes)
  /-- a frame that is only logged, or ignored -/
  | other (rest : Bytes)
  deriving DecidableEq

def next (env : P2PEnv) (buffer : Bytes) : Next :=
  match readFrameAsync env.zlib buffer with
  | .incomplete => .nothing
  | .raised (.crc32VerificationError err) rest => .corrupt err rest
  | .raised e rest => .failed e rest
  | .frame msgType _ payload rest =>
    if msgType = MessageType.handoverInit then
      match env.handoverInit.load payload with
      | .ok _ => .other rest
      | .error e => .failed e rest
    else if msgType = MessageType.requestState then
      match env.session.load payload with
      | .ok session => .session session rest
      | .error e => .failed e rest
    else if msgType = MessageType.handoverFin then .fin rest
    else .other rest

def at_ (k : Incoming) (point : IncomingPoint) : Incoming := { k with point := point }

/-- The connection when its handler has read one more frame, and `rest` is left. -/
def readOff (k : Incoming) (rest : Bytes) : Incoming :=
  { k with buffer := rest, framesRead := k.framesRead + 1 }

end Incoming

inductive ReceiveLabel
  | connect (c : ℕ)
  /-- the peer writes -/
  | write (c : ℕ) (bytes : Bytes)
  | hangUp (c : ℕ)
  | serve (c : ℕ)
  /-- an exception of the network in the handler -/
  | handlerFails (c : ℕ) (e : Exc)
  /-- the call goes on after the event -/
  | wake
  | timeout
  | finish

/-- The connection of a step. -/
def ReceiveLabel.conn : ReceiveLabel → Option ℕ
  | .connect c | .write c _ | .hangUp c | .serve c | .handlerFails c _ => some c
  | .wake | .timeout | .finish => none

namespace ReceiveHandover

variable (env : P2PEnv) (s : ReceiveHandover) (c : ℕ)

def put (k : Incoming) : ReceiveHandover := { s with conns := Function.update s.conns c k }

@[simp] theorem put_self (k : Incoming) : (s.put c k).conns c = k := Function.update_self ..

theorem put_of_ne {c' : ℕ} (h : c' ≠ c) (k : Incoming) : (s.put c k).conns c' = s.conns c' :=
  Function.update_of_ne h ..

/-- The `except` clause of a handler. -/
def fail (k : Incoming) (e : Exc) : ReceiveHandover :=
  { s with clientError := some e }.put c (k.at_ .closed)

def nack (err : String) : HandoverNack where
  sourceNodeId := s.nodeId
  errorCode := 1
  errorMessage := err
  timestampNs := env.serverTimeNs c ((s.conns c).framesRead + 1)

def ack : HandoverAck where
  sourceNodeId := s.nodeId
  acceptedRequestIds := s.receivedSessions.map (·.requestId)
  standbyReadyTimestampNs := env.serverTimeNs c ((s.conns c).framesRead + 1)
  resumePort := 8002

def nackFrame (err : String) : Except Exc Bytes :=
  packFrame env.zlib MessageType.handoverNack (env.handoverNack.dump (s.nack env c err))
    FrameFlags.none protocolVersion false

def ackFrame : Except Exc Bytes :=
  packFrame env.zlib MessageType.handoverAck (env.handoverAck.dump (s.ack env c))
    FrameFlags.none protocolVersion false

/-- An iteration of the loop of `handle_client`. -/
def handleClient : Option ReceiveHandover :=
  let k := s.conns c
  match Incoming.next env k.buffer with
  | .nothing => if k.eof then some (s.put c (k.at_ .closed)) else none
  | .corrupt err rest =>
    match s.nackFrame env c err with
    | .ok _ => some (s.put c { k.readOff rest with
        point := .nacking, replies := k.replies ++ [HandoverReply.nack (s.nack env c err)] })
    | .error e => some (s.fail c (k.readOff rest) e)
  | .failed e rest => some (s.fail c (k.readOff rest) e)
  | .session session rest =>
    some ({ s with receivedSessions := s.receivedSessions ++ [session] }.put c
      { k.readOff rest with received := k.received ++ [session] })
  | .fin rest =>
    match s.ackFrame env c with
    | .ok _ => some ({ s with acknowledged := s.acknowledged ++ [c] }.put c { k.readOff rest with
        point := .acking, replies := k.replies ++ [HandoverReply.ack (s.ack env c)] })
    | .error e => some (s.fail c (k.readOff rest) e)
  | .other rest => some (s.put c (k.readOff rest))

def outcome : Option Exc → ReceivePoint
  | none => .returned s.receivedSessions
  | some e => .raised e

def step (s : ReceiveHandover) : ReceiveLabel → Option ReceiveHandover
  | .connect c =>
    if s.point = .waiting ∧ (s.conns c).point = .absent then
      some ({ s with accepted := s.accepted ++ [c] }.put c ((s.conns c).at_ .reading))
    else none
  | .write c bytes =>
    if (s.conns c).eof then none
    else some (s.put c { s.conns c with buffer := (s.conns c).buffer ++ bytes })
  | .hangUp c => some (s.put c { s.conns c with eof := true })
  | .serve c =>
    match (s.conns c).point with
    | .reading => s.handleClient env c
    | .nacking => some (s.put c ((s.conns c).at_ .reading))
    | .acking => some ({ s with handoverDone := true }.put c ((s.conns c).at_ .closed))
    | .absent | .closed => none
  | .handlerFails c e =>
    if (s.conns c).point.isOpen then some (s.fail c (s.conns c) e) else none
  | .wake =>
    if s.point = .waiting ∧ s.handoverDone = true then
      some { s with point := .closing s.clientError }
    else none
  | .timeout =>
    if s.point = .waiting then some { s with point := .closing (some .timeoutError) } else none
  | .finish =>
    match s.point with
    | .closing error =>
      if ∀ c ∈ s.accepted, (s.conns c).point.isOpen = false then
        some { s with point := s.outcome error }
      else none
    | _ => none

/-! ### What a step does -/

/-- The handler of connection `c` is about to write an acknowledgement. -/
def Acknowledges : Prop :=
  (s.conns c).point = .reading ∧ (∃ rest, Incoming.next env (s.conns c).buffer = .fin rest) ∧
    ∃ frame, s.ackFrame env c = .ok frame

/-- The handler of connection `c` is about to accept a session. -/
def Accepts : Prop :=
  (s.conns c).point = .reading ∧
    ∃ session rest, Incoming.next env (s.conns c).buffer = .session session rest

/-- A handler is about to raise an exception. -/
def Raises : ReceiveLabel → Prop
  | .handlerFails _ _ => True
  | .serve c => (s.conns c).point = .reading ∧
    match Incoming.next env (s.conns c).buffer with
    | .failed _ _ => True
    | .corrupt err _ => ∃ e, s.nackFrame env c err = .error e
    | .fin _ => ∃ e, s.ackFrame env c = .error e
    | _ => False
  | _ => False

/-- The steps by what they do to the variables of the call. -/
inductive Stepped : ReceiveLabel → ReceiveHandover → Prop
  /-- only the connection, and its handler if it runs on, is concerned -/
  | served (l : ReceiveLabel) (c : ℕ) (k : Incoming) (accepted : List ℕ) (hl : l.conn = some c)
    (hk : k.point = (s.conns c).point ∧ k.replies = (s.conns c).replies ∨
      (s.conns c).point ≠ .acking ∧ (s.conns c).point ≠ .closed)
    (hr : k.received = (s.conns c).received) :
    Stepped l ({ s with accepted := accepted }.put c k)
  | accepted (c : ℕ) (k : Incoming) (session : InferenceSession) (ha : s.Accepts env c)
    (hr : k.received = (s.conns c).received ++ [session]) :
    Stepped (.serve c) ({ s with receivedSessions := s.receivedSessions ++ [session] }.put c k)
  | acknowledged (c : ℕ) (k : Incoming) (ha : s.Acknowledges env c) (hk : k.point = .acking)
    (hr : k.received = (s.conns c).received)
    (hs : k.replies = (s.conns c).replies ++ [.ack (s.ack env c)]) :
    Stepped (.serve c) ({ s with acknowledged := s.acknowledged ++ [c] }.put c k)
  | raised (l : ReceiveLabel) (c : ℕ) (k : Incoming) (e : Exc) (hc : l.conn = some c)
    (hl : s.Raises env l) (hk : k.point = .closed) (hr : k.received = (s.conns c).received)
    (hs : k.replies = (s.conns c).replies) :
    Stepped l ({ s with clientError := some e }.put c k)
  | done (c : ℕ) (hp : (s.conns c).point = .acking) :
    Stepped (.serve c) ({ s with handoverDone := true }.put c ((s.conns c).at_ .closed))
  | woken (hp : s.point = .waiting) : Stepped .wake { s with point := .closing s.clientError }
  | timedOut (hp : s.point = .waiting) :
    Stepped .timeout { s with point := .closing (some .timeoutError) }
  | finished (error : Option Exc) (hp : s.point = .closing error) :
    Stepped .finish { s with point := s.outcome error }

variable {env s c} {t : ReceiveHandover} {l : ReceiveLabel}

theorem Stepped.of_handleClient (hp : (s.conns c).point = .reading)
    (h : s.handleClient env c = some t) : Stepped env s (.serve c) t := by
  have hreading : (s.conns c).point ≠ .acking ∧ (s.conns c).point ≠ .closed := by
    rw [hp]
    decide
  unfold handleClient at h
  simp only at h
  split at h
  · split_ifs at h
    obtain rfl := Option.some.inj h
    exact .served _ c _ s.accepted rfl (Or.inr hreading) rfl
  · rename_i err rest hnext
    split at h
    · obtain rfl := Option.some.inj h
      exact .served _ c _ s.accepted rfl (Or.inr hreading) rfl
    · rename_i e he
      obtain rfl := Option.some.inj h
      refine .raised _ c _ e rfl ⟨hp, ?_⟩ rfl rfl rfl
      rw [hnext]
      exact ⟨e, he⟩
  · rename_i e rest hnext
    obtain rfl := Option.some.inj h
    refine .raised _ c _ e rfl ⟨hp, ?_⟩ rfl rfl rfl
    rw [hnext]
    trivial
  · rename_i session rest hnext
    obtain rfl := Option.some.inj h
    exact .accepted c _ session ⟨hp, session, rest, hnext⟩ rfl
  · rename_i rest hnext
    split at h
    · rename_i frame hframe
      obtain rfl := Option.some.inj h
      exact .acknowledged c _ ⟨hp, ⟨rest, hnext⟩, frame, hframe⟩ rfl rfl rfl
    · rename_i e he
      obtain rfl := Option.some.inj h
      refine .raised _ c _ e rfl ⟨hp, ?_⟩ rfl rfl rfl
      rw [hnext]
      exact ⟨e, he⟩
  · obtain rfl := Option.some.inj h
    exact .served _ c _ s.accepted rfl (Or.inr hreading) rfl

theorem Stepped.of_eq (h : s.step env l = some t) : Stepped env s l t := by
  rcases l with c | ⟨c, bytes⟩ | c | c | ⟨c, e⟩ | _ | _ | _
  · simp only [step] at h
    split_ifs at h with hc
    obtain rfl := Option.some.inj h
    refine .served _ c _ _ rfl (Or.inr ?_) rfl
    rw [hc.2]
    decide
  · simp only [step] at h
    split_ifs at h
    obtain rfl := Option.some.inj h
    exact .served _ c _ s.accepted rfl (Or.inl ⟨rfl, rfl⟩) rfl
  · obtain rfl := Option.some.inj h
    exact .served _ c _ s.accepted rfl (Or.inl ⟨rfl, rfl⟩) rfl
  · simp only [step] at h
    split at h
    · rename_i hp
      exact .of_handleClient hp h
    · rename_i hp
      obtain rfl := Option.some.inj h
      refine .served _ c _ s.accepted rfl (Or.inr ?_) rfl
      rw [hp]
      decide
    · rename_i hp
      obtain rfl := Option.some.inj h
      exact .done c hp
    · cases h
    · cases h
  · simp only [step] at h
    split_ifs at h
    obtain rfl := Option.some.inj h
    exact .raised _ c _ e rfl trivial rfl rfl rfl
  · simp only [step] at h
    split_ifs at h with hc
    obtain rfl := Option.some.inj h
    exact .woken hc.1
  · simp only [step] at h
    split_ifs at h with hc
    obtain rfl := Option.some.inj h
    exact .timedOut hc
  · simp only [step] at h
    split at h
    · rename_i error hp
      split_ifs at h
      obtain rfl := Option.some.inj h
      exact .finished error hp
    · cases h

/-- A step of a connection touches no other. -/
theorem step_other (h : s.step env l = some t) (hl : l.conn ≠ some c) : t.conns c = s.conns c := by
  cases Stepped.of_eq h with
  | served _ c' k accepted hc _ _ => exact put_of_ne _ c' (fun he => hl (by rw [hc, he])) k
  | accepted c' k _ _ _ => exact put_of_ne _ c' (fun he => hl (by rw [he]; rfl)) k
  | acknowledged c' k _ _ _ _ => exact put_of_ne _ c' (fun he => hl (by rw [he]; rfl)) k
  | raised _ c' k e hc _ _ _ _ => exact put_of_ne _ c' (fun he => hl (by rw [hc, he])) k
  | done c' _ => exact put_of_ne _ c' (fun he => hl (by rw [he]; rfl)) _
  | woken => rfl
  | timedOut => rfl
  | finished => rfl

/-! ### Up to the first acknowledgement -/

/-- If no other connection has brought a session, the list of all is that of
connection `c`. -/
def Shared (s : ReceiveHandover) : Prop :=
  ∀ c, (∀ c', c' ≠ c → (s.conns c').received = []) → s.receivedSessions = (s.conns c).received

theorem Shared.put {s : ReceiveHandover} (h : Shared s) {t : ReceiveHandover} {k : Incoming}
    (ht : t.conns = s.conns) (hs : t.receivedSessions = s.receivedSessions)
    (hr : k.received = (s.conns c).received) : Shared (t.put c k) := by
  have hsame : ∀ c', ((t.put c k).conns c').received = (s.conns c').received := by
    intro c'
    by_cases hc : c' = c
    · rw [hc, put_self, hr]
    · rw [put_of_ne t c hc, ht]
  intro c₀ hothers
  rw [hsame]
  show t.receivedSessions = _
  rw [hs]
  apply h c₀
  intro c' hc'
  rw [← hsame]
  exact hothers c' hc'

theorem shared_step (h : Shared s) (hstep : s.step env l = some t) : Shared t := by
  cases Stepped.of_eq hstep with
  | served _ c k accepted _ hk hr => exact h.put rfl rfl hr
  | accepted c k session ha hr =>
    intro c₀ hothers
    by_cases hc : c₀ = c
    · subst hc
      rw [put_self, hr]
      show s.receivedSessions ++ [session] = _
      rw [h c₀]
      intro c' hc'
      have hempty := hothers c' hc'
      rwa [put_of_ne _ c₀ hc'] at hempty
    · have hempty := hothers c (Ne.symm hc)
      rw [put_self, hr] at hempty
      simp at hempty
  | acknowledged c k _ _ hr _ => exact h.put rfl rfl hr
  | raised _ c k e _ _ _ hr _ => exact h.put rfl rfl hr
  | done c hp => exact h.put rfl rfl rfl
  | woken => exact h
  | timedOut => exact h
  | finished => exact h

/-! ### From the first acknowledgement on -/

/-- What a step has to meet. When the first acknowledgement is written, no
other connection has brought a session and no handler an exception; from then
on no handler raises while the call waits for the event, the time is not up,
and no session is accepted until the call is over. -/
structure Orderly (env : P2PEnv) (s : ReceiveHandover) (l : ReceiveLabel) (_ : ReceiveHandover) :
    Prop where
  first : ∀ c, l = .serve c → s.point = .waiting → s.acknowledged = [] → s.Acknowledges env c →
    s.clientError = none ∧ ∀ c', c' ≠ c → (s.conns c').received = []
  calm : s.acknowledged ≠ [] → s.point = .waiting → ¬ s.Raises env l ∧ l ≠ .timeout
  unmixed : s.acknowledged ≠ [] → s.point = .waiting ∨ s.point = .closing none →
    ∀ c, l = .serve c → ¬ s.Accepts env c

/-- The other part of the condition: the end of the call waits until every
connection is closed, and `c` is closed with its acknowledgement. -/
def OthersClosed (c : ℕ) (s : ReceiveHandover) : Prop :=
  ∀ c', c' ≠ c → (s.conns c').point.isOpen = false

/-- The outcome of the call, known or to come, is what connection `c` brought. -/
structure Bound (c : ℕ) (s : ReceiveHandover) : Prop where
  waiting : s.point = .waiting → s.receivedSessions = (s.conns c).received ∧ s.clientError = none ∧
    ((s.conns c).point = .closed → s.handoverDone = true)
  closing : ∀ error, s.point = .closing error →
    error = none ∧ s.receivedSessions = (s.conns c).received
  returned : ∀ sessions, s.point = .returned sessions → sessions = (s.conns c).received
  raised : ∀ e, s.point ≠ .raised e

/-- Connection `c` was acknowledged, with the ids of what it brought. -/
structure Acked (c : ℕ) (s : ReceiveHandover) : Prop where
  listed : s.acknowledged ≠ []
  handler : (s.conns c).point = .acking ∨ (s.conns c).point = .closed
  reply : ∃ ack, (s.conns c).replies.getLast? = some (HandoverReply.ack ack) ∧
    ack.acceptedRequestIds = (s.conns c).received.map (·.requestId)
  bound : Bound c s

theorem step_of_acknowledges (ha : s.Acknowledges env c) :
    ∃ rest, s.step env (.serve c) = some ({ s with acknowledged := s.acknowledged ++ [c] }.put c
      { (s.conns c).readOff rest with
        point := .acking
        replies := (s.conns c).replies ++ [HandoverReply.ack (s.ack env c)] }) := by
  obtain ⟨hp, ⟨rest, hnext⟩, frame, hframe⟩ := ha
  refine ⟨rest, ?_⟩
  simp only [step, hp, handleClient, hnext, hframe]

/-- The first acknowledgement. -/
theorem acked_of_acknowledges (hs : Shared s) (hw : s.point = .waiting) (hnone : s.acknowledged = [])
    (ha : s.Acknowledges env c) (hstep : s.step env (.serve c) = some t)
    (ho : Orderly env s (.serve c) t) : Acked c t := by
  obtain ⟨herr, hothers⟩ := ho.first c rfl hw hnone ha
  have hall := hs c hothers
  obtain ⟨rest, hrest⟩ := step_of_acknowledges ha
  obtain rfl := Option.some.inj (hrest.symm.trans hstep)
  refine ⟨?_, ?_, ⟨s.ack env c, ?_, ?_⟩, fun _ => ?_, fun e he => ?_, fun r hr => ?_, fun e he => ?_⟩
  · show s.acknowledged ++ [c] ≠ []
    simp
  · rw [put_self]
    exact Or.inl rfl
  · rw [put_self]
    exact List.getLast?_concat
  · rw [put_self]
    show s.receivedSessions.map _ = (s.conns c).received.map _
    rw [hall]
  · rw [put_self]
    exact ⟨hall, herr, fun h => by cases h⟩
  · exact absurd (hw.symm.trans he) (by simp)
  · exact absurd (hw.symm.trans hr) (by simp)
  · exact absurd (hw.symm.trans he) (by simp)

/-- The handler of an acknowledged connection reads nothing any more. -/
theorem Acked.not_reading (h : Acked c s) : (s.conns c).point ≠ .reading := by
  rcases h.handler with hp | hp
  · rw [hp]
    decide
  · rw [hp]
    decide

/-- Of its connection nothing changes but that it is closed, after the event is
set or by an exception. -/
theorem Acked.conn (h : Acked c s) (hstep : s.step env l = some t) :
    (t.conns c).received = (s.conns c).received ∧ (t.conns c).replies = (s.conns c).replies ∧
      ((t.conns c).point = (s.conns c).point ∧ (s.handoverDone = true → t.handoverDone = true) ∨
        (t.conns c).point = .closed ∧ (t.handoverDone = true ∨ s.Raises env l)) := by
  cases Stepped.of_eq hstep with
  | served _ c' k accepted _ hk hr =>
    by_cases hc : c = c'
    · subst hc
      rw [put_self]
      rcases hk with ⟨hp, hs⟩ | ⟨hne, hne'⟩
      · exact ⟨hr, hs, Or.inl ⟨hp, id⟩⟩
      · exact absurd h.handler (not_or.mpr ⟨hne, hne'⟩)
    · rw [put_of_ne _ c' hc]
      exact ⟨rfl, rfl, Or.inl ⟨rfl, id⟩⟩
  | accepted c' k session ha hr =>
    have hc : c ≠ c' := by
      rintro rfl
      exact h.not_reading ha.1
    rw [put_of_ne _ c' hc]
    exact ⟨rfl, rfl, Or.inl ⟨rfl, id⟩⟩
  | acknowledged c' k ha _ _ _ =>
    have hc : c ≠ c' := by
      rintro rfl
      exact h.not_reading ha.1
    rw [put_of_ne _ c' hc]
    exact ⟨rfl, rfl, Or.inl ⟨rfl, id⟩⟩
  | raised _ c' k e _ hl hk hr hs =>
    by_cases hc : c = c'
    · subst hc
      rw [put_self]
      exact ⟨hr, hs, Or.inr ⟨hk, Or.inr hl⟩⟩
    · rw [put_of_ne _ c' hc]
      exact ⟨rfl, rfl, Or.inl ⟨rfl, id⟩⟩
  | done c' _ =>
    by_cases hc : c = c'
    · subst hc
      rw [put_self]
      exact ⟨rfl, rfl, Or.inr ⟨rfl, Or.inl rfl⟩⟩
    · rw [put_of_ne _ c' hc]
      exact ⟨rfl, rfl, Or.inl ⟨rfl, fun _ => rfl⟩⟩
  | woken => exact ⟨rfl, rfl, Or.inl ⟨rfl, id⟩⟩
  | timedOut => exact ⟨rfl, rfl, Or.inl ⟨rfl, id⟩⟩
  | finished => exact ⟨rfl, rfl, Or.inl ⟨rfl, id⟩⟩

/-- A step of a handler keeps the outcome. -/
theorem Bound.keep (hb : Bound c s) (hp : t.point = s.point)
    (hrec : (t.conns c).received = (s.conns c).received)
    (hr : s.point = .waiting ∨ s.point = .closing none → t.receivedSessions = s.receivedSessions)
    (hw : s.point = .waiting → t.clientError = s.clientError ∧
      ((t.conns c).point = .closed → t.handoverDone = true)) : Bound c t where
  waiting h := by
    rw [hp] at h
    obtain ⟨hall, herr, -⟩ := hb.waiting h
    rw [hr (Or.inl h), hrec, (hw h).1]
    exact ⟨hall, herr, (hw h).2⟩
  closing error h := by
    rw [hp] at h
    obtain ⟨rfl, hall⟩ := hb.closing error h
    rw [hr (Or.inr h), hrec]
    exact ⟨rfl, hall⟩
  returned sessions h := by
    rw [hp] at h
    rw [hrec]
    exact hb.returned sessions h
  raised e h := by
    rw [hp] at h
    exact hb.raised e h

theorem acked_step (h : Acked c s) (hstep : s.step env l = some t) (ho : Orderly env s l t) :
    Acked c t := by
  obtain ⟨hrec, hrep, hpt⟩ := h.conn hstep
  have hhandler : (t.conns c).point = .acking ∨ (t.conns c).point = .closed := by
    rcases hpt with ⟨hp, -⟩ | ⟨hp, -⟩
    · rw [hp]
      exact h.handler
    · exact Or.inr hp
  have hreply : ∃ ack, (t.conns c).replies.getLast? = some (HandoverReply.ack ack) ∧
      ack.acceptedRequestIds = (t.conns c).received.map (·.requestId) := by
    rw [hrep, hrec]
    exact h.reply
  have hb := h.bound
  have hdone : s.point = .waiting → (t.conns c).point = .closed → t.handoverDone = true := by
    intro hw hclosed
    rcases hpt with ⟨hp, hmono⟩ | ⟨-, hd | hl⟩
    · rw [hp] at hclosed
      exact hmono ((hb.waiting hw).2.2 hclosed)
    · exact hd
    · exact absurd hl (ho.calm h.listed hw).1
  have hlisted : t.acknowledged ≠ [] ∧ Bound c t := by
    cases Stepped.of_eq hstep with
    | served _ c' k accepted _ _ _ =>
      exact ⟨h.listed, hb.keep rfl hrec (fun _ => rfl) fun hw => ⟨rfl, hdone hw⟩⟩
    | accepted c' k session ha _ =>
      refine ⟨h.listed, hb.keep rfl hrec (fun hp => ?_) fun hw => ⟨rfl, hdone hw⟩⟩
      exact absurd ha (ho.unmixed h.listed hp c' rfl)
    | acknowledged c' k _ _ _ _ =>
      refine ⟨?_, hb.keep rfl hrec (fun _ => rfl) fun hw => ⟨rfl, hdone hw⟩⟩
      show s.acknowledged ++ [c'] ≠ []
      simp
    | raised _ c' k e _ hl _ _ _ =>
      refine ⟨h.listed, hb.keep rfl hrec (fun _ => rfl) fun hw => ?_⟩
      exact absurd hl (ho.calm h.listed hw).1
    | done c' _ =>
      exact ⟨h.listed, hb.keep rfl hrec (fun _ => rfl) fun hw => ⟨rfl, hdone hw⟩⟩
    | woken hw =>
      obtain ⟨hall, herr, -⟩ := hb.waiting hw
      refine ⟨h.listed, ?_, ?_, ?_, ?_⟩
      · intro hp
        cases hp
      · intro error hp
        obtain rfl := ReceivePoint.closing.inj hp
        exact ⟨herr, hall⟩
      · intro r hp
        cases hp
      · intro e hp
        cases hp
    | timedOut hw => exact absurd rfl (ho.calm h.listed hw).2
    | finished error hp =>
      obtain ⟨rfl, hall⟩ := hb.closing error hp
      refine ⟨h.listed, ?_, ?_, ?_, ?_⟩
      · intro hp'
        cases hp'
      · intro e hp'
        cases hp'
      · intro r hp'
        obtain rfl := ReceivePoint.returned.inj hp'
        exact hall
      · intro e hp'
        cases hp'
  exact ⟨hlisted.1, hhandler, hreply, hlisted.2⟩

/-! ### The call returns -/

/-- With every connection closed, the call wakes up and returns. -/
theorem returns_of_closed (h : Acked c s) (hclosed : ∀ c', (s.conns c').point.isOpen = false) :
    ∃ ls t, Machine.run (step env) s ls = some t ∧ t.point = .returned (s.conns c).received := by
  have hpoint : (s.conns c).point = .closed := by
    rcases h.handler with hp | hp
    · have hopen := hclosed c
      rw [hp] at hopen
      cases hopen
    · exact hp
  have hall : ∀ c' ∈ s.accepted, (s.conns c').point.isOpen = false := fun c' _ => hclosed c'
  cases hp : s.point with
  | waiting =>
    obtain ⟨hrec, herr, hdone⟩ := h.bound.waiting hp
    refine ⟨[.wake, .finish], { s with point := .returned s.receivedSessions }, ?_, ?_⟩
    · simp only [Machine.run_cons, Machine.run_nil, step, hp, hdone hpoint, herr, and_self, if_true,
        Option.bind_some, if_pos hall, outcome]
    · rw [hrec]
  | closing error =>
    obtain ⟨rfl, hrec⟩ := h.bound.closing error hp
    refine ⟨[.finish], { s with point := .returned s.receivedSessions }, ?_, ?_⟩
    · simp only [Machine.run_cons, Machine.run_nil, step, hp, if_pos hall, outcome,
        Option.bind_some]
    · rw [hrec]
  | returned sessions =>
    refine ⟨[], s, rfl, ?_⟩
    rw [hp, h.bound.returned sessions hp]
  | raised e => exact absurd hp (h.bound.raised e)

/-- A step of an acknowledged handler is always orderly. -/
theorem orderly_serve (h : Acked c s) : Orderly env s (.serve c) t where
  first c' hc _ _ ha := by
    obtain rfl := ReceiveLabel.serve.inj hc
    exact absurd ha.1 h.not_reading
  calm _ _ := by
    refine ⟨fun hl => absurd hl.1 h.not_reading, fun hl => ?_⟩
    cases hl
  unmixed _ _ c' hc ha := by
    obtain rfl := ReceiveLabel.serve.inj hc
    exact absurd ha.1 h.not_reading

theorem returns_of_acked (h : Acked c s) (hothers : s.OthersClosed c) :
    ∃ ls t, Machine.run (step env) s ls = some t ∧ t.point = .returned (s.conns c).received := by
  rcases h.handler with hp | hp
  · let u := { s with handoverDone := true }.put c ((s.conns c).at_ .closed)
    have hstep : s.step env (.serve c) = some u := by simp only [step, hp, u]
    have hu : Acked c u := acked_step h hstep (orderly_serve h)
    have hself : u.conns c = (s.conns c).at_ .closed := put_self ..
    have hclosed : ∀ c', (u.conns c').point.isOpen = false := by
      intro c'
      by_cases hc : c' = c
      · rw [hc, hself]
        rfl
      · show (({ s with handoverDone := true }.put c _).conns c').point.isOpen = false
        rw [put_of_ne _ c hc]
        exact hothers c' hc
    obtain ⟨ls, t, hr, ht⟩ : ∃ ls t, Machine.run (step env) u ls = some t ∧
        t.point = .returned (u.conns c).received := returns_of_closed hu hclosed
    refine ⟨.serve c :: ls, t, Machine.run_cons_eq_some.mpr ⟨u, hstep, hr⟩, ?_⟩
    rw [ht, hself]
    rfl
  · apply returns_of_closed h
    intro c'
    by_cases hc : c' = c
    · rw [hc, hp]
      rfl
    · exact hothers c' hc

/-- One-shot handover. In an orderly run, once the listener writes its first
acknowledgement, on connection `c` and before the timeout, the acknowledgement
has the ids of the sessions that came on `c`, the call does not raise, what it
returns are these sessions, in order, and it does return when the other
connections are closed. -/
theorem receiveHandover_returns {nodeId : String} {pre post : List ReceiveLabel} {v : ReceiveHandover}
    (hr : Machine.run (step env) { nodeId := nodeId } (pre ++ .serve c :: post) = some t)
    (ho : Machine.Along (step env) (Orderly env) { nodeId := nodeId } (pre ++ .serve c :: post))
    (hv : Machine.run (step env) { nodeId := nodeId } pre = some v) (hw : v.point = .waiting)
    (hnone : v.acknowledged = []) (hack : v.Acknowledges env c) :
    (∃ ack, (t.conns c).replies.getLast? = some (HandoverReply.ack ack) ∧
      ack.acceptedRequestIds = (t.conns c).received.map (·.requestId)) ∧
    (∀ e, t.point ≠ .raised e) ∧
    (∀ sessions, t.point = .returned sessions → sessions = (t.conns c).received) ∧
    (t.OthersClosed c →
      ∃ ls u, Machine.run (step env) t ls = some u ∧ u.point = .returned (t.conns c).received) := by
  obtain ⟨v', hv', hpost⟩ := Machine.run_append_eq_some.mp hr
  obtain rfl := Option.some.inj (hv.symm.trans hv')
  obtain ⟨w, hstep, hpost⟩ := Machine.run_cons_eq_some.mp hpost
  obtain ⟨horderly, hrest⟩ := (ho.append_right hv) w hstep
  have hshared : Shared v := Machine.run_inv (I := Shared) (fun _ _ _ hs ht => shared_step hs ht)
    (fun _ _ => rfl) hv
  have hacked : Acked c t := Machine.run_inv_along (I := Acked c)
    (fun _ _ _ hs ht hq => acked_step hs ht hq)
    (acked_of_acknowledges hshared hw hnone hack hstep horderly) hrest hpost
  exact ⟨hacked.reply, hacked.bound.raised, hacked.bound.returned, returns_of_acked hacked⟩

/-! ### A handover, and an aborted one before it -/

/-- The JSON of sessions with all defaults but the id. -/
def listenerEnv : P2PEnv where
  zlib := { compress := id, decompress := .ok }
  handoverInit := initCodec
  session := .around "\x7b\"request_id\":\"" "\"\x7d" (·.requestId) fun id => { requestId := id }
  handoverAck := ackCodec
  handoverNack := nackCodec
  transit := fun _ => .flip fun _ => false
  clientTimeNs := fun _ => 0
  serverTimeNs := fun _ _ => 0

def frameOf (msgType : ℕ) (payload : Bytes) : Bytes :=
  match packFrame listenerEnv.zlib msgType payload FrameFlags.none protocolVersion false with
  | .ok frame => frame
  | .error _ => []

/-- The frame of a session. -/
def stateFrame (id : String) : Bytes :=
  frameOf MessageType.requestState (listenerEnv.session.dump { requestId := id })

def finFrame : Bytes := frameOf MessageType.handoverFin finPayload

theorem orderly_of_fresh (hnone : s.acknowledged = []) (herr : s.clientError = none)
    (hothers : ∀ c c', l = .serve c → c' ≠ c → (s.conns c').received = []) : Orderly env s l t where
  first c hl _ _ _ := ⟨herr, fun c' hc => hothers c c' hl hc⟩
  calm h := absurd hnone h
  unmixed h := absurd hnone h

/-- The acknowledgement of a listener with few sessions is small. -/
theorem listener_acknowledges {ids : List String} (hp : (s.conns c).point = .reading)
    (hnext : Incoming.next listenerEnv (s.conns c).buffer = .fin [])
    (hids : s.receivedSessions.map (·.requestId) = ids)
    (hsmall : (",".intercalate (ids.map fun id => "\"" ++ id ++ "\"")).utf8ByteSize ≤ 1000) :
    s.Acknowledges listenerEnv c := by
  have hsize : (ackCodec.dump (s.ack listenerEnv c)).length ≤ 2000 := by
    unfold ackCodec ack
    rw [Codec.length_around]
    simp only [hids]
    have hpre : "\x7b\"source_node_id\":\"node-standby\",\"accepted_request_ids\":[".utf8ByteSize +
        "],\"rejected_request_ids\":[],\"standby_ready_timestamp_ns\":0,\"resume_port\":8002\x7d".utf8ByteSize
          ≤ 1000 := by decide +kernel
    omega
  have hmax : 2000 ≤ maxPayloadSize := by decide
  refine ⟨hp, ⟨_, hnext⟩,
    replyBytes listenerEnv MessageType.handoverAck (ackCodec.dump (s.ack listenerEnv c)), ?_⟩
  exact packFrame_reply (by decide) (hsize.trans hmax)

/-- A sender with one session, up to its last frame. -/
def untilFin : List ReceiveLabel :=
  [.connect 0, .write 0 (stateFrame "a" ++ finFrame), .serve 0]

theorem untilFin_run :
    (Machine.run (step listenerEnv) { nodeId := "node-standby" } untilFin).map (fun v =>
      (v.point, v.acknowledged, v.receivedSessions.map (·.requestId), (v.conns 0).point,
        Incoming.next listenerEnv (v.conns 0).buffer)) =
    some (.waiting, [], ["a"], .reading, .fin []) := by decide +kernel

/-- A run of one connection leaves the others. -/
theorem conns_of_other {ls : List ReceiveLabel} (hconn : ∀ l ∈ ls, l.conn = some c) {c' : ℕ} (hc : c' ≠ c)
    (hr : Machine.run (step env) s ls = some t) : t.conns c' = s.conns c' := by
  refine Machine.run_inv_along (I := fun v => v.conns c' = s.conns c')
    (Q := fun _ l _ => l.conn = some c) (fun v b w hv hstep hb => ?_) rfl (Machine.Along.of_labels hconn) hr
  rw [step_other hstep (by rw [hb]; exact fun he => hc (Option.some.inj he).symm)]
  exact hv

theorem untilFin_conn : ∀ l ∈ untilFin ++ [ReceiveLabel.serve 0], l.conn = some 0 := by
  simp [untilFin, ReceiveLabel.conn]

theorem untilFin_orderly : Machine.Along (step listenerEnv) (Orderly listenerEnv)
    { nodeId := "node-standby" } (untilFin ++ [ReceiveLabel.serve 0]) := by
  have hclean : ∀ n < 4, (Machine.run (step listenerEnv) { nodeId := "node-standby" }
      ((untilFin ++ [ReceiveLabel.serve 0]).take n)).map (fun u => (u.acknowledged, u.clientError)) =
        some ([], none) := by decide +kernel
  apply Machine.Along.of_splits
  intro bs l cs u t hls hu _
  have hbs : bs = (untilFin ++ [ReceiveLabel.serve 0]).take bs.length := by rw [hls, List.take_left]
  have hlen : bs.length < 4 := by
    have := congrArg List.length hls
    simp [untilFin] at this
    omega
  have hfresh := hclean bs.length hlen
  rw [← hbs, hu] at hfresh
  obtain ⟨hnone, herr⟩ := Prod.mk.inj (Option.some.inj hfresh)
  refine orderly_of_fresh hnone herr fun c c' hl hc => ?_
  have hc0 : c' ≠ 0 := by
    have h0 := untilFin_conn l (by rw [hls]; simp)
    rw [hl] at h0
    rwa [← Option.some.inj h0]
  rw [conns_of_other (fun b hb => untilFin_conn b (by rw [hls]; exact List.mem_append_left _ hb)) hc0 hu]

theorem receiveHandover_returns_untilFin :
    ∃ t, Machine.run (step listenerEnv) { nodeId := "node-standby" }
        (untilFin ++ [ReceiveLabel.serve 0]) = some t ∧
      (∃ ack, (t.conns 0).replies.getLast? = some (HandoverReply.ack ack) ∧
        ack.acceptedRequestIds = (t.conns 0).received.map (·.requestId)) ∧
      (∀ e, t.point ≠ .raised e) ∧
      (∀ sessions, t.point = .returned sessions → sessions = (t.conns 0).received) ∧
      ∃ ls u, Machine.run (step listenerEnv) t ls = some u ∧ u.point = .returned (t.conns 0).received := by
  obtain ⟨v, hv, hfacts⟩ := Option.map_eq_some_iff.mp untilFin_run
  simp only [Prod.mk.injEq] at hfacts
  obtain ⟨hw, hnone, hids, hp, hnext⟩ := hfacts
  have hack : v.Acknowledges listenerEnv 0 :=
    listener_acknowledges hp hnext hids (by decide +kernel)
  obtain ⟨rest, hstep⟩ := step_of_acknowledges hack
  have hlast := Machine.run_cons_eq_some.mpr ⟨_, hstep, Machine.run_nil ..⟩
  have hr := Machine.run_append_eq_some.mpr ⟨v, hv, hlast⟩
  obtain ⟨hids, hcalm, hsame, hreturns⟩ := receiveHandover_returns hr untilFin_orderly hv hw hnone hack
  refine ⟨_, hr, hids, hcalm, hsame, hreturns fun c' hc => ?_⟩
  rw [conns_of_other untilFin_conn hc hr]
  rfl

/-- A sender hangs up after its session, and another does not. -/
def retriedUntilFin : List ReceiveLabel :=
  [.connect 0, .write 0 (stateFrame "a"), .serve 0, .hangUp 0, .serve 0, .connect 1,
    .write 1 (stateFrame "b" ++ finFrame), .serve 1]

theorem retriedUntilFin_run :
    (Machine.run (step listenerEnv) { nodeId := "node-standby" } retriedUntilFin).map (fun v =>
      decide (v.point = .waiting ∧ v.acknowledged = [] ∧ v.clientError = none ∧ v.accepted = [0, 1] ∧
        v.receivedSessions.map (·.requestId) = ["a", "b"] ∧
        (v.conns 1).received.map (·.requestId) = ["b"] ∧ (v.conns 0).point = .closed ∧
        (v.conns 1).point = .reading ∧ Incoming.next listenerEnv (v.conns 1).buffer = .fin [])) =
    some true := by decide +kernel

/-- The listener acknowledges and returns the session of the first sender too. -/
theorem receiveHandover_mixed :
    ∃ t sessions, Machine.run (step listenerEnv) { nodeId := "node-standby" }
        (retriedUntilFin ++ [.serve 1, .serve 1, .wake, .finish]) = some t ∧
      t.acknowledged = [1] ∧ t.point = .returned sessions ∧
      sessions.map (·.requestId) = ["a", "b"] ∧ (t.conns 1).received.map (·.requestId) = ["b"] := by
  obtain ⟨v, hv, hfacts⟩ := Option.map_eq_some_iff.mp retriedUntilFin_run
  obtain ⟨hw, hnone, herr, haccepted, hids, hids', hp0, hp1, hnext⟩ := of_decide_eq_true hfacts
  obtain ⟨rest, hstep⟩ := step_of_acknowledges
    (listener_acknowledges hp1 hnext hids (by decide +kernel))
  let k : Incoming := { (v.conns 1).readOff rest with
    point := .closed
    replies := (v.conns 1).replies ++ [HandoverReply.ack (v.ack listenerEnv 1)] }
  let t : ReceiveHandover := { v with
    acknowledged := v.acknowledged ++ [1]
    handoverDone := true
    point := .returned v.receivedSessions
    conns := Function.update v.conns 1 k }
  refine ⟨t, v.receivedSessions, Machine.run_append_eq_some.mpr ⟨v, hv,
    Machine.run_cons_eq_some.mpr ⟨_, hstep, ?_⟩⟩, ?_, rfl, hids, ?_⟩
  · simp [Machine.run_cons, Machine.run_nil, step, put, hw, herr, haccepted, hp0, outcome, Incoming.at_,
      IncomingPoint.isOpen, t, k]
  · show v.acknowledged ++ [1] = [1]
    rw [hnone]
    rfl
  · show ((Function.update v.conns 1 k) 1).received.map _ = ["b"]
    rw [Function.update_self]
    exact hids'

end ReceiveHandover

end Sgm
