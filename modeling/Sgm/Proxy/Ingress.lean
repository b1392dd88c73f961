/-
# The ingress proxy

`proxy/ingress.py`: the handlers of the completion endpoints and of the
handover signals, over one multiplexer. A request is handled by a task, which
runs from one suspension to the next: the reading of the body, the
preparation of the response, the relay loop, the forwarding of a request that
does not stream. Handler `h` of a streaming request consumes generator `h` of
the multiplexer. A `ProxyLabel` is one move: a handler's, the arrival of a
signal, or the passing of time.

What the upstreams answer is up to the environment `Env`, each connection of
each request by itself. A request id with a surrogate is no `String`; such a
request is left out.

Every move of the proxy is a series of moves of its multiplexer
(`Stepped.run`), which is what carries results about the multiplexer over.

Key definitions: `Env`, `IngressProxy`, `IngressProxy.step`, `Stepped`, `Linked`, `Sole`.
Key theorems: `Stepped.of_step`, `Stepped.run`, `Stepped.linked`, `Stepped.handler`,
`Stepped.along_apart`.
-/
import Sgm.Proxy.ExactlyOnce
import Sgm.Proxy.Sse

namespace Sgm

/-! ### The environment -/

/-- The connections a streaming request opens. -/
inductive Connection
  | active
  | standby
  deriving DecidableEq

structure Env where
  /-- What request `h` meets when it posts a body to a url. -/
  post : ℕ → Connection → String → Json → Reply
  /-- `str` of a value that is not a string. -/
  show_ : Json → List Char
  uuid : ℕ → String

/-! ### The handlers -/

/-- Where a handler is suspended. -/
inductive HandlerPoint
  | absent
  /-- in `await request.json()` -/
  | reading
  /-- in `await response.prepare(request)` -/
  | preparing
  /-- in the relay loop -/
  | relaying
  /-- in `_handle_non_streaming` -/
  | forwarding
  | returned
  deriving DecidableEq

/-- A handler with its local variables. -/
structure Handler where
  point : HandlerPoint := .absent
  requestId : String := ""
  body : List (List Char × Json) := []
  /-- The upstream of the request, once it is chosen. -/
  initialUrl : String := ""

structure IngressProxy where
  activeUpstreamUrl : String
  standbyUpstreamUrl : String
  isPreemptionActive : Bool := false
  inFlightRequests : Dict String (List (List Char × Json)) := Dict.empty
  /-- `self.multiplexer`, with the generators made by the handlers. -/
  system : System
  handlers : ℕ → Handler := fun _ => {}

inductive ProxyLabel
  /-- a POST to `/v1/chat/completions` or `/v1/completions` -/
  | request (h : ℕ)
  /-- the body of the request, if it is JSON -/
  | body (h : ℕ) (data : Option Json)
  | prepared (h : ℕ)
  | prepareFails (h : ℕ)
  | resume (h : ℕ)
  /-- the write of an item to the client raises -/
  | writeFails (h : ℕ)
  /-- the task of the handler is cancelled -/
  | cancel (h : ℕ)
  /-- a generator without consumer is closed by the event loop -/
  | finalize (h : ℕ)
  /-- the upstream has answered a request that does not stream -/
  | forwarded (h : ℕ)
  | preemptionAlert (data : Json)
  | handoverReady (data : Json)
  | elapse (dt : ℕ)

/-- `url.rstrip("/")`. -/
def rstripSlash (url : String) : String :=
  String.ofList ((url.toList.reverse.dropWhile (· = '/')).reverse)

def completionsUrl (url : String) : String := url ++ "/v1/chat/completions"

/-- `str(body.get("request_id") or f"req-{uuid.uuid4()}")`. -/
def requestIdOf (env : Env) (h : ℕ) (body : List (List Char × Json)) : String :=
  let requestId := (Json.field? body "request_id".toList).getD .null
  if requestId.truthy then
    match requestId with
    | .str s => String.ofList (s.toText?.getD [])
    | j => String.ofList (env.show_ j)
  else "req-" ++ env.uuid h

/-- `body["request_id"] = request_id`. -/
def withRequestId (body : List (List Char × Json)) (requestId : String) : List (List Char × Json) :=
  Json.setField body "request_id".toList (.text requestId.toList)

/-- The request id, if it is a string, has no surrogates. -/
def hasTextId (body : List (List Char × Json)) : Bool :=
  match Json.field? body "request_id".toList with
  | some (.str s) => s.toText?.isSome
  | _ => true

/-- The body of the request to the standby. -/
def standbyBody (body : List (List Char × Json)) (lastFlushed : ℤ) : List (List Char × Json) :=
  Json.setField (Json.setField body "start_seq_id".toList (.int (lastFlushed + 1)))
    "is_resume".toList (.bool true)

def activeGen (env : Env) (h : ℕ) (initialUrl : String) (body : List (List Char × Json))
    (requestId : String) : Upstream :=
  sseChunkGenerator (env.post h .active) (completionsUrl initialUrl) (.obj body) requestId

/-- The standby resumes from the last flushed id. -/
def standbyFactory (env : Env) (h : ℕ) (standbyUrl : String) (body : List (List Char × Json))
    (requestId : String) (lastFlushed : ℤ) : Except Exc Upstream :=
  .ok (sseChunkGenerator (env.post h .standby) (completionsUrl standbyUrl)
    (.obj (standbyBody body lastFlushed)) requestId)

namespace IngressProxy

def new (activeUpstreamUrl standbyUpstreamUrl : String) : IngressProxy where
  activeUpstreamUrl := rstripSlash activeUpstreamUrl
  standbyUpstreamUrl := rstripSlash standbyUpstreamUrl
  system := System.init 1024 (by decide) 800000000

def put (p : IngressProxy) (h : ℕ) (x : Handler) : IngressProxy :=
  { p with handlers := Function.update p.handlers h x }

def goto (p : IngressProxy) (h : ℕ) (point : HandlerPoint) : IngressProxy :=
  p.put h { p.handlers h with point := point }

/-- Moves of the multiplexer, with no other task in between. -/
def drive (p : IngressProxy) (ls : List Label) : Option IngressProxy :=
  (Machine.run System.step p.system ls).map fun system => { p with system := system }

/-- The url for a new request. -/
def routeUrl (p : IngressProxy) : String :=
  if p.isPreemptionActive then p.standbyUpstreamUrl else p.activeUpstreamUrl

/-- A request with this body is in flight. One that does not stream is sent on
at once. -/
def accept (env : Env) (p : IngressProxy) (h : ℕ) (body : List (List Char × Json)) : IngressProxy :=
  let isStreaming := ((Json.field? body "stream".toList).getD (.bool true)).truthy
  let requestId := requestIdOf env h body
  let body := withRequestId body requestId
  { p with
    inFlightRequests := p.inFlightRequests.set requestId body
    handlers := Function.update p.handlers h {
      point := if isStreaming then .preparing else .forwarding
      requestId := requestId
      body := body
      initialUrl := if isStreaming then "" else p.routeUrl } }

/-- `handle_chat_completions`, from the body of the request on. -/
def acceptBody (env : Env) (p : IngressProxy) (h : ℕ) : Option Json → Option IngressProxy
  | none => some (p.goto h .returned)
  | some (.obj body) => if hasTextId body then some (p.accept env h body) else none
  -- `body.get` raises: the server answers with status 500
  | some _ => some (p.goto h .returned)

/-- From the prepared response to the first suspension in the relay loop. -/
def startRelay (env : Env) (p : IngressProxy) (h : ℕ) : Option IngressProxy :=
  let x := p.handlers h
  let initialUrl := p.routeUrl
  let active := activeGen env h initialUrl x.body x.requestId
  let factory := standbyFactory env h p.standbyUpstreamUrl x.body x.requestId
  (p.drive [.call h x.requestId active factory, .resume h]).map fun p =>
    p.put h { x with point := .relaying, initialUrl := initialUrl }

/-- The `finally` clause of the relay loop, and the return. -/
def leave (p : IngressProxy) (h : ℕ) : IngressProxy :=
  { p.goto h .returned with
    inFlightRequests := p.inFlightRequests.pop (p.handlers h).requestId }

/-- The generator is suspended in a `yield`, and its consumer in a write. -/
def writing (p : IngressProxy) (h : ℕ) : Bool :=
  match (p.system.generators h).point with
  | .yieldedActive _ | .yieldedKeepAlive _ | .yieldedStandby | .yieldedDone => true
  | _ => false

def ended (p : IngressProxy) (h : ℕ) : Bool :=
  match (p.system.generators h).point with
  | .ended _ => true
  | _ => false

/-- A resumption of the relay loop. -/
def relay (p : IngressProxy) (h : ℕ) : Option IngressProxy :=
  (p.drive [.resume h]).map fun p => if p.ended h then p.leave h else p

/-- A cancellation reaches the generator, unless the handler is writing. -/
def cancelled (p : IngressProxy) (h : ℕ) : Option IngressProxy :=
  match (p.handlers h).point with
  | .absent | .returned => none
  | .reading | .preparing | .forwarding => some (p.goto h .returned)
  | .relaying =>
    if p.writing h then some (p.leave h) else (p.drive [.close h]).map fun p => p.leave h

/-- `int(data.get("cutoff_sequence_id", -1))`; `none` where that raises. -/
def cutoffOf : Json → Option ℤ
  | .obj data => ((Json.field? data "cutoff_sequence_id".toList).getD (.int (-1))).toInt
  | _ => none

/-- `handle_preemption_alert`. The flag is set first, then the cutoff is read. -/
def handlePreemptionAlert (p : IngressProxy) (data : Json) : Option IngressProxy :=
  let p := { p with isPreemptionActive := true }
  match cutoffOf data with
  | some cutoffSeq => p.drive (p.inFlightRequests.keys.map (.triggerPreemption · cutoffSeq))
  | none => some p

/-- The request a ready signal is for. -/
def readyRequest : Json → Option String
  | .obj data =>
    match Json.field? data "request_id".toList with
    | some (.str requestId) =>
      -- no request in flight has an id with surrogates
      match requestId.toText? with
      | some requestId => if requestId ≠ [] then some (String.ofList requestId) else none
      | none => none
    | _ => none
  | _ => none

/-- `handle_handover_ready`. -/
def handleHandoverReady (p : IngressProxy) (data : Json) : Option IngressProxy :=
  match readyRequest data with
  | some requestId => p.drive [.triggerHandoverReady requestId]
  | none => some p

def step (env : Env) (p : IngressProxy) : ProxyLabel → Option IngressProxy
  | .request h => if (p.handlers h).point = .absent then some (p.goto h .reading) else none
  | .body h data => if (p.handlers h).point = .reading then p.acceptBody env h data else none
  | .prepared h => if (p.handlers h).point = .preparing then p.startRelay env h else none
  | .prepareFails h =>
    if (p.handlers h).point = .preparing then some (p.goto h .returned) else none
  | .resume h => if (p.handlers h).point = .relaying then p.relay h else none
  | .writeFails h =>
    if (p.handlers h).point = .relaying ∧ p.writing h then some (p.leave h) else none
  | .cancel h => p.cancelled h
  | .finalize h => if (p.handlers h).point = .returned then p.drive [.close h] else none
  | .forwarded h =>
    if (p.handlers h).point = .forwarding then some (p.goto h .returned) else none
  | .preemptionAlert data => p.handlePreemptionAlert data
  | .handoverReady data => p.handleHandoverReady data
  | .elapse dt => p.drive [.elapse dt]

/-! ### The moves of the multiplexer in a move of the proxy -/

/-- The multiplexer's part in a move. -/
def moves (env : Env) (p : IngressProxy) : ProxyLabel → List Label
  | .prepared h =>
    [.call h (p.handlers h).requestId
      (activeGen env h p.routeUrl (p.handlers h).body (p.handlers h).requestId)
      (standbyFactory env h p.standbyUpstreamUrl (p.handlers h).body (p.handlers h).requestId),
      .resume h]
  | .resume h => [.resume h]
  | .cancel h => if (p.handlers h).point = .relaying ∧ ¬ p.writing h then [.close h] else []
  | .finalize h => [.close h]
  | .preemptionAlert data =>
    match cutoffOf data with
    | some cutoffSeq => p.inFlightRequests.keys.map (.triggerPreemption · cutoffSeq)
    | none => []
  | .handoverReady data =>
    match readyRequest data with
    | some requestId => [.triggerHandoverReady requestId]
    | none => []
  | .elapse dt => [.elapse dt]
  | _ => []

/-- The outcomes of a move of the proxy. -/
inductive Stepped (env : Env) (p : IngressProxy) : ProxyLabel → IngressProxy → Prop
  | request (h : ℕ) (hp : (p.handlers h).point = .absent) :
    Stepped env p (.request h) (p.goto h .reading)
  | accepted (h : ℕ) (body : List (List Char × Json)) (hp : (p.handlers h).point = .reading) :
    Stepped env p (.body h (some (.obj body))) (p.accept env h body)
  | returned (h : ℕ) (l : ProxyLabel)
    (hp : (p.handlers h).point = .reading ∨ (p.handlers h).point = .preparing ∨
      (p.handlers h).point = .forwarding)
    (hl : (∃ data, l = .body h data ∧ ∀ body, data ≠ some (.obj body)) ∨ l = .prepareFails h ∨
      l = .cancel h ∨ l = .forwarded h ∧ (p.handlers h).point = .forwarding) :
    Stepped env p l (p.goto h .returned)
  | prepared (h : ℕ) (s : System) (hp : (p.handlers h).point = .preparing)
    (hs : Machine.run System.step p.system (p.moves env (.prepared h)) = some s) :
    Stepped env p (.prepared h) (({ p with system := s } : IngressProxy).put h
      { p.handlers h with point := .relaying, initialUrl := p.routeUrl })
  | resumed (h : ℕ) (s : System) (hp : (p.handlers h).point = .relaying)
    (hs : p.system.step (.resume h) = some s) (he : ∀ o, (s.generators h).point ≠ .ended o) :
    Stepped env p (.resume h) { p with system := s }
  | finished (h : ℕ) (s : System) (hp : (p.handlers h).point = .relaying)
    (hs : p.system.step (.resume h) = some s) (he : ∃ o, (s.generators h).point = .ended o) :
    Stepped env p (.resume h) (({ p with system := s } : IngressProxy).leave h)
  | failed (h : ℕ) (l : ProxyLabel) (hp : (p.handlers h).point = .relaying) (hw : p.writing h)
    (hl : l = .writeFails h ∨ l = .cancel h) : Stepped env p l (p.leave h)
  | aborted (h : ℕ) (s : System) (hp : (p.handlers h).point = .relaying) (hw : ¬ p.writing h)
    (hs : p.system.step (.close h) = some s) :
    Stepped env p (.cancel h) (({ p with system := s } : IngressProxy).leave h)
  | finalized (h : ℕ) (s : System) (hp : (p.handlers h).point = .returned)
    (hs : p.system.step (.close h) = some s) : Stepped env p (.finalize h) { p with system := s }
  | alerted (data : Json) (s : System)
    (hs : Machine.run System.step p.system (p.moves env (.preemptionAlert data)) = some s) :
    Stepped env p (.preemptionAlert data) { p with isPreemptionActive := true, system := s }
  | signaled (l : ProxyLabel) (s : System)
    (hs : Machine.run System.step p.system (p.moves env l) = some s)
    (hl : (∃ data, l = .handoverReady data) ∨ ∃ dt, l = .elapse dt) :
    Stepped env p l { p with system := s }

theorem drive_eq_some {p q : IngressProxy} {ls : List Label} :
    p.drive ls = some q ↔
      ∃ s, Machine.run System.step p.system ls = some s ∧ q = { p with system := s } := by
  rw [drive, Option.map_eq_some_iff]
  exact exists_congr fun s => and_congr_right fun _ => eq_comm

theorem run_singleton {s t : System} {l : Label} :
    Machine.run System.step s [l] = some t ↔ s.step l = some t := by
  simp [Machine.run_cons_eq_some]

theorem ended_iff {p : IngressProxy} {h : ℕ} :
    p.ended h = true ↔ ∃ o, (p.system.generators h).point = .ended o := by
  unfold ended
  cases (p.system.generators h).point <;> simp

variable {env : Env} {p q : IngressProxy} {l : ProxyLabel}

theorem Stepped.of_body {h : ℕ} {data : Option Json} (hp : (p.handlers h).point = .reading)
    (hq : p.acceptBody env h data = some q) : Stepped env p (.body h data) q := by
  unfold acceptBody at hq
  split at hq
  · obtain rfl := Option.some.inj hq
    exact .returned h _ (Or.inl hp) (Or.inl ⟨_, rfl, by simp⟩)
  · rename_i body
    split_ifs at hq
    obtain rfl := Option.some.inj hq
    exact .accepted h body hp
  · rename_i data' hne
    obtain rfl := Option.some.inj hq
    exact .returned h _ (Or.inl hp) (Or.inl ⟨_, rfl, fun body he => hne body (Option.some.inj he)⟩)

theorem Stepped.of_relay {h : ℕ} (hp : (p.handlers h).point = .relaying)
    (hq : p.relay h = some q) : Stepped env p (.resume h) q := by
  obtain ⟨r, hr, rfl⟩ := Option.map_eq_some_iff.mp hq
  obtain ⟨s, hs, rfl⟩ := drive_eq_some.mp hr
  rw [run_singleton] at hs
  split_ifs with he
  · exact .finished h s hp hs (ended_iff.mp he)
  · exact .resumed h s hp hs fun o ho => he (ended_iff.mpr ⟨o, ho⟩)

theorem Stepped.of_cancelled {h : ℕ} (hq : p.cancelled h = some q) :
    Stepped env p (.cancel h) q := by
  unfold cancelled at hq
  split at hq
  · cases hq
  · cases hq
  · rename_i hp
    obtain rfl := Option.some.inj hq
    exact .returned h _ (Or.inl hp) (by simp)
  · rename_i hp
    obtain rfl := Option.some.inj hq
    exact .returned h _ (Or.inr (Or.inl hp)) (by simp)
  · rename_i hp
    obtain rfl := Option.some.inj hq
    exact .returned h _ (Or.inr (Or.inr hp)) (by simp)
  · rename_i hp
    split_ifs at hq with hw
    · obtain rfl := Option.some.inj hq
      exact .failed h _ hp hw (Or.inr rfl)
    · obtain ⟨r, hr, rfl⟩ := Option.map_eq_some_iff.mp hq
      obtain ⟨s, hs, rfl⟩ := drive_eq_some.mp hr
      exact .aborted h s hp hw (run_singleton.mp hs)

theorem Stepped.of_alert {data : Json} (hq : p.handlePreemptionAlert data = some q) :
    Stepped env p (.preemptionAlert data) q := by
  unfold handlePreemptionAlert at hq
  cases hc : cutoffOf data with
  | none =>
    simp only [hc] at hq
    obtain rfl := Option.some.inj hq
    exact .alerted data p.system (by simp [moves, hc])
  | some cutoffSeq =>
    simp only [hc] at hq
    obtain ⟨s, hs, rfl⟩ := drive_eq_some.mp hq
    exact .alerted data s (by simpa only [moves, hc] using hs)

theorem Stepped.of_ready {data : Json} (hq : p.handleHandoverReady data = some q) :
    Stepped env p (.handoverReady data) q := by
  unfold handleHandoverReady at hq
  cases hr : readyRequest data with
  | none =>
    simp only [hr] at hq
    obtain rfl := Option.some.inj hq
    exact .signaled _ p.system (by simp [moves, hr]) (Or.inl ⟨data, rfl⟩)
  | some requestId =>
    simp only [hr] at hq
    obtain ⟨s, hs, rfl⟩ := drive_eq_some.mp hq
    exact .signaled _ s (by simpa only [moves, hr] using hs) (Or.inl ⟨data, rfl⟩)

theorem Stepped.of_step (hq : step env p l = some q) : Stepped env p l q := by
  cases l with
  | request h =>
    simp only [step] at hq
    split_ifs at hq with hp
    obtain rfl := Option.some.inj hq
    exact .request h hp
  | body h data =>
    simp only [step] at hq
    split_ifs at hq with hp
    exact .of_body hp hq
  | prepared h =>
    simp only [step] at hq
    split_ifs at hq with hp
    obtain ⟨r, hr, rfl⟩ := Option.map_eq_some_iff.mp hq
    obtain ⟨s, hs, rfl⟩ := drive_eq_some.mp hr
    exact .prepared h s hp hs
  | prepareFails h =>
    simp only [step] at hq
    split_ifs at hq with hp
    obtain rfl := Option.some.inj hq
    exact .returned h _ (Or.inr (Or.inl hp)) (by simp)
  | resume h =>
    simp only [step] at hq
    split_ifs at hq with hp
    exact .of_relay hp hq
  | writeFails h =>
    simp only [step] at hq
    split_ifs at hq with hp
    obtain rfl := Option.some.inj hq
    exact .failed h _ hp.1 hp.2 (Or.inl rfl)
  | cancel h => exact .of_cancelled hq
  | finalize h =>
    simp only [step] at hq
    split_ifs at hq with hp
    obtain ⟨s, hs, rfl⟩ := drive_eq_some.mp hq
    exact .finalized h s hp (run_singleton.mp hs)
  | forwarded h =>
    simp only [step] at hq
    split_ifs at hq with hp
    obtain rfl := Option.some.inj hq
    exact .returned h _ (Or.inr (Or.inr hp)) (by simp [hp])
  | preemptionAlert data => exact .of_alert hq
  | handoverReady data => exact .of_ready hq
  | elapse dt =>
    obtain ⟨s, hs, rfl⟩ := drive_eq_some.mp hq
    exact .signaled _ s hs (Or.inr ⟨dt, rfl⟩)

theorem Stepped.prepared_inv {h : ℕ} (hq : Stepped env p (.prepared h) q) :
    ∃ s, (p.handlers h).point = .preparing ∧
      Machine.run System.step p.system (p.moves env (.prepared h)) = some s ∧
      q = ({ p with system := s } : IngressProxy).put h
        { p.handlers h with point := .relaying, initialUrl := p.routeUrl } := by
  cases hq with
  | prepared _ s hp hs => exact ⟨s, hp, hs, rfl⟩
  | returned _ _ _ hl | failed _ _ _ _ hl | signaled _ _ _ hl => simp at hl

theorem Stepped.alert_inv {data : Json} (hq : Stepped env p (.preemptionAlert data) q) :
    ∃ s, Machine.run System.step p.system (p.moves env (.preemptionAlert data)) = some s ∧
      q = { p with isPreemptionActive := true, system := s } := by
  cases hq with
  | alerted _ s hs => exact ⟨s, hs, rfl⟩
  | returned _ _ _ hl | failed _ _ _ _ hl | signaled _ _ _ hl => simp at hl

/-- A move of the proxy is a series of moves of its multiplexer. -/
theorem Stepped.run (hq : Stepped env p l q) :
    Machine.run System.step p.system (p.moves env l) = some q.system := by
  cases hq with
  | request h hp => rfl
  | accepted h body hp => rfl
  | returned h l hp hl =>
    rcases hl with ⟨data, rfl, -⟩ | rfl | rfl | ⟨rfl, -⟩
    · rfl
    · rfl
    · rcases hp with hp | hp | hp <;> simp [moves, hp, goto, put]
    · rfl
  | prepared h s hp hs => exact hs
  | resumed h s hp hs he => exact run_singleton.mpr hs
  | finished h s hp hs he => exact run_singleton.mpr hs
  | failed h l hp hw hl =>
    rcases hl with rfl | rfl
    · rfl
    · simp [moves, hp, hw, leave, goto, put]
  | aborted h s hp hw hs =>
    have : p.moves env (.cancel h) = [.close h] := by simp [moves, hp, hw]
    rw [this]
    exact run_singleton.mpr hs
  | finalized h s hp hs => exact run_singleton.mpr hs
  | alerted data s hs => exact hs
  | signaled l s hs hl => exact hs

/-! ### Handlers and their generators -/

/-- A handler has the generator that its point says, of its own request. -/
def Linked (p : IngressProxy) : Prop := ∀ h,
  match (p.handlers h).point with
  | .relaying => (p.system.generators h).Live ∧
      (p.system.generators h).requestId = (p.handlers h).requestId
  | .returned => (p.system.generators h).Live →
      (p.system.generators h).requestId = (p.handlers h).requestId
  | _ => (p.system.generators h).point = .absent

theorem Linked.relaying {h : ℕ} (hp : Linked p) (hr : (p.handlers h).point = .relaying) :
    (p.system.generators h).Live ∧
      (p.system.generators h).requestId = (p.handlers h).requestId := by
  simpa only [hr] using hp h

theorem Linked.absent {h : ℕ} (hp : Linked p) (hr : (p.handlers h).point ≠ .relaying)
    (hr' : (p.handlers h).point ≠ .returned) : (p.system.generators h).point = .absent := by
  have := hp h
  split at this
  · exact absurd ‹_› hr
  · exact absurd ‹_› hr'
  · exact this

/-- A live generator is its handler's, or one that the handler has left. -/
theorem Linked.requestId {h : ℕ} (hp : Linked p) (hl : (p.system.generators h).Live) :
    (p.system.generators h).requestId = (p.handlers h).requestId := by
  have := hp h
  split at this
  · exact this.2
  · exact this hl
  · exact absurd this hl.started.1

theorem linked_new (a b : String) : Linked (new a b) := fun _ => rfl

/-- A move about handler `h` is checked at `h` alone. -/
theorem Linked.of_self {h : ℕ} (hp : Linked p)
    (hh : ∀ j, j ≠ h → q.handlers j = p.handlers j)
    (hg : ∀ j, j ≠ h → q.system.generators j = p.system.generators j)
    (hself : match (q.handlers h).point with
      | .relaying => (q.system.generators h).Live ∧
          (q.system.generators h).requestId = (q.handlers h).requestId
      | .returned => (q.system.generators h).Live →
          (q.system.generators h).requestId = (q.handlers h).requestId
      | _ => (q.system.generators h).point = .absent) : Linked q := by
  intro j
  by_cases hj : j = h
  · subst hj
    exact hself
  · rw [hh j hj, hg j hj]
    exact hp j

theorem step_other {s t : System} {x : Label} {h : ℕ} (ht : s.step x = some t)
    (hx : x.About h) {j : ℕ} (hj : j ≠ h) : t.generators j = s.generators j := by
  rcases step_cases ht with ⟨k, _, _, _, rfl, -, rfl⟩ | ⟨k, r, hk, -, rfl⟩ | ⟨_, _, _, -, rfl⟩
  · obtain rfl : k = h := hx
    exact s.put_of_ne hj _
  · obtain rfl : k = h := by rcases hk with rfl | rfl <;> exact hx
    exact s.put_of_ne hj _
  · rfl

/-- Signals and the clock move no generator. -/
theorem run_tells {ls : List Label} (hls : ∀ x ∈ ls, ∀ h, x.About h) : ∀ {s t : System},
    Machine.run System.step s ls = some t → t.generators = s.generators := by
  induction ls with
  | nil => rintro s t ht; simp_all
  | cons x ls ih =>
    intro s t ht
    obtain ⟨u, hu, ht⟩ := Machine.run_cons_eq_some.mp ht
    rw [ih (fun y hy => hls y (List.mem_cons_of_mem x hy)) ht]
    funext j
    exact step_other hu (hls x List.mem_cons_self (j + 1)) (by omega)

theorem resume_live {s t : System} {h : ℕ} (hl : (s.generators h).Live)
    (ht : s.step (.resume h) = some t) :
    (t.generators h).requestId = (s.generators h).requestId ∧
      ((t.generators h).Live ∨ ∃ o, (t.generators h).point = .ended o) := by
  obtain ⟨r, hr, rfl⟩ := Option.map_eq_some_iff.mp ht
  have hm := (Resumed.of_eq hr).moved hl
  rw [System.put_self]
  exact ⟨hm.requestId, hm.live.imp And.left And.left⟩

theorem close_eq {s t : System} {h : ℕ} (ht : s.step (.close h) = some t) :
    t.generators h = (s.generators h).at_ (.ended .closed) := by
  obtain ⟨r, hr, rfl⟩ := Option.map_eq_some_iff.mp ht
  rw [System.put_self]
  unfold StreamMultiplexer.close at hr
  split at hr
  · cases hr
  · cases hr
  · obtain rfl := Option.some.inj hr
    rfl
  · obtain rfl := Option.some.inj hr
    rfl

/-- The generator that the handler of a prepared response makes. -/
def called (env : Env) (p : IngressProxy) (h : ℕ) : Generator where
  requestId := (p.handlers h).requestId
  active := activeGen env h p.routeUrl (p.handlers h).body (p.handlers h).requestId
  standbyFactory := standbyFactory env h p.standbyUpstreamUrl (p.handlers h).body
    (p.handlers h).requestId

/-- The relay loop starts with a generator just called and resumed once. -/
theorem startRelay_spec {h : ℕ} {s : System}
    (hs : Machine.run System.step p.system (p.moves env (.prepared h)) = some s) :
    p.system.step (.call h (p.called env h).requestId (p.called env h).active
        (p.called env h).standbyFactory) = some (p.system.put h (p.system.mux, p.called env h)) ∧
      (p.system.put h (p.system.mux, p.called env h)).step (.resume h) = some s ∧
      (s.generators h).Live ∧ (s.generators h).requestId = (p.handlers h).requestId ∧
      ∀ j, j ≠ h → s.generators j = p.system.generators j := by
  obtain ⟨u, hu, hs⟩ := Machine.run_cons_eq_some.mp hs
  rw [run_singleton] at hs
  have hcall : u = p.system.put h (p.system.mux, p.called env h) := by
    simp only [System.step] at hu
    split at hu
    · exact (Option.some.inj hu).symm
    · cases hu
  subst hcall
  have hlive : (s.generators h).Live ∧ (s.generators h).requestId = (p.handlers h).requestId := by
    obtain ⟨r, hr, rfl⟩ := Option.map_eq_some_iff.mp hs
    rw [System.put_self] at hr ⊢
    exact (Resumed.of_eq hr).live_of_created rfl
  exact ⟨hu, hs, hlive.1, hlive.2, fun j hj => by
    rw [step_other hs (h := h) rfl hj, System.put_of_ne _ hj]⟩

@[simp] theorem goto_system (p : IngressProxy) (h : ℕ) (x : HandlerPoint) :
    (p.goto h x).system = p.system := rfl

@[simp] theorem leave_system (p : IngressProxy) (h : ℕ) : (p.leave h).system = p.system := rfl

@[simp] theorem put_system (p : IngressProxy) (h : ℕ) (x : Handler) :
    (p.put h x).system = p.system := rfl

@[simp] theorem accept_handlers_self (env : Env) (p : IngressProxy) (h : ℕ)
    (body : List (List Char × Json)) : (p.accept env h body).handlers h =
      { point := if ((Json.field? body "stream".toList).getD (.bool true)).truthy then .preparing
          else .forwarding
        requestId := requestIdOf env h body
        body := withRequestId body (requestIdOf env h body)
        initialUrl := if ((Json.field? body "stream".toList).getD (.bool true)).truthy then ""
          else p.routeUrl } := Function.update_self ..

theorem accept_point (env : Env) (p : IngressProxy) (h : ℕ) (body : List (List Char × Json)) :
    ((p.accept env h body).handlers h).point = .preparing ∨
      ((p.accept env h body).handlers h).point = .forwarding := by
  rw [accept_handlers_self]
  dsimp only
  split
  · exact Or.inl rfl
  · exact Or.inr rfl

@[simp] theorem put_handlers_self (p : IngressProxy) (h : ℕ) (x : Handler) :
    (p.put h x).handlers h = x := Function.update_self ..

@[simp] theorem goto_handlers_self (p : IngressProxy) (h : ℕ) (x : HandlerPoint) :
    (p.goto h x).handlers h = { p.handlers h with point := x } := Function.update_self ..

@[simp] theorem leave_handlers_self (p : IngressProxy) (h : ℕ) :
    (p.leave h).handlers h = { p.handlers h with point := .returned } := Function.update_self ..

theorem put_handlers_of_ne (p : IngressProxy) {h j : ℕ} (hj : j ≠ h) (x : Handler) :
    (p.put h x).handlers j = p.handlers j := Function.update_of_ne hj ..

theorem accept_handlers_of_ne (env : Env) (p : IngressProxy) {h j : ℕ} (hj : j ≠ h)
    (body : List (List Char × Json)) : (p.accept env h body).handlers j = p.handlers j :=
  Function.update_of_ne hj ..

theorem goto_handlers_of_ne (p : IngressProxy) {h j : ℕ} (hj : j ≠ h) (x : HandlerPoint) :
    (p.goto h x).handlers j = p.handlers j := Function.update_of_ne hj ..

theorem leave_handlers_of_ne (p : IngressProxy) {h j : ℕ} (hj : j ≠ h) :
    (p.leave h).handlers j = p.handlers j := Function.update_of_ne hj ..

theorem moves_tells (hl : (∃ data, l = .preemptionAlert data) ∨ (∃ data, l = .handoverReady data) ∨
    ∃ dt, l = .elapse dt) : ∀ x ∈ p.moves env l, ∀ h, x.About h := by
  intro x hx h
  rcases hl with ⟨data, rfl⟩ | ⟨data, rfl⟩ | ⟨dt, rfl⟩
  · simp only [moves] at hx
    split at hx
    · obtain ⟨rid, -, rfl⟩ := List.mem_map.mp hx
      trivial
    · simp at hx
  · simp only [moves] at hx
    split at hx
    · obtain rfl := List.mem_singleton.mp hx
      trivial
    · simp at hx
  · obtain rfl := List.mem_singleton.mp hx
    trivial

theorem Stepped.linked (hq : Stepped env p l q) (hp : Linked p) : Linked q := by
  cases hq with
  | request h hr =>
    refine hp.of_self (h := h) (fun j hj => p.goto_handlers_of_ne hj _) (fun _ _ => rfl) ?_
    rw [goto_handlers_self]
    exact hp.absent (by simp [hr]) (by simp [hr])
  | accepted h body hr =>
    refine hp.of_self (h := h) (fun j hj => accept_handlers_of_ne env p hj body) (fun _ _ => rfl) ?_
    have habs : (p.system.generators h).point = .absent := hp.absent (by simp [hr]) (by simp [hr])
    rw [accept_handlers_self]
    by_cases hs : ((Json.field? body "stream".toList).getD (.bool true)).truthy = true
    · simp only [if_pos hs]
      exact habs
    · simp only [if_neg hs]
      exact habs
  | returned h l hr hl =>
    refine hp.of_self (h := h) (fun j hj => p.goto_handlers_of_ne hj _) (fun _ _ => rfl) ?_
    rw [goto_handlers_self]
    have habs : (p.system.generators h).point = .absent := by
      rcases hr with hr | hr | hr <;> exact hp.absent (by simp [hr]) (by simp [hr])
    exact fun hlive => absurd habs hlive.started.1
  | prepared h s hr hs =>
    obtain ⟨-, -, hlive, hrid, hother⟩ := startRelay_spec hs
    refine hp.of_self (h := h) (fun j hj => put_handlers_of_ne _ hj _) hother ?_
    rw [put_handlers_self]
    exact ⟨hlive, hrid⟩
  | resumed h s hr hs he =>
    refine hp.of_self (h := h) (fun _ _ => rfl) (fun j hj => step_other hs rfl hj) ?_
    obtain ⟨hlive, hrid⟩ := hp.relaying hr
    obtain ⟨hrid', hl'⟩ := resume_live hlive hs
    simp only [hr]
    exact ⟨hl'.resolve_right fun ⟨o, ho⟩ => he o ho, hrid'.trans hrid⟩
  | finished h s hr hs he =>
    refine hp.of_self (h := h) (fun j hj => leave_handlers_of_ne _ hj)
      (fun j hj => step_other hs rfl hj) ?_
    rw [leave_handlers_self]
    obtain ⟨o, ho⟩ := he
    intro hlive
    simp [Generator.Live, ho] at hlive
  | failed h l hr hw hl =>
    refine hp.of_self (h := h) (fun j hj => leave_handlers_of_ne _ hj) (fun _ _ => rfl) ?_
    rw [leave_handlers_self]
    exact fun _ => (hp.relaying hr).2
  | aborted h s hr hw hs =>
    refine hp.of_self (h := h) (fun j hj => leave_handlers_of_ne _ hj)
      (fun j hj => step_other hs rfl hj) ?_
    rw [leave_handlers_self]
    intro hlive
    simp [Generator.Live, close_eq hs, Generator.at_] at hlive
  | finalized h s hr hs =>
    refine hp.of_self (h := h) (fun _ _ => rfl) (fun j hj => step_other hs rfl hj) ?_
    simp only [hr]
    intro hlive
    simp [Generator.Live, close_eq hs, Generator.at_] at hlive
  | alerted data s hs =>
    have hg := run_tells (moves_tells (Or.inl ⟨data, rfl⟩)) hs
    intro h
    simp only [hg]
    exact hp h
  | signaled l s hs hl =>
    have hg := run_tells (moves_tells (Or.inr hl)) hs
    intro h
    simp only [hg]
    exact hp h

/-- What a move does to the generator of handler `h`. -/
theorem Stepped.generator (hq : Stepped env p l q) (h : ℕ) :
    q.system.generators h = p.system.generators h ∨
    (l = .prepared h ∧ (p.handlers h).point = .preparing ∧
      (p.system.put h (p.system.mux, p.called env h)).step (.resume h) = some q.system) ∨
    (l = .resume h ∧ p.system.step (.resume h) = some q.system) ∨
    ((l = .cancel h ∨ l = .finalize h) ∧ p.system.step (.close h) = some q.system) := by
  cases hq with
  | request h' hr => exact Or.inl rfl
  | accepted h' body hr => exact Or.inl rfl
  | returned h' l hr hl => exact Or.inl rfl
  | prepared h' s hr hs =>
    obtain ⟨-, hs, -, -, hother⟩ := startRelay_spec hs
    by_cases hh : h = h'
    · subst hh
      exact Or.inr (Or.inl ⟨rfl, hr, hs⟩)
    · exact Or.inl (hother h hh)
  | resumed h' s hr hs he =>
    by_cases hh : h = h'
    · subst hh
      exact Or.inr (Or.inr (Or.inl ⟨rfl, hs⟩))
    · exact Or.inl (step_other hs rfl hh)
  | finished h' s hr hs he =>
    by_cases hh : h = h'
    · subst hh
      exact Or.inr (Or.inr (Or.inl ⟨rfl, hs⟩))
    · exact Or.inl (step_other hs rfl hh)
  | failed h' l hr hw hl => exact Or.inl rfl
  | aborted h' s hr hw hs =>
    by_cases hh : h = h'
    · subst hh
      exact Or.inr (Or.inr (Or.inr ⟨Or.inl rfl, hs⟩))
    · exact Or.inl (step_other hs rfl hh)
  | finalized h' s hr hs =>
    by_cases hh : h = h'
    · subst hh
      exact Or.inr (Or.inr (Or.inr ⟨Or.inr rfl, hs⟩))
    · exact Or.inl (step_other hs rfl hh)
  | alerted data s hs =>
    exact Or.inl (congrFun (run_tells (moves_tells (Or.inl ⟨data, rfl⟩)) hs) h)
  | signaled l s hs hl => exact Or.inl (congrFun (run_tells (moves_tells (Or.inr hl)) hs) h)

/-- What a move does to handler `h`. -/
theorem Stepped.handler (hq : Stepped env p l q) (h : ℕ) :
    q.handlers h = p.handlers h ∨
    ((p.handlers h).point = .absent ∧ q.handlers h = { p.handlers h with point := .reading }) ∨
    (∃ body, l = .body h (some (.obj body)) ∧ (p.handlers h).point = .reading ∧
      q = p.accept env h body) ∨
    (l = .prepared h ∧ (p.handlers h).point = .preparing ∧
      q.handlers h = { p.handlers h with point := .relaying, initialUrl := p.routeUrl }) ∨
    ((p.handlers h).point ≠ .returned ∧ q.handlers h = { p.handlers h with point := .returned }) := by
  cases hq with
  | request j hr =>
    by_cases hj : h = j
    · subst hj
      exact Or.inr (Or.inl ⟨hr, goto_handlers_self ..⟩)
    · exact Or.inl (goto_handlers_of_ne p hj _)
  | accepted j body hr =>
    by_cases hj : h = j
    · subst hj
      exact Or.inr (Or.inr (Or.inl ⟨body, rfl, hr, rfl⟩))
    · exact Or.inl (accept_handlers_of_ne env p hj body)
  | returned j l hr hl =>
    by_cases hj : h = j
    · subst hj
      refine Or.inr (Or.inr (Or.inr (Or.inr ⟨?_, goto_handlers_self ..⟩)))
      rcases hr with hr | hr | hr <;> simp [hr]
    · exact Or.inl (goto_handlers_of_ne p hj _)
  | prepared j s hr hs =>
    by_cases hj : h = j
    · subst hj
      exact Or.inr (Or.inr (Or.inr (Or.inl ⟨rfl, hr, put_handlers_self ..⟩)))
    · exact Or.inl (put_handlers_of_ne _ hj _)
  | finished j s hr hs he =>
    by_cases hj : h = j
    · subst hj
      exact Or.inr (Or.inr (Or.inr (Or.inr ⟨by simp [hr], leave_handlers_self ..⟩)))
    · exact Or.inl (leave_handlers_of_ne _ hj)
  | failed j l hr hw hl =>
    by_cases hj : h = j
    · subst hj
      exact Or.inr (Or.inr (Or.inr (Or.inr ⟨by simp [hr], leave_handlers_self ..⟩)))
    · exact Or.inl (leave_handlers_of_ne _ hj)
  | aborted j s hr hw hs =>
    by_cases hj : h = j
    · subst hj
      exact Or.inr (Or.inr (Or.inr (Or.inr ⟨by simp [hr], leave_handlers_self ..⟩)))
    · exact Or.inl (leave_handlers_of_ne _ hj)
  | resumed | finalized | alerted | signaled => exact Or.inl rfl

/-- A handler that relays did so before, or has just chosen its upstream. -/
theorem Stepped.relaying (hq : Stepped env p l q) {h : ℕ} (hr : (q.handlers h).point = .relaying) :
    q.handlers h = p.handlers h ∨ l = .prepared h ∧ (p.handlers h).point = .preparing ∧
      q.handlers h = { p.handlers h with point := .relaying, initialUrl := p.routeUrl } := by
  rcases hq.handler h with hh | ⟨-, hh⟩ | ⟨body, -, -, rfl⟩ | hh | ⟨-, hh⟩
  · exact Or.inl hh
  · rw [hh] at hr
    cases hr
  · rcases accept_point env p h body with ha | ha
    · rw [ha] at hr
      cases hr
    · rw [ha] at hr
      cases hr
  · exact Or.inr hh
  · rw [hh] at hr
    cases hr

theorem Stepped.urls (hq : Stepped env p l q) : q.activeUpstreamUrl = p.activeUpstreamUrl ∧
    q.standbyUpstreamUrl = p.standbyUpstreamUrl := by
  cases hq <;> exact ⟨rfl, rfl⟩

/-- Only an alert sets the flag, and nothing takes it back. -/
theorem Stepped.flag (hq : Stepped env p l q) :
    q.isPreemptionActive = p.isPreemptionActive ∨
      (∃ data, l = .preemptionAlert data) ∧ q.isPreemptionActive = true := by
  cases hq with
  | alerted data s hs => exact Or.inr ⟨⟨data, rfl⟩, rfl⟩
  | _ => exact Or.inl rfl

/-! ### A request of one's own -/

/-- The handler is about to relay a stream, or its generator runs. -/
def Busy (p : IngressProxy) (h : ℕ) : Prop :=
  (p.handlers h).point = .preparing ∨ (p.system.generators h).Live

/-- The request id of handler `h` is not concurrently in use. -/
def Sole (h : ℕ) (p : IngressProxy) : Prop :=
  p.Busy h → ∀ j, j ≠ h → p.Busy j → (p.handlers j).requestId ≠ (p.handlers h).requestId

theorem sole_new (a b : String) (h : ℕ) : Sole h (new a b) := by
  rintro (hb | hb)
  · cases hb
  · exact hb.elim

theorem apart_of_sole {h : ℕ} (hp : Linked p) (hs : Sole h p) : Apart h p.system := by
  intro j hj hlj hlh
  rw [hp.requestId hlj, hp.requestId hlh]
  exact hs (Or.inr hlh) j hj (Or.inr hlj)

theorem apart_congr {s t : System} {h : ℕ} (hg : t.generators = s.generators) (hs : Apart h s) :
    Apart h t := by
  unfold Apart
  rwa [hg]

theorem along_tells {h : ℕ} {ls : List Label} (hls : ∀ x ∈ ls, ∀ j, x.About j) : ∀ {s : System},
    Apart h s → Machine.Along System.step (fun _ _ t => Apart h t) s ls := by
  intro s hs
  refine Machine.Along.of_inv (I := Apart h) (Q := fun _ x _ => ∀ j, x.About j) ?_ ?_ hs
    (Machine.Along.of_labels hls)
  all_goals
    intro s x t hs ht hx
    exact apart_congr (@run_tells [x] (by simpa using hx) _ _ (run_singleton.mpr ht)) hs

theorem along_singleton {Q : System → Label → System → Prop} {s t : System} {x : Label}
    (ht : s.step x = some t) (hQ : Q s x t) : Machine.Along System.step Q s [x] := by
  intro t' ht'
  obtain rfl : t = t' := by simpa [ht] using ht'
  exact ⟨hQ, trivial⟩

/-- A request that is not concurrently in use in the proxy is not so in its
multiplexer, also between the moves of one task. -/
theorem Stepped.along_apart {h : ℕ} (hq : Stepped env p l q) (hp : Linked p) (hs : Sole h p)
    (hs' : Sole h q) :
    Machine.Along System.step (fun _ _ t => Apart h t) p.system (p.moves env l) := by
  have hbefore := apart_of_sole hp hs
  have hafter := apart_of_sole (hq.linked hp) hs'
  have hrun := hq.run
  cases hq with
  | request h' hr => exact trivial
  | accepted h' body hr => exact trivial
  | returned h' l hr hl =>
    rcases hl with ⟨data, rfl, -⟩ | rfl | rfl | ⟨rfl, -⟩
    · exact trivial
    · exact trivial
    · have : p.moves env (.cancel h') = [] := by rcases hr with hr | hr | hr <;> simp [moves, hr]
      rw [this]
      exact trivial
    · exact trivial
  | prepared h' s hr hs =>
    obtain ⟨hu, hs, -⟩ := startRelay_spec hs
    intro u hu'
    obtain rfl := Option.some.inj (hu.symm.trans hu')
    refine ⟨fun j hj hlj hlh => ?_, along_singleton hs hafter⟩
    -- the generator just made does not run yet
    have hne : ∀ k, ((p.system.put h' (p.system.mux, p.called env h')).generators k).Live →
        k ≠ h' := by
      rintro k hk rfl
      rw [System.put_self] at hk
      exact hk
    have hgj := System.put_of_ne p.system (hne j hlj) (p.system.mux, p.called env h')
    have hgh := System.put_of_ne p.system (hne h hlh) (p.system.mux, p.called env h')
    rw [hgj] at hlj ⊢
    rw [hgh] at hlh ⊢
    exact hbefore j hj hlj hlh
  | resumed h' s hr hs he => exact along_singleton hs hafter
  | finished h' s hr hs he => exact along_singleton hs hafter
  | failed h' l hr hw hl =>
    rcases hl with rfl | rfl
    · exact trivial
    · have : p.moves env (.cancel h') = [] := by simp [moves, hw]
      rw [this]
      exact trivial
  | aborted h' s hr hw hs =>
    have : p.moves env (.cancel h') = [.close h'] := by simp [moves, hr, hw]
    rw [this]
    exact along_singleton hs hafter
  | finalized h' s hr hs => exact along_singleton hs hafter
  | alerted data s hs => exact along_tells (moves_tells (Or.inl ⟨data, rfl⟩)) hbefore
  | signaled l s hs hl => exact along_tells (moves_tells (Or.inr hl)) hbefore

/-! ### A request alone -/

/-- The label is not about another handler. -/
def About (h : ℕ) : ProxyLabel → Prop
  | .request j | .body j _ | .prepared j | .prepareFails j | .resume j | .writeFails j | .cancel j
  | .finalize j | .forwarded j => j = h
  | .preemptionAlert _ | .handoverReady _ | .elapse _ => True

instance (h : ℕ) : DecidablePred (About h)
  | .request j | .body j _ | .prepared j | .prepareFails j | .resume j | .writeFails j | .cancel j
  | .finalize j | .forwarded j => inferInstanceAs (Decidable (j = h))
  | .preemptionAlert _ | .handoverReady _ | .elapse _ => .isTrue trivial

/-- No other request has come in. -/
def Alone (h : ℕ) (p : IngressProxy) : Prop :=
  ∀ j, j ≠ h → (p.handlers j).point = .absent ∧ (p.system.generators j).point = .absent

theorem sole_of_alone {h : ℕ} (hp : Alone h p) : Sole h p := by
  rintro - j hj (hb | hb)
  · rw [(hp j hj).1] at hb
    cases hb
  · exact absurd (hp j hj).2 hb.started.1

/-- A move about another handler. -/
theorem Stepped.other {h j : ℕ} (hq : Stepped env p l q) (hl : About h l) (hj : j ≠ h) :
    q.handlers j = p.handlers j ∧ q.system.generators j = p.system.generators j := by
  constructor
  · cases hq with
    | request k hr => exact goto_handlers_of_ne p (hl ▸ hj) _
    | accepted k body hr => exact accept_handlers_of_ne env p (hl ▸ hj) body
    | returned k l hr hl' =>
      have hk : k = h := by rcases hl' with ⟨data, rfl, -⟩ | rfl | rfl | ⟨rfl, -⟩ <;> exact hl
      exact goto_handlers_of_ne p (hk ▸ hj) _
    | prepared k s hr hs => exact put_handlers_of_ne _ (hl ▸ hj) _
    | finished k s hr hs he => exact leave_handlers_of_ne _ (hl ▸ hj)
    | failed k l hr hw hl' =>
      have hk : k = h := by rcases hl' with rfl | rfl <;> exact hl
      exact leave_handlers_of_ne _ (hk ▸ hj)
    | aborted k s hr hw hs => exact leave_handlers_of_ne _ (hl ▸ hj)
    | resumed | finalized | alerted | signaled => rfl
  · rcases hq.generator j with hg | ⟨rfl, -⟩ | ⟨rfl, -⟩ | ⟨rfl | rfl, -⟩
    · exact hg
    all_goals exact absurd hl hj

theorem alone_step {h : ℕ} (hq : Stepped env p l q) (hl : About h l) (hp : Alone h p) :
    Alone h q := by
  intro j hj
  obtain ⟨hh, hg⟩ := hq.other hl hj
  rw [hh, hg]
  exact hp j hj

theorem along_sole_of_about {h : ℕ} {a b : String} {ls : List ProxyLabel}
    (hl : ∀ l ∈ ls, About h l) :
    Machine.Along (step env) (fun _ _ q => Sole h q) (new a b) ls := by
  refine Machine.Along.of_inv (I := Alone h) (Q := fun _ l _ => About h l)
    (fun _ _ _ hp hq hl => alone_step (.of_step hq) hl hp) ?_ (fun _ _ => ⟨rfl, rfl⟩)
    (Machine.Along.of_labels hl)
  exact fun _ _ _ hp hq hl => sole_of_alone (alone_step (.of_step hq) hl hp)

/-! ### Distinct request ids -/

/-- Every request has another id than that of handler `h`. -/
def DistinctIds (env : Env) (ls : List ProxyLabel) (h : ℕ) : Prop :=
  ∀ j body body', j ≠ h → .body j (some (.obj body)) ∈ ls → .body h (some (.obj body')) ∈ ls →
    requestIdOf env j body ≠ requestIdOf env h body'

/-- A handler at work has the id that its body gives it. -/
def Identified (env : Env) (ls : List ProxyLabel) (p : IngressProxy) : Prop := ∀ j,
  (∃ body, .body j (some (.obj body)) ∈ ls ∧ (p.handlers j).requestId = requestIdOf env j body) ∨
  (p.system.generators j).point = .absent ∧ (p.handlers j).point ≠ .preparing

theorem generator_absent_step {j : ℕ} (hq : Stepped env p l q)
    (hg : (p.system.generators j).point = .absent) (hr : (p.handlers j).point ≠ .preparing) :
    (q.system.generators j).point = .absent := by
  rcases hq.generator j with he | ⟨-, hp, -⟩ | ⟨-, hs⟩ | ⟨-, hs⟩
  · rw [he, hg]
  · exact absurd hp hr
  · simp [System.step, StreamMultiplexer.streamWithHandover, hg] at hs
  · simp [System.step, StreamMultiplexer.close, hg] at hs

theorem identified_step {ls : List ProxyLabel} (hp : Identified env ls p) (hq : Stepped env p l q)
    (hl : l ∈ ls) : Identified env ls q := by
  intro j
  rcases hq.handler j with hh | ⟨-, hh⟩ | ⟨body, rfl, -, rfl⟩ | ⟨-, hprep, hh⟩ | ⟨-, hh⟩
  · rw [hh]
    exact (hp j).imp_right fun hj => ⟨generator_absent_step hq hj.1 hj.2, hj.2⟩
  · rw [hh]
    exact (hp j).imp_right fun hj => ⟨generator_absent_step hq hj.1 hj.2, by simp⟩
  · rw [accept_handlers_self]
    exact Or.inl ⟨body, hl, rfl⟩
  · rw [hh]
    exact Or.inl ((hp j).resolve_right fun hj => hj.2 hprep)
  · rw [hh]
    exact (hp j).imp_right fun hj => ⟨generator_absent_step hq hj.1 hj.2, by simp⟩

theorem Identified.busy {ls : List ProxyLabel} (hp : Identified env ls p) {j : ℕ} (hb : p.Busy j) :
    ∃ body, .body j (some (.obj body)) ∈ ls ∧ (p.handlers j).requestId = requestIdOf env j body := by
  refine (hp j).resolve_right fun hj => ?_
  rcases hb with hb | hb
  · exact hj.2 hb
  · exact hb.started.1 hj.1

/-- Distinct ids are not concurrently in use. -/
theorem along_sole_of_distinct {a b : String} {ls : List ProxyLabel} {h : ℕ}
    (hd : DistinctIds env ls h) :
    Machine.Along (step env) (fun _ _ q => Sole h q) (new a b) ls := by
  have hnew : Identified env ls (new a b) := fun _ => Or.inr ⟨rfl, fun hp => by cases hp⟩
  refine Machine.Along.of_inv (I := Identified env ls) (Q := fun _ l _ => l ∈ ls)
    (fun _ _ _ hp hq hl => identified_step hp (.of_step hq) hl) ?_ hnew
    (Machine.Along.of_labels fun _ hl => hl)
  intro p l q hp hq hl hb j hj hbj
  have hident := identified_step hp (.of_step hq) hl
  obtain ⟨body, hbody, hid⟩ := hident.busy hbj
  obtain ⟨body', hbody', hid'⟩ := hident.busy hb
  rw [hid, hid']
  exact hd j body body' hj hbody hbody'

end IngressProxy
end Sgm
