/-
# The cloud metadata simulator

`simulator/cloud_metadata.py`: the metadata services of three providers, with
the endpoints that inject a preemption, and the world a watchdog sees of them:
the clocks and the trigger file of RunPod. `float` is Python's conversion to a
floating-point number, `strftime` writes a time of UTC as the simulator does;
the length of the artificial delay is not modelled: a request is served at any
time after it was sent. A deadline that no `datetime` can be is an error of the
server.

A server keeps its tokens, and what was triggered, until it is reset (`Stays`).

Key definitions: `CloudMetadataServer`, `CloudMetadataServer.serve`, `CloudWorld`,
`cloudServer`, `CloudWorld.InRange`, `NoReset`.
Key theorems: `serve_stays`, `moves_stay`, `moves_monotonic`.
-/
import Sgm.Lib.Dialogue
import Sgm.Lib.Json
import Sgm.Models

namespace Sgm

/-! ### Responses -/

/-- A JSON body is kept as the value it was written from, which is the value
that it is read as. -/
inductive Body
  | text (t : List Char)
  | json (v : Json)

/-- A response to an HTTP request. -/
structure HttpResponse where
  status : ℕ := 200
  body : Body

namespace HttpResponse

/-- `await resp.text()` -/
def text (resp : HttpResponse) : List Char :=
  match resp.body with
  | .text t => t
  | .json v => v.dumps

/-- `await resp.json()`, which refuses a body of another content type. -/
def json (resp : HttpResponse) : Except Exc Json :=
  match resp.body with
  | .text _ => .error (.exception "Attempt to decode JSON with unexpected mimetype")
  | .json v => .ok v

end HttpResponse

/-- What the handlers of the simulator are asked, with what they read of a
request. The body of a control request is `none` where it is no JSON. -/
inductive MetadataRequest
  /-- `PUT /latest/api/token`, with the TTL header -/
  | awsToken (ttlHeader : Option (List Char))
  /-- `GET /latest/meta-data/spot/instance-action`, with the token header -/
  | awsSpotAction (token : Option (List Char))
  /-- `GET /computeMetadata/v1/instance/preempted`, with the flavor header -/
  | gcpPreempted (flavor : Option (List Char))
  /-- `GET /computeMetadata/v1/instance/maintenance-event`, with the flavor header -/
  | gcpMaintenance (flavor : Option (List Char))
  | runpodPreempt
  /-- `POST /chaos/trigger-preemption` or `/chaos/inject-preemption` -/
  | chaosTrigger (body : Option Json)
  | chaosReset
  | chaosNetworkDelay (body : Option Json)
  | status

/-- A token is kept with the time at which it expires. -/
structure CloudMetadataServer where
  awsPreempted : Bool := false
  awsNoticeSeconds : PyFloat := .finite 120
  awsTokens : Dict (List Char) PyFloat := .empty
  gcpPreempted : Bool := false
  gcpNoticeSeconds : PyFloat := .finite 30
  gcpMaintenanceEvent : List Char := "NONE".toList
  runpodPreempted : Bool := false
  runpodNoticeSeconds : PyFloat := .finite 30
  artificialDelayMs : PyFloat := .finite 0

/-- The clocks. -/
structure Clock where
  /-- `time.monotonic()` -/
  monotonic : ℚ
  /-- `datetime.now(timezone.utc)`, in seconds -/
  utc : ℚ

namespace CloudMetadataServer

def reset (_ : CloudMetadataServer) : CloudMetadataServer := {}

section
variable (float : Json → Except Exc PyFloat) (strftime : ℚ → List Char)

/-- What a matching branch of `trigger_preemption` does: the flag is set before
`float(notice_seconds)`, which may raise. -/
def inject (mark : CloudMetadataServer → CloudMetadataServer)
    (notice : PyFloat → CloudMetadataServer → CloudMetadataServer) (noticeSeconds : Json)
    (s : CloudMetadataServer) : CloudMetadataServer × Except Exc Unit :=
  match noticeSeconds with
  | .null => (mark s, .ok ())
  | v =>
    match float v with
    | .ok seconds => (notice seconds (mark s), .ok ())
    | .error e => (mark s, .error e)

def triggerAws (noticeSeconds : Json) : CloudMetadataServer → CloudMetadataServer × Except Exc Unit :=
  inject float (fun s => { s with awsPreempted := true })
    (fun seconds s => { s with awsNoticeSeconds := seconds }) noticeSeconds

def triggerGcp (noticeSeconds : Json) : CloudMetadataServer → CloudMetadataServer × Except Exc Unit :=
  inject float (fun s => { s with gcpPreempted := true })
    (fun seconds s => { s with gcpNoticeSeconds := seconds }) noticeSeconds

def triggerRunpod (noticeSeconds : Json) : CloudMetadataServer → CloudMetadataServer × Except Exc Unit :=
  inject float (fun s => { s with runpodPreempted := true })
    (fun seconds s => { s with runpodNoticeSeconds := seconds }) noticeSeconds

/-- `prov in (name, "all")` -/
def concerns (prov name : List Char) : Bool := prov = name || prov = "all".toList

/-- A branch runs if the provider is its own and no branch before it raised. -/
def branch (applies : Bool)
    (trigger : CloudMetadataServer → CloudMetadataServer × Except Exc Unit) :
    CloudMetadataServer × Except Exc Unit → CloudMetadataServer × Except Exc Unit
  | (s, .ok ()) => if applies then trigger s else (s, .ok ())
  | (s, .error e) => (s, .error e)

/-- `lower` of a provider matters only where it gives one of the names, and
these are ASCII. -/
def triggerPreemption (provider : List Char) (noticeSeconds : Json) (s : CloudMetadataServer) :
    CloudMetadataServer × Except Exc Unit :=
  let prov := provider.map Char.toLower
  branch (concerns prov "runpod".toList) (triggerRunpod float noticeSeconds)
    (branch (concerns prov "gcp".toList) (triggerGcp float noticeSeconds)
      (branch (concerns prov "aws".toList) (triggerAws float noticeSeconds) (s, .ok ())))

/-! ### The handlers -/

/-- The response to a request whose handler raises. -/
def serverError : HttpResponse :=
  { status := 500, body := .text "500 Internal Server Error".toList }

/-- `f"aws-token-{hex}"` -/
def awsToken (hex : List Char) : List Char := ['a', 'w', 's', '-', 't', 'o', 'k', 'e', 'n', '-'] ++ hex

/-- The TTL of a token; six hours if the header is missing or no number. -/
def ttlS (ttlHeader : Option (List Char)) : PyFloat :=
  match float (.text (ttlHeader.getD "21600".toList)) with
  | .ok x => x
  | .error _ => .finite 21600

/-- `hex` is the beginning of a fresh `uuid4().hex`. -/
def handleAwsToken (clock : Clock) (hex : List Char) (ttlHeader : Option (List Char))
    (s : CloudMetadataServer) : CloudMetadataServer × HttpResponse :=
  ({ s with awsTokens := s.awsTokens.set (awsToken hex) ((ttlS float ttlHeader).addRat clock.monotonic) },
    { body := .text (awsToken hex) })

/-- `datetime.now(timezone.utc) + timedelta(seconds=seconds)`, to the microsecond.
It raises outside the years 1 to 9999, and of what is no finite number. -/
def deadline? (utc : ℚ) : PyFloat → Option ℚ
  | .finite seconds =>
    let deadline := utc + PyFloat.roundHalfEven (seconds * 1000000) / 1000000
    if -62135596800 ≤ deadline ∧ deadline < 253402300800 then some deadline else none
  | _ => none

def handleAwsSpotAction (clock : Clock) (token : Option (List Char)) (s : CloudMetadataServer) :
    HttpResponse :=
  match token with
  | none | some [] => { status := 401, body := .text "Unauthorized: Missing IMDSv2 Token".toList }
  | some token =>
    let expired :=
      match s.awsTokens.get? token with
      | none => true
      | some expiresAt => expiresAt.ltRat clock.monotonic
    if expired then { status := 401, body := .text "Unauthorized: Token Expired or Invalid".toList }
    else if !s.awsPreempted then { status := 404, body := .text "Not Found".toList }
    else
      match deadline? clock.utc s.awsNoticeSeconds with
      | some deadline =>
        let deadlineIso := strftime deadline
        { body := .json (.obj [("action".toList, .text "terminate".toList),
            ("time".toList, .text deadlineIso)]) }
      | none => serverError

/-- What both handlers of GCP do: `body` is the answer to a request with the
right header. -/
def gcpAnswer (flavor : Option (List Char)) (body : List Char) : HttpResponse :=
  if flavor = some "Google".toList then { body := .text body }
  else { status := 403, body := .text "Missing required Metadata-Flavor: Google header".toList }

def handleGcpPreempted (flavor : Option (List Char)) (s : CloudMetadataServer) : HttpResponse :=
  gcpAnswer flavor (if s.gcpPreempted then "TRUE".toList else "FALSE".toList)

def handleGcpMaintenance (flavor : Option (List Char)) (s : CloudMetadataServer) : HttpResponse :=
  gcpAnswer flavor
    (if s.gcpPreempted then "TERMINATE_ON_HOST_MAINTENANCE".toList else s.gcpMaintenanceEvent)

def handleRunpodPreempt (s : CloudMetadataServer) : HttpResponse :=
  if s.runpodPreempted then
    { body := .json (.obj [("preempted".toList, .bool true),
        ("grace_period_seconds".toList, .float s.runpodNoticeSeconds)]) }
  else { body := .json (.obj [("preempted".toList, .bool false)]) }

/-- A body that is no JSON counts as empty. -/
def handleChaosTrigger (body : Option Json) (s : CloudMetadataServer) :
    CloudMetadataServer × HttpResponse :=
  match body.getD (.obj []) with
  | .obj data =>
    match (Json.field? data "provider".toList).getD (.text "aws".toList) with
    | .str provider =>
      -- with a surrogate it is none of the names
      match s.triggerPreemption float (provider.toText?.getD [])
          ((Json.field? data "notice_seconds".toList).getD .null) with
      | (s, .ok ()) => (s, { body := .json (.obj [("status".toList, .text "injected".toList),
          ("provider".toList, .str provider), ("aws_preempted".toList, .bool s.awsPreempted),
          ("gcp_preempted".toList, .bool s.gcpPreempted),
          ("runpod_preempted".toList, .bool s.runpodPreempted)]) })
      | (s, .error _) => (s, serverError)
    | _ => (s, serverError)
  | _ => (s, serverError)

def handleChaosReset (s : CloudMetadataServer) : CloudMetadataServer × HttpResponse :=
  (s.reset, { body := .json (.obj [("status".toList, .text "reset".toList),
    ("state".toList, .text "healthy".toList)]) })

def handleChaosNetworkDelay (body : Option Json) (s : CloudMetadataServer) :
    CloudMetadataServer × HttpResponse :=
  match body with
  | some (.obj data) =>
    match float ((Json.field? data "delay_ms".toList).getD (.float (.finite 0))) with
    | .ok delay => ({ s with artificialDelayMs := delay },
        { body := .json (.obj [("status".toList, .text "delay_configured".toList),
          ("delay_ms".toList, .float delay)]) })
    | .error _ => (s, serverError)
  | _ => (s, serverError)

def handleStatus (s : CloudMetadataServer) : HttpResponse :=
  { body := .json (.obj [("aws_preempted".toList, .bool s.awsPreempted),
      ("aws_notice_seconds".toList, .float s.awsNoticeSeconds),
      ("gcp_preempted".toList, .bool s.gcpPreempted),
      ("gcp_notice_seconds".toList, .float s.gcpNoticeSeconds),
      ("runpod_preempted".toList, .bool s.runpodPreempted),
      ("runpod_notice_seconds".toList, .float s.runpodNoticeSeconds),
      ("artificial_delay_ms".toList, .float s.artificialDelayMs)]) }

/-- The routes. -/
def serve (clock : Clock) (hex : List Char) (s : CloudMetadataServer) :
    MetadataRequest → CloudMetadataServer × HttpResponse
  | .awsToken ttlHeader => s.handleAwsToken float clock hex ttlHeader
  | .awsSpotAction token => (s, s.handleAwsSpotAction strftime clock token)
  | .gcpPreempted flavor => (s, s.handleGcpPreempted flavor)
  | .gcpMaintenance flavor => (s, s.handleGcpMaintenance flavor)
  | .runpodPreempt => (s, s.handleRunpodPreempt)
  | .chaosTrigger body => s.handleChaosTrigger float body
  | .chaosReset => s.handleChaosReset
  | .chaosNetworkDelay body => s.handleChaosNetworkDelay float body
  | .status => (s, s.handleStatus)

end

end CloudMetadataServer

/-! ### The world of a watchdog -/

/-- The simulator, the clocks, which run alike, and whether RunPod's trigger
file exists. -/
structure CloudWorld where
  server : CloudMetadataServer := {}
  monotonic : ℚ := 0
  /-- the time of UTC at which the monotonic clock was zero -/
  epoch : ℚ := 0
  triggerFile : Bool := false

/-- What a watchdog sees of the world without asking the simulator. -/
structure CloudView where
  clock : Clock
  triggerFile : Bool

/-- What happens in the world by itself. -/
inductive CloudEvent
  | elapse (seconds : ℚ)
  /-- `trigger_preemption` called by the program that runs the simulator -/
  | trigger (provider : List Char) (noticeSeconds : Json)
  /-- `reset` called by it -/
  | reset
  /-- a request of anyone else -/
  | request (q : MetadataRequest) (hex : List Char)
  | setTriggerFile (present : Bool)

namespace CloudWorld

def clock (w : CloudWorld) : Clock :=
  { monotonic := w.monotonic, utc := w.epoch + w.monotonic }

/-- The deadline of AWS is a time that can be written. -/
def InRange (w : CloudWorld) : Prop :=
  (CloudMetadataServer.deadline? w.clock.utc w.server.awsNoticeSeconds).isSome = true

instance (w : CloudWorld) : Decidable w.InRange := inferInstanceAs (Decidable (_ = _))

section
variable (float : Json → Except Exc PyFloat) (strftime : ℚ → List Char)

/-- Sixteen hexadecimal digits, which `uuid4` gives to no two tokens. -/
def Fresh (w : CloudWorld) (hex : List Char) : Prop :=
  hex.all (fun c => c ∈ (List.range 16).map Json.hexDigit) = true ∧ hex.length = 16 ∧
    w.server.awsTokens.get? (CloudMetadataServer.awsToken hex) = none

instance (w : CloudWorld) (hex : List Char) : Decidable (w.Fresh hex) :=
  inferInstanceAs (Decidable (_ ∧ _ ∧ _))

def serve (w : CloudWorld) (q : MetadataRequest) (hex : List Char) :
    Option (CloudWorld × HttpResponse) :=
  if w.Fresh hex then
    let r := w.server.serve float strftime w.clock hex q
    some ({ w with server := r.1 }, r.2)
  else none

def env (w : CloudWorld) : CloudEvent → Option CloudWorld
  | .elapse seconds =>
    if 0 ≤ seconds then some { w with monotonic := w.monotonic + seconds } else none
  | .trigger provider noticeSeconds =>
    some { w with server := (w.server.triggerPreemption float provider noticeSeconds).1 }
  | .reset => some { w with server := w.server.reset }
  | .request q hex => (w.serve float strftime q hex).map Prod.fst
  | .setTriggerFile present => some { w with triggerFile := present }

end

end CloudWorld

/-- The simulator as a server. -/
def cloudServer (float : Json → Except Exc PyFloat) (strftime : ℚ → List Char) :
    Server CloudWorld CloudEvent (List Char) MetadataRequest HttpResponse CloudView where
  env := CloudWorld.env float strftime
  serve := CloudWorld.serve float strftime
  view w := { clock := w.clock, triggerFile := w.triggerFile }

/-! ### What lasts until a reset -/

/-- What a server that is not reset keeps. -/
structure Stays (s s' : CloudMetadataServer) : Prop where
  aws : s.awsPreempted = true → s'.awsPreempted = true
  gcp : s.gcpPreempted = true → s'.gcpPreempted = true
  runpod : s.runpodPreempted = true → s'.runpodPreempted = true
  tokens : ∀ token expiresAt, s.awsTokens.get? token = some expiresAt →
    s'.awsTokens.get? token = some expiresAt

theorem Stays.refl (s : CloudMetadataServer) : Stays s s :=
  ⟨id, id, id, fun _ _ h => h⟩

theorem Stays.trans {s s' s'' : CloudMetadataServer} (h : Stays s s') (h' : Stays s' s'') :
    Stays s s'' :=
  ⟨h'.aws ∘ h.aws, h'.gcp ∘ h.gcp, h'.runpod ∘ h.runpod, fun t e ht => h'.tokens t e (h.tokens t e ht)⟩

section
variable {float : Json → Except Exc PyFloat} {strftime : ℚ → List Char}

open CloudMetadataServer

theorem inject_stays {mark : CloudMetadataServer → CloudMetadataServer}
    {notice : PyFloat → CloudMetadataServer → CloudMetadataServer} (hm : ∀ s, Stays s (mark s))
    (hn : ∀ x s, Stays s (notice x s)) (noticeSeconds : Json) (s : CloudMetadataServer) :
    Stays s (inject float mark notice noticeSeconds s).1 := by
  unfold inject
  split
  · exact hm s
  · split
    · exact (hm s).trans (hn _ _)
    · exact hm s

theorem branch_stays {applies : Bool}
    {trigger : CloudMetadataServer → CloudMetadataServer × Except Exc Unit}
    (ht : ∀ s, Stays s (trigger s).1) (r : CloudMetadataServer × Except Exc Unit) :
    Stays r.1 (branch applies trigger r).1 := by
  obtain ⟨s, _ | _⟩ := r
  · exact Stays.refl s
  · unfold branch
    dsimp only
    split
    · exact ht s
    · exact Stays.refl s

variable (float) in
theorem triggerPreemption_stays (provider : List Char) (noticeSeconds : Json)
    (s : CloudMetadataServer) : Stays s (s.triggerPreemption float provider noticeSeconds).1 := by
  have haws (s : CloudMetadataServer) : Stays s (triggerAws float noticeSeconds s).1 := by
    apply inject_stays
    · exact fun _ => ⟨fun _ => rfl, id, id, fun _ _ h => h⟩
    · exact fun _ _ => ⟨id, id, id, fun _ _ h => h⟩
  have hgcp (s : CloudMetadataServer) : Stays s (triggerGcp float noticeSeconds s).1 := by
    apply inject_stays
    · exact fun _ => ⟨id, fun _ => rfl, id, fun _ _ h => h⟩
    · exact fun _ _ => ⟨id, id, id, fun _ _ h => h⟩
  have hrunpod (s : CloudMetadataServer) : Stays s (triggerRunpod float noticeSeconds s).1 := by
    apply inject_stays
    · exact fun _ => ⟨id, id, fun _ => rfl, fun _ _ h => h⟩
    · exact fun _ _ => ⟨id, id, id, fun _ _ h => h⟩
  unfold triggerPreemption
  exact (branch_stays haws (s, .ok ())).trans ((branch_stays hgcp _).trans (branch_stays hrunpod _))

/-- A request other than a reset takes nothing away. -/
theorem serve_stays {w w' : CloudWorld} {q : MetadataRequest} {hex : List Char} {resp : HttpResponse}
    (h : (cloudServer float strftime).serve w q hex = some (w', resp)) (hq : q ≠ .chaosReset) :
    Stays w.server w'.server := by
  simp only [cloudServer, CloudWorld.serve] at h
  split at h
  · rename_i hfresh
    obtain ⟨rfl, rfl⟩ := Prod.mk.inj (Option.some.inj h)
    cases q with
    | awsToken ttlHeader =>
      refine ⟨id, id, id, fun token expiresAt ht => ?_⟩
      show (w.server.awsTokens.set _ _).get? token = some expiresAt
      rw [Dict.get?_set_ne _ fun he => ?_, ht]
      rw [he, hfresh.2.2] at ht
      cases ht
    | chaosTrigger body =>
      show Stays w.server (w.server.handleChaosTrigger float body).1
      unfold handleChaosTrigger
      split
      · split
        · rename_i provider _
          have hs := triggerPreemption_stays float (provider.toText?.getD [])
            ((Json.field? ‹_› "notice_seconds".toList).getD .null) w.server
          split
          · rename_i he; rw [he] at hs; exact hs
          · rename_i he; rw [he] at hs; exact hs
        · exact Stays.refl _
      · exact Stays.refl _
    | chaosReset => exact absurd rfl hq
    | chaosNetworkDelay body =>
      show Stays w.server (w.server.handleChaosNetworkDelay float body).1
      unfold handleChaosNetworkDelay
      split
      · split
        · exact ⟨id, id, id, fun _ _ h => h⟩
        · exact Stays.refl _
      · exact Stays.refl _
    | _ => exact Stays.refl _
  · cases h

abbrev CloudMove := Server.Move CloudEvent (List Char) MetadataRequest

/-- Neither a call nor a request resets the simulator. -/
def NoReset : CloudMove → Prop
  | .env .reset | .env (.request .chaosReset _) | .serve .chaosReset _ => False
  | _ => True

/-- What is served does not take time. -/
theorem serve_monotonic {w w' : CloudWorld} {q : MetadataRequest} {hex : List Char}
    {resp : HttpResponse} (h : (cloudServer float strftime).serve w q hex = some (w', resp)) :
    w'.monotonic = w.monotonic := by
  simp only [cloudServer, CloudWorld.serve] at h
  split at h
  · obtain ⟨rfl, rfl⟩ := Prod.mk.inj (Option.some.inj h)
    rfl
  · cases h

/-- A request of anyone is served. -/
theorem served_of_move {w w' : CloudWorld} {q : MetadataRequest} {hex : List Char}
    (h : (cloudServer float strftime).move w (.serve q hex) = some w') :
    ∃ resp, (cloudServer float strftime).serve w q hex = some (w', resp) := by
  simp only [Server.move] at h
  obtain ⟨r, hs, rfl⟩ := Option.map_eq_some_iff.mp h
  exact ⟨r.2, hs⟩

theorem served_of_request {w w' : CloudWorld} {q : MetadataRequest} {hex : List Char}
    (h : (cloudServer float strftime).move w (.env (.request q hex)) = some w') :
    ∃ resp, (cloudServer float strftime).serve w q hex = some (w', resp) := by
  simp only [Server.move, cloudServer, CloudWorld.env] at h
  simp only [cloudServer]
  obtain ⟨r, hs, rfl⟩ := Option.map_eq_some_iff.mp h
  exact ⟨r.2, hs⟩

/-- A step of a pool in which someone else resets the simulator. -/
def ResetLabel : PoolLabel CloudEvent (List Char) → Prop
  | .env .reset | .env (.request .chaosReset _) => True
  | _ => False

theorem noReset_of_label {e : CloudEvent} (h : ¬ ResetLabel (.env e)) : NoReset (.env e) := by
  cases e with
  | reset => exact h trivial
  | request q hex =>
    cases q with
    | chaosReset => exact h trivial
    | _ => trivial
  | _ => trivial

theorem noReset_serve {q : MetadataRequest} (h : q ≠ .chaosReset) (hex : List Char) :
    NoReset (.serve q hex) := by
  cases q with
  | chaosReset => exact h rfl
  | _ => trivial

theorem move_stays {w w' : CloudWorld} {m : CloudMove}
    (h : (cloudServer float strftime).move w m = some w') (hm : NoReset m) :
    Stays w.server w'.server := by
  cases m with
  | env e =>
    cases e with
    | elapse seconds =>
      obtain ⟨-, rfl⟩ : 0 ≤ seconds ∧ { w with monotonic := w.monotonic + seconds } = w' := by
        simpa [Server.move, cloudServer, CloudWorld.env] using h
      exact Stays.refl _
    | trigger provider noticeSeconds =>
      obtain rfl := Option.some.inj h
      exact triggerPreemption_stays ..
    | reset => exact hm.elim
    | request q hex =>
      have hq : q ≠ .chaosReset := by
        rintro rfl
        exact hm
      obtain ⟨resp, hs⟩ := served_of_request h
      exact serve_stays hs hq
    | setTriggerFile present =>
      obtain rfl := Option.some.inj h
      exact Stays.refl _
  | serve q hex =>
    have hq : q ≠ .chaosReset := by
      rintro rfl
      exact hm
    obtain ⟨resp, hs⟩ := served_of_move h
    exact serve_stays hs hq

/-- The clock does not run backwards. -/
theorem move_monotonic {w w' : CloudWorld} {m : CloudMove}
    (h : (cloudServer float strftime).move w m = some w') : w.monotonic ≤ w'.monotonic := by
  cases m with
  | env e =>
    cases e with
    | elapse seconds =>
      obtain ⟨h0, rfl⟩ : 0 ≤ seconds ∧ { w with monotonic := w.monotonic + seconds } = w' := by
        simpa [Server.move, cloudServer, CloudWorld.env] using h
      exact le_add_of_nonneg_right h0
    | request q hex =>
      obtain ⟨resp, hs⟩ := served_of_request h
      exact (serve_monotonic hs).ge
    | _ =>
      obtain rfl := Option.some.inj h
      exact le_rfl
  | serve q hex =>
    obtain ⟨resp, hs⟩ := served_of_move h
    exact (serve_monotonic hs).ge

variable {P : CloudWorld → CloudMove → CloudWorld → Prop} {w w' : CloudWorld}

theorem moves_monotonic (h : Moves (cloudServer float strftime) P w w') :
    w.monotonic ≤ w'.monotonic :=
  h.inv (I := fun w' => w.monotonic ≤ w'.monotonic)
    (fun _ _ _ hI hm _ => hI.trans (move_monotonic hm)) le_rfl

/-- What the moves of a simulator that is not reset leave as it is. -/
theorem moves_stay (hP : ∀ w m w', P w m w' → NoReset m)
    (h : Moves (cloudServer float strftime) P w w') : Stays w.server w'.server :=
  h.inv (I := fun w' => Stays w.server w'.server)
    (fun _ _ _ hI hm hp => hI.trans (move_stays hm (hP _ _ _ hp))) (Stays.refl _)

/-- No check resets the simulator, so a run in which no one else does has no
reset. -/
theorem noReset_of_labels {L A : Type}
    {program : CloudView → L → Dialogue MetadataRequest HttpResponse CloudView L A}
    (hprogram : ∀ v l, (program v l).Asks (· ≠ .chaosReset))
    {p₀ p : Pool CloudWorld MetadataRequest HttpResponse CloudView L A}
    {ls₀ ls : List (PoolLabel CloudEvent (List Char))} (h₀ : ∀ t, p₀.clients t = .idle)
    (hr₀ : Machine.run (Pool.step (cloudServer float strftime) program) p₀ ls₀ = some p)
    (hreset : ∀ l ∈ ls, ¬ ResetLabel l) :
    Machine.Along (Pool.step (cloudServer float strftime) program)
      (Pool.Keeps fun _ m _ => NoReset m) p ls := by
  have hasks : ∀ t, (p.clients t).Asks (· ≠ .chaosReset) := by
    refine Pool.asks_run hprogram (fun t => ?_) hr₀
    rw [h₀ t]
    trivial
  refine Pool.keeps_of_asks hprogram (fun _ q hex _ hq => noReset_serve hq hex) hasks ?_
  exact fun e _ _ he => noReset_of_label (hreset _ he)

end

end Sgm
