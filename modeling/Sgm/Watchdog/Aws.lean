/-
# The AWS preemption watchdog

`daemon/watchdog/aws.py` against the simulator. A check asks for a token unless
one is cached, asks for the action on the instance, and after a 401 asks for
both once more. The checks of one watchdog share its token, which expires and
which a reset of the simulator revokes, at any time; requests are lost, and the
node may be preempted at any moment of a check.

Key definitions: `AWSToken`, `parsePreemptionPayload`, `AWSPreemptionWatchdog.checkOnce`.
Key theorems: `aws_detects`, `aws_no_false_alarm`.
-/
import Sgm.Simulator.CloudMetadata
import Sgm.Lib.Text

namespace Sgm

/-- What the checks of a watchdog share. -/
structure AWSToken where
  cachedToken : Option (List Char) := none
  tokenAcquiredAt : ℚ := 0

namespace AWSPreemptionWatchdog

abbrev CheckResult := Except Exc (Option PreemptionEvent)

abbrev Check := Dialogue MetadataRequest HttpResponse CloudView AWSToken CheckResult

def tokenRefreshIntervalS : ℚ := 3 * 3600

/-- An `aiohttp.ClientError` or an `asyncio.TimeoutError`. -/
def requestError : Exc := .exception "IMDSv2 request error"

/-! `fromisoformat` is Python's, of a text in which `+00:00` stands for `Z`:
the time that it denotes, in seconds, if it is one with a zone. -/
section
variable (fromisoformat : List Char → Option ℚ)

/-- `deadline_str.replace("Z", "+00:00")` -/
def replaceZ (s : List Char) : List Char := s.flatMap fun c => if c = 'Z' then "+00:00".toList else [c]

/-- The seconds to a deadline; 120 if it cannot be read, as with a surrogate, or
has passed. -/
def deadlineSeconds (deadline : PyStr) (utc : ℚ) : ℚ :=
  match deadline.toText?.bind fun s => fromisoformat (replaceZ s) with
  | some target => if 0 < target - utc then target - utc else 120
  | none => 120

/-- The event is validated: the action is a string, the deadline a string or
`None`. An empty deadline is not read. -/
def parsePreemptionPayload (data : Json) (utc : ℚ) : Except Exc PreemptionEvent :=
  match data with
  | .obj fields =>
    match (Json.field? fields "action".toList).getD (.text "terminate".toList),
        (Json.field? fields "time".toList).getD .null with
    | .str action, .null =>
      .ok { provider := "aws", action := action, deadlineSeconds := 120 }
    | .str action, .str [] =>
      .ok { provider := "aws", action := action, deadlineSeconds := 120 }
    | .str action, .str deadline =>
      .ok { provider := "aws", action := action,
            deadlineSeconds := deadlineSeconds fromisoformat deadline utc }
    | _, _ => .error (.valueError "validation error for PreemptionEvent")
  | _ => .error (.exception "object has no attribute 'get'")

/-! ### A check -/

variable (tokenTtlSeconds : ℤ)

/-- `PUT /latest/api/token`; `k` is what follows with the token. -/
def refreshToken (k : List Char → Check) : Check :=
  .ask (.awsToken (some (Json.dumpsInt tokenTtlSeconds)))
    (fun reply view cache =>
      match reply with
      | some resp =>
        if resp.status = 200 then
          { cachedToken := some (Text.strip resp.text), tokenAcquiredAt := view.clock.monotonic }
        else cache
      | none => cache)
    (fun reply _ _ =>
      match reply with
      | none => .done (.error requestError)
      | some resp =>
        if resp.status = 200 then k (Text.strip resp.text)
        else .done (.error (.valueError (String.ofList ("Failed to fetch IMDSv2 token (HTTP ".toList ++
          Json.dumpsInt resp.status ++ "): ".toList ++ resp.text)))))

/-- What follows with a valid token. -/
def getValidToken (view : CloudView) (cache : AWSToken) (k : List Char → Check) : Check :=
  match cache.cachedToken with
  | none => refreshToken tokenTtlSeconds k
  | some token =>
    if tokenRefreshIntervalS ≤ view.clock.monotonic - cache.tokenAcquiredAt then
      refreshToken tokenTtlSeconds k
    else k token

/-- `GET /latest/meta-data/spot/instance-action` -/
def spotAction (token : List Char) (k : HttpResponse → CloudView → Check) : Check :=
  .ask (.awsSpotAction (some token)) (fun _ _ cache => cache)
    (fun reply view _ =>
      match reply with
      | none => .done (.error requestError)
      | some resp => k resp view)

/-- What the check makes of the response to its second attempt. -/
def retried (resp : HttpResponse) (view : CloudView) : CheckResult :=
  if resp.status = 404 then .ok none
  else if resp.status = 200 then
    (resp.json.bind (parsePreemptionPayload fromisoformat · view.clock.utc)).map some
  else .ok none

/-- `resp.json()`, or else the body read as JSON. -/
def bodyJson (resp : HttpResponse) : Except Exc Json :=
  match resp.json with
  | .ok data => .ok data
  | .error _ =>
    match Json.loads resp.text with
    | some data => .ok data
    | none => .error (.valueError "Expecting value")

/-- What the check makes of the response to its first attempt. -/
def probed (resp : HttpResponse) (view : CloudView) : Check :=
  if resp.status = 404 then .done (.ok none)
  else if resp.status = 401 then
    -- the token has expired: a new one, and a single retry
    refreshToken tokenTtlSeconds fun token => spotAction token fun resp view =>
      .done (retried fromisoformat resp view)
  else if resp.status = 200 then
    .done (((bodyJson resp).bind (parsePreemptionPayload fromisoformat · view.clock.utc)).map some)
  else .done (.ok none)

def checkOnce (view : CloudView) (cache : AWSToken) : Check :=
  getValidToken tokenTtlSeconds view cache fun token =>
    spotAction token (probed fromisoformat tokenTtlSeconds)

end

end AWSPreemptionWatchdog

/-! ### The responses of the simulator -/

section
variable {float : Json → Except Exc PyFloat} {strftime : ℚ → List Char}

open AWSPreemptionWatchdog

/-- The body that tells of a preemption. -/
def terminateBody (time : List Char) : Json :=
  .obj [("action".toList, .text "terminate".toList), ("time".toList, .text time)]

/-- The token is one the simulator accepts now. -/
def Accepts (w : CloudWorld) (token : List Char) : Prop :=
  ∃ expiresAt, w.server.awsTokens.get? token = some expiresAt ∧ expiresAt.ltRat w.monotonic = false

/-- The responses to a request for the action on the instance. -/
theorem spotAction_cases (strftime : ℚ → List Char) (w : CloudWorld) (token : List Char) :
    ((w.server.handleAwsSpotAction strftime w.clock (some token)).status = 401 ∧
      (token ≠ [] → ¬ Accepts w token)) ∨
    ((w.server.handleAwsSpotAction strftime w.clock (some token)).status = 404 ∧
      w.server.awsPreempted = false) ∨
    (w.server.awsPreempted = true ∧ ∃ time,
      w.server.handleAwsSpotAction strftime w.clock (some token) =
        { body := .json (terminateBody time) }) ∨
    ((w.server.handleAwsSpotAction strftime w.clock (some token)).status = 500 ∧ ¬ w.InRange) := by
  cases token with
  | nil => exact .inl ⟨rfl, fun h => absurd rfl h⟩
  | cons c cs =>
    simp only [CloudMetadataServer.handleAwsSpotAction]
    cases hg : w.server.awsTokens.get? (c :: cs) with
    | none =>
      refine .inl ⟨by simp, fun _ => ?_⟩
      rintro ⟨e, he, -⟩
      rw [hg] at he
      cases he
    | some expiresAt =>
      have hclock : expiresAt.ltRat w.clock.monotonic = expiresAt.ltRat w.monotonic := rfl
      cases hexp : expiresAt.ltRat w.monotonic with
      | true =>
        refine .inl ⟨by simp [hclock, hexp], fun _ => ?_⟩
        rintro ⟨e, he, hle⟩
        rw [hg] at he
        obtain rfl := Option.some.inj he
        rw [hexp] at hle
        cases hle
      | false =>
        right
        cases hp : w.server.awsPreempted with
        | false => exact .inl ⟨by simp [hclock, hexp], rfl⟩
        | true =>
          right
          cases hd : CloudMetadataServer.deadline? w.clock.utc w.server.awsNoticeSeconds with
          | some deadline => exact .inl ⟨rfl, strftime deadline, by simp [hclock, hexp]; rfl⟩
          | none => exact .inr ⟨by simp [hclock, hexp]; rfl, by simp [CloudWorld.InRange, hd]⟩

theorem served_spotAction {w w' : CloudWorld} {token : Option (List Char)} {hex : List Char}
    {resp : HttpResponse}
    (h : (cloudServer float strftime).serve w (.awsSpotAction token) hex = some (w', resp)) :
    w' = w ∧ resp = w.server.handleAwsSpotAction strftime w.clock token := by
  simp only [cloudServer, CloudWorld.serve, CloudMetadataServer.serve] at h
  split at h
  · obtain ⟨rfl, rfl⟩ := Prod.mk.inj (Option.some.inj h)
    exact ⟨rfl, rfl⟩
  · cases h

/-- `strip` leaves a token of the simulator as it is. -/
theorem strip_awsToken {w : CloudWorld} {hex : List Char} (h : w.Fresh hex) :
    Text.strip (CloudMetadataServer.awsToken hex) = CloudMetadataServer.awsToken hex := by
  apply Text.strip_of_trimmed
  constructor
  · intro c hc
    obtain rfl : 'a' = c := by simpa [CloudMetadataServer.awsToken] using hc
    decide
  · intro c hc
    have hne : hex ≠ [] := by
      rintro rfl
      exact absurd h.2.1 (by decide)
    rw [CloudMetadataServer.awsToken, List.getLast?_append_of_ne_nil _ hne] at hc
    have hdigit : ∀ d < 16, Text.isSpace (Json.hexDigit d) = false := by decide
    have hmem := List.all_eq_true.mp h.1 c (List.mem_of_getLast? hc)
    obtain ⟨d, hd, rfl⟩ := List.mem_map.mp (of_decide_eq_true hmem)
    exact hdigit d (List.mem_range.mp hd)

/-- A new token is kept until its TTL is over. -/
theorem served_token {w w' : CloudWorld} {ttl : Option (List Char)} {hex : List Char}
    {resp : HttpResponse}
    (h : (cloudServer float strftime).serve w (.awsToken ttl) hex = some (w', resp)) :
    ∃ token, token ≠ [] ∧ Text.strip token = token ∧ resp = { body := .text token } ∧
      w'.server.awsTokens.get? token =
        some ((CloudMetadataServer.ttlS float ttl).addRat w.monotonic) := by
  simp only [cloudServer, CloudWorld.serve, CloudMetadataServer.serve,
    CloudMetadataServer.handleAwsToken] at h
  split at h
  · rename_i hfresh
    obtain ⟨rfl, rfl⟩ := Prod.mk.inj (Option.some.inj h)
    exact ⟨_, List.cons_ne_nil _ _, strip_awsToken hfresh, rfl, Dict.get?_set_self ..⟩
  · cases h

/-! ### Courses of a check -/

variable {fromisoformat : List Char → Option ℚ} {ttl : ℤ}
  {P : CloudWorld → CloudMove → CloudWorld → Prop} {n : ℕ} {w : CloudWorld} {a : CheckResult}
  {k : HttpResponse → CloudView → Check} {event : PreemptionEvent}

/-- The courses of a check. -/
abbrev AwsCourse (float : Json → Except Exc PyFloat) (strftime : ℚ → List Char)
    (P : CloudWorld → CloudMove → CloudWorld → Prop) (n : ℕ) :
    CloudWorld → Check → CheckResult → Prop :=
  Course (cloudServer float strftime) P (fun _ _ => True) n

theorem course_spotAction {token : List Char}
    (h : AwsCourse float strftime P n w (spotAction token k) a) :
    (∃ w₁ w₂ hex, Moves (cloudServer float strftime) P w w₁ ∧
      P w₁ (.serve (.awsSpotAction (some token)) hex) w₁ ∧
      Moves (cloudServer float strftime) P w₁ w₂ ∧
      AwsCourse float strftime P n w₂
        (k (w₁.server.handleAwsSpotAction strftime w₁.clock (some token))
          ((cloudServer float strftime).view w₂)) a) ∨
    0 < n ∧ a = .error requestError := by
  cases h with
  | reply before served move after known rest =>
    obtain ⟨rfl, rfl⟩ := served_spotAction served
    exact .inl ⟨_, _, _, before, move, after, rest⟩
  | fail before known rest =>
    cases rest
    exact .inr ⟨Nat.one_pos, rfl⟩

/-- The seconds for which the simulator keeps a token of the watchdog. -/
def tokenSeconds (float : Json → Except Exc PyFloat) (ttl : ℤ) : PyFloat :=
  CloudMetadataServer.ttlS float (some (Json.dumpsInt ttl))

theorem course_refreshToken {k : List Char → Check}
    (h : AwsCourse float strftime P n w (refreshToken ttl k) a) :
    (∃ w₁ w₂ w₃ token, token ≠ [] ∧ Moves (cloudServer float strftime) P w w₁ ∧
      Moves (cloudServer float strftime) P w₁ w₂ ∧
      w₂.server.awsTokens.get? token = some ((tokenSeconds float ttl).addRat w₁.monotonic) ∧
      Moves (cloudServer float strftime) P w₂ w₃ ∧
      AwsCourse float strftime P n w₃ (k token) a) ∨
    0 < n ∧ a = .error requestError := by
  cases h with
  | reply before served move after known rest =>
    obtain ⟨token, hne, hstrip, rfl, hget⟩ := served_token served
    change AwsCourse float strftime P n _ (if 200 = 200 then k (Text.strip token) else _) a at rest
    rw [if_pos rfl, hstrip] at rest
    exact .inl ⟨_, _, _, token, hne, before, .served served move, hget, after, rest⟩
  | fail before known rest =>
    cases rest
    exact .inr ⟨Nat.one_pos, rfl⟩

/-- An event that tells of a termination by AWS. -/
structure AwsTermination (event : PreemptionEvent) : Prop where
  provider : event.provider = "aws"
  action : event.action = "terminate"
  deadline : 0 < event.deadlineSeconds

theorem deadlineSeconds_pos (deadline : PyStr) (utc : ℚ) :
    0 < deadlineSeconds fromisoformat deadline utc := by
  unfold deadlineSeconds
  split
  · split
    · assumption
    · norm_num
  · norm_num

variable (fromisoformat) in
theorem parse_terminateBody (time : List Char) (utc : ℚ) :
    ∃ event, parsePreemptionPayload fromisoformat (terminateBody time) utc = .ok event ∧
      AwsTermination event := by
  cases time with
  | nil => exact ⟨_, rfl, rfl, rfl, by norm_num⟩
  | cons c cs => exact ⟨_, rfl, rfl, rfl, deadlineSeconds_pos ..⟩

/-- The moves of a server that is not reset, up to time `T`, and whose deadline
can be written. -/
def Timely (T : ℚ) (_ : CloudWorld) (m : CloudMove) (w' : CloudWorld) : Prop :=
  NoReset m ∧ w'.monotonic ≤ T ∧ w'.InRange

/-- The check has returned an event, or a request of it has failed. -/
def Detected (n : ℕ) (a : CheckResult) : Prop :=
  (∃ event, a = .ok (some event) ∧ AwsTermination event) ∨ 0 < n ∧ a = .error requestError

theorem preempted_of_moves {T : ℚ} {w w' : CloudWorld} (hw : w.server.awsPreempted = true)
    (h : Moves (cloudServer float strftime) (Timely T) w w') : w'.server.awsPreempted = true :=
  (moves_stay (fun _ _ _ h => h.1) h).aws hw

/-- The second attempt is made with a token that is too young to expire. -/
theorem retry_detects {T : ℚ} (hw : w.server.awsPreempted = true)
    (hT : ((tokenSeconds float ttl).addRat w.monotonic).ltRat T = false)
    (h : AwsCourse float strftime (Timely T) n w
      (refreshToken ttl fun token => spotAction token fun resp view =>
        .done (retried fromisoformat resp view)) a) : Detected n a := by
  rcases course_refreshToken h with ⟨w₁, w₂, w₃, token, hne, hm₁, hm₂, hget, hm₃, hc⟩ | hl
  · rcases course_spotAction hc with ⟨w₄, w₅, hex, hm₄, hp, hm₅, hc⟩ | hl
    · have hm : Moves (cloudServer float strftime) (Timely T) w₂ w₄ := hm₃.trans hm₄
      have hpre : w₄.server.awsPreempted = true :=
        preempted_of_moves hw ((hm₁.trans hm₂).trans hm)
      have haccepts : Accepts w₄ token := by
        refine ⟨_, (moves_stay (fun _ _ _ h => h.1) hm).tokens _ _ hget, ?_⟩
        exact PyFloat.ltRat_addRat_mono (moves_monotonic hm₁) hp.2.1 hT
      rcases spotAction_cases strftime w₄ token with ⟨-, hno⟩ | ⟨-, hno⟩ | ⟨-, time, hresp⟩ | ⟨-, hno⟩
      · exact absurd haccepts (hno hne)
      · rw [hpre] at hno
        cases hno
      · obtain ⟨event, hparse, hevent⟩ := parse_terminateBody fromisoformat time
          ((cloudServer float strftime).view w₅).clock.utc
        rw [hresp] at hc
        cases hc
        exact .inl ⟨event, by simp [retried, HttpResponse.json, Except.bind, hparse, Except.map], hevent⟩
      · exact absurd hp.2.2 hno
    · exact .inr hl
  · exact .inr hl

theorem probe_detects {T : ℚ} (hw : w.server.awsPreempted = true)
    (hT : ((tokenSeconds float ttl).addRat w.monotonic).ltRat T = false) {token : List Char}
    (h : AwsCourse float strftime (Timely T) n w
      (spotAction token (probed fromisoformat ttl)) a) : Detected n a := by
  rcases course_spotAction h with ⟨w₁, w₂, hex, hm₁, hp, hm₂, hc⟩ | hl
  · have hpre : w₁.server.awsPreempted = true := preempted_of_moves hw hm₁
    rcases spotAction_cases strftime w₁ token with ⟨hs, -⟩ | ⟨-, hno⟩ | ⟨-, time, hresp⟩ | ⟨-, hno⟩
    · have hT₂ : ((tokenSeconds float ttl).addRat w₂.monotonic).ltRat T = false :=
        PyFloat.ltRat_addRat_mono (moves_monotonic (hm₁.trans hm₂)) le_rfl hT
      simp only [probed, hs] at hc
      exact retry_detects (preempted_of_moves hpre hm₂) hT₂ hc
    · rw [hpre] at hno
      cases hno
    · obtain ⟨event, hparse, hevent⟩ := parse_terminateBody fromisoformat time
        ((cloudServer float strftime).view w₂).clock.utc
      rw [hresp] at hc
      cases hc
      exact .inl ⟨event, by simp [bodyJson, HttpResponse.json, Except.bind, hparse, Except.map], hevent⟩
    · exact absurd hp.2.2 hno
  · exact .inr hl

theorem check_detects {T : ℚ} (hw : w.server.awsPreempted = true)
    (hT : ((tokenSeconds float ttl).addRat w.monotonic).ltRat T = false) {cache : AWSToken}
    (h : AwsCourse float strftime (Timely T) n w
      (checkOnce fromisoformat ttl ((cloudServer float strftime).view w) cache) a) :
    Detected n a := by
  have hrefresh (h : AwsCourse float strftime (Timely T) n w (refreshToken ttl fun token =>
      spotAction token (probed fromisoformat ttl)) a) : Detected n a := by
    rcases course_refreshToken h with ⟨w₁, w₂, w₃, token, -, hm₁, hm₂, -, hm₃, hc⟩ | hl
    · have hm := (hm₁.trans hm₂).trans hm₃
      exact probe_detects (preempted_of_moves hw hm)
        (PyFloat.ltRat_addRat_mono (moves_monotonic hm) le_rfl hT) hc
    · exact .inr hl
  unfold checkOnce getValidToken at h
  split at h
  · exact hrefresh h
  · split at h
    · exact hrefresh h
    · exact probe_detects hw hT h

/-- The moves of a server that is not preempted. -/
def Healthy (w : CloudWorld) (_ : CloudMove) (w' : CloudWorld) : Prop :=
  w.server.awsPreempted = false ∧ w'.server.awsPreempted = false

theorem healthy_retry (h : AwsCourse float strftime Healthy n w
      (refreshToken ttl fun token => spotAction token fun resp view =>
        .done (retried fromisoformat resp view)) a) : a ≠ .ok (some event) := by
  rcases course_refreshToken h with ⟨w₁, w₂, w₃, token, -, -, -, -, -, hc⟩ | ⟨-, rfl⟩
  · rcases course_spotAction hc with ⟨w₄, w₅, hex, -, hp, -, hc⟩ | ⟨-, rfl⟩
    · rcases spotAction_cases strftime w₄ token with ⟨hs, -⟩ | ⟨hs, -⟩ | ⟨hpre, -⟩ | ⟨hs, -⟩
      · cases hc
        simp [retried, hs]
      · cases hc
        simp [retried, hs]
      · rw [hp.1] at hpre
        cases hpre
      · cases hc
        simp [retried, hs]
    · simp
  · simp

theorem healthy_probe {token : List Char} (h : AwsCourse float strftime Healthy n w
      (spotAction token (probed fromisoformat ttl)) a) : a ≠ .ok (some event) := by
  rcases course_spotAction h with ⟨w₁, w₂, hex, -, hp, -, hc⟩ | ⟨-, rfl⟩
  · rcases spotAction_cases strftime w₁ token with ⟨hs, -⟩ | ⟨hs, -⟩ | ⟨hpre, -⟩ | ⟨hs, -⟩
    · simp only [probed, hs] at hc
      exact healthy_retry hc
    · simp only [probed, hs] at hc
      cases hc
      simp
    · rw [hp.1] at hpre
      cases hpre
    · simp only [probed, hs] at hc
      cases hc
      simp
  · simp

theorem healthy_check {view : CloudView} {cache : AWSToken}
    (h : AwsCourse float strftime Healthy n w (checkOnce fromisoformat ttl view cache) a) :
    a ≠ .ok (some event) := by
  have hrefresh (h : AwsCourse float strftime Healthy n w (refreshToken ttl fun token =>
      spotAction token (probed fromisoformat ttl)) a) : a ≠ .ok (some event) := by
    rcases course_refreshToken h with ⟨_, _, w₃, token, -, -, -, -, -, hc⟩ | ⟨-, rfl⟩
    · exact healthy_probe hc
    · simp
  unfold checkOnce getValidToken at h
  split at h
  · exact hrefresh h
  · split at h
    · exact hrefresh h
    · exact healthy_probe h

end

/-! ### Runs -/

section
variable {float : Json → Except Exc PyFloat} {strftime : ℚ → List Char}
  {fromisoformat : List Char → Option ℚ} {ttl : ℤ}

open AWSPreemptionWatchdog

/-- The checks of a watchdog, beside each other and with the simulator. -/
abbrev AwsPool := Pool CloudWorld MetadataRequest HttpResponse CloudView AWSToken CheckResult

abbrev awsStep (float : Json → Except Exc PyFloat) (strftime : ℚ → List Char)
    (fromisoformat : List Char → Option ℚ) (ttl : ℤ) :
    AwsPool → PoolLabel CloudEvent (List Char) → Option AwsPool :=
  Pool.step (cloudServer float strftime) (checkOnce fromisoformat ttl)

theorem asks_checkOnce (view : CloudView) (cache : AWSToken) :
    (checkOnce fromisoformat ttl view cache).Asks (· ≠ .chaosReset) := by
  have hspot {token : List Char} {k : HttpResponse → CloudView → Check}
      (hk : ∀ resp view, (k resp view).Asks (· ≠ .chaosReset)) :
      (spotAction token k).Asks (· ≠ .chaosReset) := by
    refine ⟨by simp, fun r view _ => ?_⟩
    cases r with
    | none => trivial
    | some resp => exact hk resp view
  have hrefresh {k : List Char → Check} (hk : ∀ token, (k token).Asks (· ≠ .chaosReset)) :
      (refreshToken ttl k).Asks (· ≠ .chaosReset) := by
    refine ⟨by simp, fun r _ _ => ?_⟩
    cases r with
    | none => trivial
    | some resp =>
      show (if resp.status = 200 then k (Text.strip resp.text) else .done _).Asks _
      split
      · exact hk _
      · trivial
  have hprobed (resp : HttpResponse) (view : CloudView) :
      (probed fromisoformat ttl resp view).Asks (· ≠ .chaosReset) := by
    unfold probed
    split
    · trivial
    · split
      · exact hrefresh fun _ => hspot fun _ _ => trivial
      · split
        · trivial
        · trivial
  unfold checkOnce getValidToken
  split
  · exact hrefresh fun _ => hspot hprobed
  · split
    · exact hrefresh fun _ => hspot hprobed
    · exact hspot hprobed

/-- Without failures the check returns an event, and it never finds the node healthy. -/
theorem detected_of_run {p₀ p p' : AwsPool} {t : ℕ} {ls₀ ls : List (PoolLabel CloudEvent (List Char))}
    {a : CheckResult} (h₀ : ∀ t, p₀.clients t = .idle)
    (hr₀ : Machine.run (awsStep float strftime fromisoformat ttl) p₀ ls₀ = some p)
    (hr : Machine.run (awsStep float strftime fromisoformat ttl) p (.begin t :: ls) = some p')
    (hf : p'.clients t = .finished a) (hp : p.server.server.awsPreempted = true)
    (hreset : ∀ l ∈ ls, ¬ ResetLabel l)
    (hrange : Machine.Along (awsStep float strftime fromisoformat ttl)
      (fun q _ q' => q.server.InRange ∧ q'.server.InRange) p (.begin t :: ls))
    (htime : ((tokenSeconds float ttl).addRat p.server.monotonic).ltRat p'.server.monotonic = false) :
    Detected (ls.countP (·.fails t)) a := by
  have hkeeps := noReset_of_labels asks_checkOnce h₀ hr₀
    (show ∀ l ∈ .begin t :: ls, ¬ ResetLabel l by simpa [ResetLabel] using hreset)
  have hend : Machine.Along (awsStep float strftime fromisoformat ttl)
      (fun _ _ q => q.server.monotonic ≤ p'.server.monotonic) p (.begin t :: ls) := by
    refine .of_rest hr fun _ _ q cs _ hcs => ?_
    exact moves_monotonic (P := fun _ _ _ => True)
      (Pool.moves_of_run (.of_forall (fun _ _ _ _ => .trivial) _ _) hcs)
  have hA : Machine.Along (awsStep float strftime fromisoformat ttl)
      (Pool.Keeps (Timely p'.server.monotonic)) p (.begin t :: ls) := by
    refine ((hkeeps.and hend).and hrange).mono fun q l q' h => ?_
    refine (Pool.Keeps.and (F := fun _ => True)
      (G := fun w => w.monotonic ≤ p'.server.monotonic ∧ w.InRange) h.1.1 trivial ⟨h.1.2, h.2.2⟩).mono ?_
    exact fun _ _ _ h => ⟨h.1, h.2.2⟩
  exact check_detects hp htime (Pool.course_of_along hA hr hf)

/-- **A preemption is detected.** From any state that a watchdog and a simulator
reach, a check that begins when the node is preempted, in which the simulator is
not reset and its deadline can be written, and by whose end a token taken at its
beginning has not expired, does not find the node healthy, whatever token is
cached; it returns an event unless one of its requests fails. -/
theorem aws_detects {p₀ p p' : AwsPool} {t : ℕ} {ls₀ ls : List (PoolLabel CloudEvent (List Char))}
    {a : CheckResult} (h₀ : ∀ t, p₀.clients t = .idle)
    (hr₀ : Machine.run (awsStep float strftime fromisoformat ttl) p₀ ls₀ = some p)
    (hr : Machine.run (awsStep float strftime fromisoformat ttl) p (.begin t :: ls) = some p')
    (hf : p'.clients t = .finished a) (hp : p.server.server.awsPreempted = true)
    (hreset : ∀ l ∈ ls, ¬ ResetLabel l)
    (hrange : Machine.Along (awsStep float strftime fromisoformat ttl)
      (fun q _ q' => q.server.InRange ∧ q'.server.InRange) p (.begin t :: ls))
    (htime : ((tokenSeconds float ttl).addRat p.server.monotonic).ltRat p'.server.monotonic = false) :
    a ≠ .ok none ∧ (ls.countP (·.fails t) = 0 → ∃ event, a = .ok (some event) ∧ AwsTermination event) := by
  rcases detected_of_run h₀ hr₀ hr hf hp hreset hrange htime with ⟨event, rfl, hevent⟩ | ⟨hn, rfl⟩
  · exact ⟨by simp, fun _ => ⟨event, rfl, hevent⟩⟩
  · exact ⟨by simp, fun hfail => absurd hn (by omega)⟩

/-- Python's `float` of integers, and of their text. -/
def floatOfInt : Json → Except Exc PyFloat
  | .int n => .ok (.finite n)
  | .str s =>
    match s.toText?.bind Text.parseInt with
    | some n => .ok (.finite n)
    | none => .error (.valueError "could not convert string to float")
  | _ => .error (.valueError "could not convert to float")

/-- A watchdog whose token is unknown to the simulator, two minutes before the
node goes. -/
def staleWatchdog : AwsPool where
  server := { server := { awsPreempted := true }, epoch := 1790167530 }
  shared := { cachedToken := some ['e', 'x', 'p', 'i', 'r', 'e', 'd'] }
  clients _ := .idle

/-- The checks beside a simulator whose deadline is read as it was written. -/
def simulatedStep : AwsPool → PoolLabel CloudEvent (List Char) → Option AwsPool :=
  awsStep floatOfInt (fun _ => "2026-09-23T12:47:30Z".toList) (fun _ => some 1790167650) 21600

def secondAttempt : List (PoolLabel CloudEvent (List Char)) :=
  [.serve 0 (List.replicate 16 '0'), .receive 0, .serve 0 (List.replicate 16 '0'), .receive 0,
    .serve 0 (List.replicate 16 '1'), .receive 0]

theorem aws_detects_after_reset : ∃ p' a,
    Machine.run simulatedStep staleWatchdog (.begin 0 :: secondAttempt) = some p' ∧
      p'.clients 0 = .finished a ∧ a ≠ .ok none ∧ ∃ event, a = .ok (some event) ∧ AwsTermination event := by
  obtain ⟨p', hr⟩ := Option.isSome_iff_exists.mp
    (by decide +kernel :
      (Machine.run simulatedStep staleWatchdog (.begin 0 :: secondAttempt)).isSome = true)
  have hend : (Machine.run simulatedStep staleWatchdog (.begin 0 :: secondAttempt)).map
      (fun p' => ((p'.clients 0).result?.isSome, p'.server.monotonic)) = some (true, 0) := by
    decide +kernel
  rw [hr, Option.map_some, Option.some.injEq, Prod.mk.injEq] at hend
  obtain ⟨a, ha⟩ := Option.isSome_iff_exists.mp hend.1
  have hd := aws_detects (fun _ => rfl) (Machine.run_nil _ _) hr (Client.of_result? ha) rfl
    (by simp [secondAttempt, ResetLabel]) (by decide +kernel) (by rw [hend.2]; decide +kernel)
  exact ⟨p', a, hr, Client.of_result? ha, hd.1, hd.2 (by decide)⟩

/-- **No false alarm.** Where a check returns an event, the node was preempted
at some moment of it. -/
theorem aws_no_false_alarm {p p' : AwsPool} {t : ℕ} {ls : List (PoolLabel CloudEvent (List Char))}
    {event : PreemptionEvent}
    (hr : Machine.run (awsStep float strftime fromisoformat ttl) p (.begin t :: ls) = some p')
    (hf : p'.clients t = .finished (.ok (some event))) :
    ∃ bs q, bs <+: .begin t :: ls ∧ Machine.run (awsStep float strftime fromisoformat ttl) p bs = some q ∧
      q.server.server.awsPreempted = true := by
  by_contra hno
  have hA : Machine.Along (awsStep float strftime fromisoformat ttl) (Pool.Keeps Healthy) p
      (.begin t :: ls) := by
    refine Pool.keeps_of_states (F := fun w : CloudWorld => w.server.awsPreempted = false)
      fun bs q hbs hq => ?_
    by_contra hpre
    exact hno ⟨bs, q, hbs, hq, by simpa using hpre⟩
  exact healthy_check (Pool.course_of_along hA hr hf) rfl

/-- The preemption comes between the attempts. -/
def lateTrigger : List (PoolLabel CloudEvent (List Char)) :=
  [.serve 0 (List.replicate 16 '0'), .receive 0, .serve 0 (List.replicate 16 '0'), .receive 0,
    .env (.trigger ['a', 'w', 's'] .null), .serve 0 (List.replicate 16 '1'), .receive 0]

theorem aws_no_false_alarm_late : ∃ p' event,
    Machine.run simulatedStep { staleWatchdog with server := { epoch := 1790167530 } }
      (.begin 0 :: lateTrigger) = some p' ∧ p'.clients 0 = .finished (.ok (some event)) ∧
      ∃ bs q, bs <+: .begin 0 :: lateTrigger ∧
        Machine.run simulatedStep { staleWatchdog with server := { epoch := 1790167530 } } bs = some q ∧
        q.server.server.awsPreempted = true := by
  obtain ⟨p', hr⟩ := Option.isSome_iff_exists.mp
    (by decide +kernel :
      (Machine.run simulatedStep { staleWatchdog with server := { epoch := 1790167530 } }
        (.begin 0 :: lateTrigger)).isSome = true)
  have hend : (Machine.run simulatedStep { staleWatchdog with server := { epoch := 1790167530 } }
      (.begin 0 :: lateTrigger)).map (fun p' => (p'.clients 0).result?) =
        some (some (.ok (some { provider := "aws", deadlineSeconds := 120 }))) := by
    decide +kernel
  rw [hr, Option.map_some, Option.some.injEq] at hend
  exact ⟨p', _, hr, Client.of_result? hend, aws_no_false_alarm hr (Client.of_result? hend)⟩

end

end Sgm
