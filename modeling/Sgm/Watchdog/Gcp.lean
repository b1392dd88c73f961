/-
# The GCP and RunPod watchdogs against the simulator

`daemon/watchdog/gcp.py`: a check probes the flag of preemption, once more
after a request that failed, and then the maintenance event, where a failure
counts as no event. `daemon/watchdog/runpod.py`: a check looks for the trigger
file and then asks once. The sleep before the retry is not modelled, since a
request may be served at any later time.

Key definitions: `GCPPreemptionWatchdog.checkOnce`, `RunPodPreemptionWatchdog.probe`.
Key theorems: `gcp_detects`, `gcp_no_false_alarm`, `runpod_check`.
-/
import Sgm.Watchdog.Aws
import Sgm.Watchdog.Runpod

namespace Sgm

/-- `upper` of a text, as far as it can give the words that it is compared
with: four characters have letters of these as their capitals. -/
def upper (s : List Char) : List Char :=
  s.flatMap fun c =>
    if c = 'ı' then ['I'] else if c = 'ſ' then ['S'] else if c = 'ﬅ' ∨ c = 'ﬆ' then ['S', 'T']
    else [c.toUpper]

namespace GCPPreemptionWatchdog

abbrev CheckResult := Except Exc (Option PreemptionEvent)

abbrev Check := Dialogue MetadataRequest HttpResponse CloudView Unit CheckResult

/-- An `aiohttp.ClientError` or an `asyncio.TimeoutError`. -/
def requestError : Exc := .exception "GCP metadata request error"

def googleFlavor : Option (List Char) := some "Google".toList

def terminate : PreemptionEvent :=
  { provider := "gcp", action := "terminate", deadlineSeconds := 30 }

/-- The response tells of what is asked for. -/
def tells (resp : HttpResponse) (word : List Char) : Bool :=
  resp.status = 200 && upper (Text.strip resp.text) = word

def maintenance : Check :=
  .ask (.gcpMaintenance googleFlavor) (fun _ _ l => l) fun reply _ _ =>
    match reply with
    | some resp =>
      if tells resp "TERMINATE_ON_HOST_MAINTENANCE".toList then .done (.ok (some terminate))
      else .done (.ok none)
    | none => .done (.ok none)

/-- A request for the flag; `failed` is what follows if it fails. -/
def askPreempted (failed : Check) : Check :=
  .ask (.gcpPreempted googleFlavor) (fun _ _ l => l) fun reply _ _ =>
    match reply with
    | some resp =>
      if tells resp "TRUE".toList then .done (.ok (some terminate)) else maintenance
    | none => failed

def checkOnce (_ : CloudView) (_ : Unit) : Check :=
  askPreempted (askPreempted (.done (.error requestError)))

end GCPPreemptionWatchdog

section
variable {float : Json → Except Exc PyFloat} {strftime : ℚ → List Char}
  {P : CloudWorld → CloudMove → CloudWorld → Prop} {n : ℕ} {w : CloudWorld}

open GCPPreemptionWatchdog

/-! ### Courses of a check -/

abbrev GcpCourse (float : Json → Except Exc PyFloat) (strftime : ℚ → List Char)
    (P : CloudWorld → CloudMove → CloudWorld → Prop) (n : ℕ) :
    CloudWorld → GCPPreemptionWatchdog.Check → GCPPreemptionWatchdog.CheckResult → Prop :=
  Course (cloudServer float strftime) P (fun _ _ => True) n

/-- The flag, as the response tells of it. -/
theorem tells_preempted (s : CloudMetadataServer) :
    tells (s.handleGcpPreempted googleFlavor) "TRUE".toList = s.gcpPreempted := by
  cases h : s.gcpPreempted <;> simp [CloudMetadataServer.handleGcpPreempted, h] <;> decide +kernel

/-- Maintenance terminates the node. -/
def MaintenanceTerminates (s : CloudMetadataServer) : Prop :=
  upper (Text.strip s.gcpMaintenanceEvent) = "TERMINATE_ON_HOST_MAINTENANCE".toList

theorem tells_maintenance (s : CloudMetadataServer)
    (h : tells (s.handleGcpMaintenance googleFlavor) "TERMINATE_ON_HOST_MAINTENANCE".toList = true) :
    s.gcpPreempted = true ∨ MaintenanceTerminates s := by
  cases hp : s.gcpPreempted with
  | true => exact .inl rfl
  | false =>
    right
    unfold MaintenanceTerminates
    simpa [tells, CloudMetadataServer.handleGcpMaintenance, CloudMetadataServer.gcpAnswer,
      googleFlavor, hp, HttpResponse.text] using h

/-- A request that changes nothing is answered from the state it finds. -/
theorem served_gcpPreempted {w w' : CloudWorld} {flavor : Option (List Char)} {hex : List Char}
    {resp : HttpResponse}
    (h : (cloudServer float strftime).serve w (.gcpPreempted flavor) hex = some (w', resp)) :
    w' = w ∧ resp = w.server.handleGcpPreempted flavor := by
  simp only [cloudServer, CloudWorld.serve, CloudMetadataServer.serve] at h
  split at h
  · obtain ⟨rfl, rfl⟩ := Prod.mk.inj (Option.some.inj h)
    exact ⟨rfl, rfl⟩
  · cases h

theorem served_gcpMaintenance {w w' : CloudWorld} {flavor : Option (List Char)} {hex : List Char}
    {resp : HttpResponse}
    (h : (cloudServer float strftime).serve w (.gcpMaintenance flavor) hex = some (w', resp)) :
    w' = w ∧ resp = w.server.handleGcpMaintenance flavor := by
  simp only [cloudServer, CloudWorld.serve, CloudMetadataServer.serve] at h
  split at h
  · obtain ⟨rfl, rfl⟩ := Prod.mk.inj (Option.some.inj h)
    exact ⟨rfl, rfl⟩
  · cases h

/-- A request for the flag is answered, or fails. -/
theorem course_preempted {failed : GCPPreemptionWatchdog.Check} {a : GCPPreemptionWatchdog.CheckResult}
    (h : GcpCourse float strftime P n w (askPreempted failed) a) :
    (∃ w₁ w₂ hex, Moves (cloudServer float strftime) P w w₁ ∧
      P w₁ (.serve (.gcpPreempted googleFlavor) hex) w₁ ∧
      Moves (cloudServer float strftime) P w₁ w₂ ∧
      GcpCourse float strftime P n w₂
        (if w₁.server.gcpPreempted then .done (.ok (some terminate)) else maintenance) a) ∨
    ∃ k w₁, n = k + 1 ∧ Moves (cloudServer float strftime) P w w₁ ∧
      GcpCourse float strftime P k w₁ failed a := by
  cases h with
  | reply before served move after known rest =>
    obtain ⟨rfl, rfl⟩ := served_gcpPreempted served
    dsimp only at rest
    rw [tells_preempted] at rest
    exact .inl ⟨_, _, _, before, move, after, rest⟩
  | fail before known rest => exact .inr ⟨_, _, rfl, before, rest⟩

theorem course_maintenance {a : GCPPreemptionWatchdog.CheckResult}
    (h : GcpCourse float strftime P n w maintenance a) :
    a = .ok none ∨ a = .ok (some terminate) ∧ ∃ w₁ hex,
      P w₁ (.serve (.gcpMaintenance googleFlavor) hex) w₁ ∧
      (w₁.server.gcpPreempted = true ∨ MaintenanceTerminates w₁.server) := by
  cases h with
  | reply before served move after known rest =>
    obtain ⟨rfl, rfl⟩ := served_gcpMaintenance served
    dsimp only at rest
    split at rest
    · rename_i htells
      cases rest
      exact .inr ⟨rfl, _, _, move, tells_maintenance _ htells⟩
    · cases rest
      exact .inl rfl
  | fail before known rest =>
    cases rest
    exact .inl rfl

/-- A check of a preempted node returns an event unless both requests fail. -/
theorem gcp_check_detects (hP : ∀ w m w', P w m w' → NoReset m) (hw : w.server.gcpPreempted = true)
    {view : CloudView} {a : GCPPreemptionWatchdog.CheckResult}
    (h : GcpCourse float strftime P n w (GCPPreemptionWatchdog.checkOnce view ()) a) :
    n < 2 ∧ a = .ok (some terminate) ∨ n = 2 ∧ a = .error GCPPreemptionWatchdog.requestError := by
  have hstays {w w' : CloudWorld} (hm : Moves (cloudServer float strftime) P w w')
      (hw : w.server.gcpPreempted = true) : w'.server.gcpPreempted = true :=
    (moves_stay hP hm).gcp hw
  rcases course_preempted h with ⟨w₁, w₂, hex, hm, -, -, hc⟩ | ⟨k, w₁, rfl, hm, hc⟩
  · rw [hstays hm hw] at hc
    cases hc
    exact .inl ⟨by omega, rfl⟩
  · rcases course_preempted hc with ⟨w₂, w₃, hex, hm', -, -, hc⟩ | ⟨k', w₂, rfl, -, hc⟩
    · rw [hstays hm' (hstays hm hw)] at hc
      cases hc
      exact .inl ⟨by omega, rfl⟩
    · cases hc
      exact .inr ⟨rfl, rfl⟩

/-- The node is to go. -/
def GcpGoing (w : CloudWorld) : Prop :=
  w.server.gcpPreempted = true ∨ MaintenanceTerminates w.server

theorem gcp_check_healthy {view : CloudView} {a : GCPPreemptionWatchdog.CheckResult}
    (h : GcpCourse float strftime (fun w _ w' => ¬ GcpGoing w ∧ ¬ GcpGoing w') n w
      (GCPPreemptionWatchdog.checkOnce view ()) a) {event : PreemptionEvent} :
    a ≠ .ok (some event) := by
  have hmaintenance {n : ℕ} {w : CloudWorld} (h : GcpCourse float strftime
      (fun w _ w' => ¬ GcpGoing w ∧ ¬ GcpGoing w') n w maintenance a) : a ≠ .ok (some event) := by
    rcases course_maintenance h with rfl | ⟨-, w₁, hex, hp, hgo⟩
    · simp
    · exact absurd hgo hp.1
  have hanswered {n : ℕ} {w₁ w₂ : CloudWorld} (hw : ¬ GcpGoing w₁) (h : GcpCourse float strftime
      (fun w _ w' => ¬ GcpGoing w ∧ ¬ GcpGoing w') n w₂
      (if w₁.server.gcpPreempted then .done (.ok (some terminate)) else maintenance) a) :
      a ≠ .ok (some event) := by
    rw [if_neg fun hp => hw (.inl hp)] at h
    exact hmaintenance h
  rcases course_preempted h with ⟨w₁, w₂, hex, -, hp, -, hc⟩ | ⟨k, w₁, -, -, hc⟩
  · exact hanswered hp.1 hc
  · rcases course_preempted hc with ⟨w₂, w₃, hex, -, hp, -, hc⟩ | ⟨k', w₂, -, -, hc⟩
    · exact hanswered hp.1 hc
    · cases hc
      simp

/-! ### Runs -/

abbrev GcpPool :=
  Pool CloudWorld MetadataRequest HttpResponse CloudView Unit GCPPreemptionWatchdog.CheckResult

abbrev gcpStep (float : Json → Except Exc PyFloat) (strftime : ℚ → List Char) :
    GcpPool → PoolLabel CloudEvent (List Char) → Option GcpPool :=
  Pool.step (cloudServer float strftime) GCPPreemptionWatchdog.checkOnce

theorem asks_gcp (view : CloudView) (l : Unit) :
    (GCPPreemptionWatchdog.checkOnce view l).Asks (· ≠ .chaosReset) := by
  have hmaintenance : maintenance.Asks (· ≠ .chaosReset) := by
    refine ⟨by simp, fun r _ _ => ?_⟩
    cases r with
    | none => trivial
    | some resp => dsimp only; split <;> trivial
  have hpreempted {failed : GCPPreemptionWatchdog.Check} (hf : failed.Asks (· ≠ .chaosReset)) :
      (askPreempted failed).Asks (· ≠ .chaosReset) := by
    refine ⟨by simp, fun r _ _ => ?_⟩
    cases r with
    | none => exact hf
    | some resp =>
      dsimp only
      split
      · trivial
      · exact hmaintenance
  exact hpreempted (hpreempted trivial)

/-- **One lost request hides no preemption.** From any state that a watchdog
and a simulator reach, a check that begins when the node is preempted, and in
which the simulator is not reset, returns an event if fewer than two of its
requests fail, and raises otherwise. -/
theorem gcp_detects {p₀ p p' : GcpPool} {t : ℕ} {ls₀ ls : List (PoolLabel CloudEvent (List Char))}
    {a : GCPPreemptionWatchdog.CheckResult} (h₀ : ∀ t, p₀.clients t = .idle)
    (hr₀ : Machine.run (gcpStep float strftime) p₀ ls₀ = some p)
    (hr : Machine.run (gcpStep float strftime) p (.begin t :: ls) = some p')
    (hf : p'.clients t = .finished a) (hp : p.server.server.gcpPreempted = true)
    (hreset : ∀ l ∈ ls, ¬ ResetLabel l) :
    ls.countP (·.fails t) < 2 ∧ a = .ok (some terminate) ∨
      ls.countP (·.fails t) = 2 ∧ a = .error GCPPreemptionWatchdog.requestError := by
  have hkeeps := noReset_of_labels asks_gcp h₀ hr₀
    (show ∀ l ∈ .begin t :: ls, ¬ ResetLabel l by simpa [ResetLabel] using hreset)
  exact gcp_check_detects (fun _ _ _ h => h) hp (Pool.course_of_along hkeeps hr hf)

/-- No false alarm: where a check returns an event, the node was preempted, or
its maintenance due to terminate it, at some moment of the check. -/
theorem gcp_no_false_alarm {p p' : GcpPool} {t : ℕ} {ls : List (PoolLabel CloudEvent (List Char))}
    {event : PreemptionEvent} (hr : Machine.run (gcpStep float strftime) p (.begin t :: ls) = some p')
    (hf : p'.clients t = .finished (.ok (some event))) :
    ∃ bs q, bs <+: .begin t :: ls ∧ Machine.run (gcpStep float strftime) p bs = some q ∧
      GcpGoing q.server := by
  by_contra hno
  have hA : Machine.Along (gcpStep float strftime)
      (Pool.Keeps fun w _ w' => ¬ GcpGoing w ∧ ¬ GcpGoing w') p (.begin t :: ls) :=
    Pool.keeps_of_states fun bs q hbs hq hgo => hno ⟨bs, q, hbs, hq, hgo⟩
  exact gcp_check_healthy (Pool.course_of_along hA hr hf) rfl

/-- A node that is preempted, and a check whose first request is lost. -/
def preemptedPool : GcpPool where
  server := { server := { gcpPreempted := true } }
  shared := ()
  clients _ := .idle

def lostRequest : List (PoolLabel CloudEvent (List Char)) :=
  [.fail 0, .serve 0 (List.replicate 16 '0'), .receive 0]

theorem gcp_detects_after_loss : ∃ p',
    Machine.run (gcpStep floatOfInt fun _ => []) preemptedPool (.begin 0 :: lostRequest) = some p' ∧
      p'.clients 0 = .finished (.ok (some terminate)) ∧
      (lostRequest.countP (·.fails 0) < 2 ∧
          (.ok (some terminate) : GCPPreemptionWatchdog.CheckResult) = .ok (some terminate) ∨
        lostRequest.countP (·.fails 0) = 2 ∧
          (.ok (some terminate) : GCPPreemptionWatchdog.CheckResult) =
            .error GCPPreemptionWatchdog.requestError) := by
  obtain ⟨p', hr⟩ := Option.isSome_iff_exists.mp
    (by decide +kernel : (Machine.run (gcpStep floatOfInt fun _ => []) preemptedPool
      (.begin 0 :: lostRequest)).isSome = true)
  have hend : (Machine.run (gcpStep floatOfInt fun _ => []) preemptedPool
      (.begin 0 :: lostRequest)).map (fun p' => (p'.clients 0).result?) =
        some (some (.ok (some terminate))) := by
    decide +kernel
  rw [hr, Option.map_some, Option.some.injEq] at hend
  exact ⟨p', hr, Client.of_result? hend, gcp_detects (fun _ => rfl) (Machine.run_nil _ _) hr
    (Client.of_result? hend) rfl (by simp [lostRequest, ResetLabel])⟩

end

/-! ### RunPod -/

namespace RunPodPreemptionWatchdog

/-- What the check makes of a reply; a body of another type is an
`aiohttp.ClientError`. -/
def statusReply : Option HttpResponse → StatusReply
  | none => .unreachable
  | some resp =>
    if resp.status = 200 then
      match resp.json with
      | .ok data => .response 200 data
      | .error _ => .unreachable
    else .response resp.status .null

/-- `check_once` as a client of the status endpoint: it asks if no trigger file
is there. -/
def probe (float : Json → Except Exc ℚ) (statusUrl : String) (view : CloudView) (_ : Unit) :
    Dialogue MetadataRequest HttpResponse CloudView Unit (Except Exc (Option PreemptionEvent)) :=
  if view.triggerFile ∨ statusUrl = "" then
    .done (checkOnce float statusUrl { triggerFile := view.triggerFile, status := .unreachable })
  else .ask .runpodPreempt (fun _ _ l => l) fun reply _ _ =>
    .done (checkOnce float statusUrl { triggerFile := false, status := statusReply reply })

end RunPodPreemptionWatchdog

section
variable {float : Json → Except Exc PyFloat} {graceFloat : Json → Except Exc ℚ} {strftime : ℚ → List Char}
  {P : CloudWorld → CloudMove → CloudWorld → Prop} {n : ℕ} {w : CloudWorld}

open RunPodPreemptionWatchdog

/-- What a state of the simulator has to say; `float` is the watchdog's, of the
notice that it is sent. -/
def runpodAnswer (float : Json → Except Exc ℚ) (s : CloudMetadataServer) :
    Except Exc (Option PreemptionEvent) :=
  if s.runpodPreempted then
    (float (.float s.runpodNoticeSeconds)).map fun seconds =>
      some { provider := "runpod", action := "terminate", deadlineSeconds := seconds }
  else .ok none

/-- The notice arrives as it was given. -/
theorem checkOnce_handleRunpodPreempt (s : CloudMetadataServer) {statusUrl : String}
    (hurl : statusUrl ≠ "") : checkOnce graceFloat statusUrl
      { triggerFile := false, status := statusReply (some s.handleRunpodPreempt) } =
        runpodAnswer graceFloat s := by
  have hkeys : "preempted".toList ≠ "grace_period_seconds".toList := by decide
  cases hp : s.runpodPreempted with
  | true =>
    simp only [checkOnce, statusReply, CloudMetadataServer.handleRunpodPreempt, hp, HttpResponse.json,
      runpodAnswer, if_true, Bool.false_eq_true, if_false, hurl]
    simp only [Json.field?, gracePeriod, List.find?_cons, decide_true, Option.map_some, hkeys,
      decide_false, Option.getD_some]
  | false =>
    simp only [checkOnce, statusReply, CloudMetadataServer.handleRunpodPreempt, hp, HttpResponse.json,
      runpodAnswer, if_true, Bool.false_eq_true, if_false, hurl]
    simp only [Json.field?, List.find?_cons, decide_true, Option.map_some]

theorem served_runpodPreempt {w w' : CloudWorld} {hex : List Char} {resp : HttpResponse}
    (h : (cloudServer float strftime).serve w .runpodPreempt hex = some (w', resp)) :
    w' = w ∧ resp = w.server.handleRunpodPreempt := by
  simp only [cloudServer, CloudWorld.serve, CloudMetadataServer.serve] at h
  split at h
  · obtain ⟨rfl, rfl⟩ := Prod.mk.inj (Option.some.inj h)
    exact ⟨rfl, rfl⟩
  · cases h

/-- A check without a trigger file finds what the simulator has to say at some
moment of it, or nothing if its request fails. -/
theorem runpod_check {statusUrl : String} (hurl : statusUrl ≠ "")
    {p p' : Pool CloudWorld MetadataRequest HttpResponse CloudView Unit (Except Exc (Option PreemptionEvent))}
    {t : ℕ} {ls : List (PoolLabel CloudEvent (List Char))} {a : Except Exc (Option PreemptionEvent)}
    (hr : Machine.run (Pool.step (cloudServer float strftime) (probe graceFloat statusUrl)) p
      (.begin t :: ls) = some p') (hf : p'.clients t = .finished a) (hfile : p.server.triggerFile = false) :
    if ls.countP (·.fails t) = 0 then
      ∃ bs q, bs <+: .begin t :: ls ∧
        Machine.run (Pool.step (cloudServer float strftime) (probe graceFloat statusUrl)) p bs = some q ∧
        a = runpodAnswer graceFloat q.server.server
    else a = .ok none := by
  have hprobe : probe graceFloat statusUrl ((cloudServer float strftime).view p.server) p.shared =
      .ask .runpodPreempt (fun _ _ l => l) fun reply _ _ =>
        .done (checkOnce graceFloat statusUrl { triggerFile := false, status := statusReply reply }) := by
    unfold probe
    rw [if_neg]
    simp [cloudServer, hfile, hurl]
  split
  · rename_i hn
    by_contra hno
    have hA : Machine.Along (Pool.step (cloudServer float strftime) (probe graceFloat statusUrl))
        (Pool.Keeps fun w _ w' => a ≠ runpodAnswer graceFloat w.server ∧ a ≠ runpodAnswer graceFloat w'.server) p
        (.begin t :: ls) :=
      Pool.keeps_of_states (F := fun w : CloudWorld => a ≠ runpodAnswer graceFloat w.server)
        fun bs q hbs hq ha => hno ⟨bs, q, hbs, hq, ha⟩
    have hc := Pool.course_of_along hA hr hf
    rw [hn, hprobe] at hc
    cases hc with
    | reply before served move after known rest =>
      obtain ⟨rfl, rfl⟩ := served_runpodPreempt served
      dsimp only at rest
      rw [checkOnce_handleRunpodPreempt _ hurl] at rest
      cases rest
      exact move.1 rfl
  · rename_i hn
    have hA : Machine.Along (Pool.step (cloudServer float strftime) (probe graceFloat statusUrl))
        (Pool.Keeps fun _ _ _ => True) p (.begin t :: ls) := .of_forall (fun _ _ _ _ => .trivial) _ _
    have hc := Pool.course_of_along hA hr hf
    rw [hprobe] at hc
    generalize ls.countP (·.fails t) = n at hc hn
    cases hc with
    | reply before served move after known rest =>
      cases rest
      exact absurd rfl hn
    | fail before known rest =>
      cases rest
      simp [checkOnce, statusReply, hurl]

end

end Sgm
