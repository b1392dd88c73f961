/-
# The RunPod preemption watchdog

`daemon/watchdog/base.py` and `daemon/watchdog/runpod.py`. Two channels tell of
a preemption: the polling loop, which tests the flag `_preemption_detected`
before it notifies the callbacks in a task of its own, and the webhook, which
only sets the flag and notifies them at once. Tasks interleave at `await`, so a
step is what one of them does up to the next. The lengths of the sleeps are not
modelled: a loop that sleeps may wake at any time.

So a callback fires exactly once in the runs where no webhook comes once it has
been notified, or is refused before (`Orderly`).

Key definitions: `RunPodPreemptionWatchdog`, `checkOnce`, `pollResult`,
`handleWebhookPayload`, `RunPodPreemptionWatchdog.step`, `Orderly`.
Key theorems: `Stepped.of_eq`, `callbacks_fire_once`, `pollLoop_goes_on`.
-/
import Sgm.Lib.Json
import Sgm.Lib.Machine
import Sgm.Models

namespace Sgm

/-! ### The watchdog -/

/-- Where a task of `_poll_loop` is suspended. -/
inductive PollPoint
  | absent
  /-- made by `start`, not run yet -/
  | created
  /-- in `await self.check_once()` -/
  | checking
  /-- in `await asyncio.sleep(sleep_time)` -/
  | sleeping
  | ended
  deriving DecidableEq

structure PollTask where
  point : PollPoint := .absent
  cancelRequested : Bool := false

/-- The watchdog, with the tasks it has made. A callback is named by its place
in the list of callbacks. -/
structure RunPodPreemptionWatchdog where
  statusUrl : String := "http://127.0.0.1:18000/runpod/preempt"
  /-- How many callbacks are registered. -/
  callbacks : ℕ := 0
  running : Bool := false
  task : Option ℕ := none
  preemptionDetected : Bool := false
  tasks : ℕ → PollTask := fun _ => {}
  /-- The polling tasks awaited by calls of `stop`. -/
  stopping : List ℕ := []
  /-- The tasks of `notify_callbacks` that have not run yet. -/
  notifying : List PreemptionEvent := []
  /-- The calls of callbacks so far. -/
  invoked : List (ℕ × PreemptionEvent) := []

/-- What a probe of the status endpoint brings. -/
inductive StatusReply
  /-- an `aiohttp.ClientError` or an `asyncio.TimeoutError` -/
  | unreachable
  /-- any other exception, as of a body that is no JSON -/
  | raised (e : Exc)
  | response (status : ℕ) (data : Json)

/-- What `check_once` finds: whether the trigger file exists, and the reply of
the status endpoint. -/
structure Probe where
  triggerFile : Bool
  status : StatusReply

namespace RunPodPreemptionWatchdog

/-! `float` is Python's: the conversion of a value to a floating-point number. -/
section
variable (float : Json → Except Exc ℚ)

/-- `float(data.get("grace_period_seconds", 30))`, as the deadline of an event. -/
def gracePeriod (data : List (List Char × Json)) : Except Exc ℚ :=
  float ((Json.field? data "grace_period_seconds".toList).getD (.int 30))

def checkOnce (statusUrl : String) (probe : Probe) : Except Exc (Option PreemptionEvent) :=
  if probe.triggerFile then
    .ok (some { provider := "runpod", action := "terminate", deadlineSeconds := 30 })
  else if statusUrl = "" then .ok none
  else match probe.status with
    | .unreachable => .ok none
    | .raised e => .error e
    | .response status data =>
      if status = 200 then
        match data with
        | .obj fields =>
          match Json.field? fields "preempted".toList with
          | some (.bool true) => (gracePeriod float fields).map fun seconds =>
            some { provider := "runpod", action := "terminate", deadlineSeconds := seconds }
          | _ => .ok none
        | _ => .error (.exception "object has no attribute 'get'")
      else .ok none

end

variable (w : RunPodPreemptionWatchdog)

/-- `gather` calls every callback; what one raises changes nothing. -/
def notifyCallbacks (event : PreemptionEvent) : RunPodPreemptionWatchdog :=
  if w.callbacks = 0 then w
  else { w with invoked := w.invoked ++ (List.range w.callbacks).map (·, event) }

def setPoint (t : ℕ) (point : PollPoint) : RunPodPreemptionWatchdog :=
  { w with tasks := Function.update w.tasks t { point := point } }

@[simp] theorem setPoint_self (t : ℕ) (p : PollPoint) :
    (w.setPoint t p).tasks t = { point := p } := Function.update_self ..

@[simp] theorem setPoint_of_ne {t t' : ℕ} (h : t' ≠ t) (p : PollPoint) :
    (w.setPoint t p).tasks t' = w.tasks t' := Function.update_of_ne h ..

def registerCallback : RunPodPreemptionWatchdog := { w with callbacks := w.callbacks + 1 }

/-- `start`; the new task is `t`. -/
def start (t : ℕ) : Option RunPodPreemptionWatchdog :=
  if w.running then some w
  else if (w.tasks t).point = .absent then
    some (setPoint { w with running := true, task := some t } t .created)
  else none

/-- `stop` up to the `await` of the cancelled task, if there is one. -/
def stop : RunPodPreemptionWatchdog :=
  match w.task with
  | none => { w with running := false }
  | some t =>
    if (w.tasks t).point = .ended then { w with running := false, task := none }
    else { w with
      running := false
      tasks := Function.update w.tasks t { w.tasks t with cancelRequested := true }
      stopping := w.stopping ++ [t] }

/-- The body of the polling loop after `check_once`. -/
def pollResult (t : ℕ) : Except Exc (Option PreemptionEvent) → RunPodPreemptionWatchdog
  | .ok (some event) =>
    if w.preemptionDetected then w.setPoint t .sleeping
    else setPoint { w with preemptionDetected := true, notifying := w.notifying ++ [event] } t .ended
  | .ok none => w.setPoint t .sleeping
  -- exponential backoff
  | .error _ => w.setPoint t .sleeping

/-- A failed conversion leaves the watchdog as it was. -/
def handleWebhookPayload (float : Json → Except Exc ℚ) (payload : List (List Char × Json)) :
    RunPodPreemptionWatchdog × Except Exc PreemptionEvent :=
  match gracePeriod float payload with
  | .error e => (w, .error e)
  | .ok seconds =>
    let event : PreemptionEvent :=
      { provider := "runpod", action := "terminate", deadlineSeconds := seconds }
    (notifyCallbacks { w with preemptionDetected := true } event, .ok event)

end RunPodPreemptionWatchdog

inductive WatchdogLabel
  | registerCallback
  | start (t : ℕ)
  | stop
  /-- a `stop` goes on after polling task `t` has ended -/
  | stopped (t : ℕ)
  /-- polling task `t` comes to the head of its loop -/
  | wake (t : ℕ)
  /-- `check_once` of polling task `t` returns or raises -/
  | checked (t : ℕ) (probe : Probe)
  /-- a `CancelledError` in polling task `t` -/
  | cancelled (t : ℕ)
  /-- a task of `notify_callbacks` runs -/
  | notify
  | webhook (payload : List (List Char × Json))

namespace RunPodPreemptionWatchdog

def step (float : Json → Except Exc ℚ) (w : RunPodPreemptionWatchdog) :
    WatchdogLabel → Option RunPodPreemptionWatchdog
  | .registerCallback => some w.registerCallback
  | .start t => w.start t
  | .stop => some w.stop
  | .stopped t =>
    if t ∈ w.stopping ∧ (w.tasks t).point = .ended then
      some { w with task := none, stopping := w.stopping.erase t }
    else none
  | .wake t =>
    if ((w.tasks t).point = .created ∨ (w.tasks t).point = .sleeping) ∧
        (w.tasks t).cancelRequested = false then
      some (w.setPoint t (if w.running then .checking else .ended))
    else none
  -- also after `cancel`: a timeout of the probe may swallow the cancellation
  | .checked t probe =>
    if (w.tasks t).point = .checking then
      some (w.pollResult t (checkOnce float w.statusUrl probe))
    else none
  | .cancelled t =>
    if (w.tasks t).cancelRequested = true ∧ (w.tasks t).point ≠ .ended then
      some (w.setPoint t .ended)
    else none
  | .notify =>
    match w.notifying with
    | [] => none
    | event :: rest => some (notifyCallbacks { w with notifying := rest } event)
  | .webhook payload => some (w.handleWebhookPayload float payload).1

/-! ### What a step does to the callbacks -/

/-- How often callback `k` has been invoked. -/
def invocations (w : RunPodPreemptionWatchdog) (k : ℕ) : ℕ := w.invoked.countP (·.1 = k)

/-- Callback `k` has been invoked, or a task that will invoke it has been made. -/
def Due (k : ℕ) (w : RunPodPreemptionWatchdog) : Prop := 1 ≤ w.invocations k ∨ w.notifying ≠ []

theorem countP_range (n k : ℕ) (e : PreemptionEvent) :
    ((List.range n).map (·, e)).countP (·.1 = k) = if k < n then 1 else 0 := by
  rw [List.countP_map]
  calc (List.range n).countP _ = (List.range n).count k := by rw [List.count_eq_countP]; rfl
    _ = if k < n then 1 else 0 := by
        split
        · rename_i hk
          exact List.count_eq_one_of_mem List.nodup_range (List.mem_range.mpr hk)
        · rename_i hk
          exact List.count_eq_zero.mpr fun h => hk (List.mem_range.mp h)

/-- `notify_callbacks` invokes each registered callback once. -/
theorem invocations_notifyCallbacks (w : RunPodPreemptionWatchdog) (e : PreemptionEvent) (k : ℕ) :
    (w.notifyCallbacks e).invocations k = w.invocations k + if k < w.callbacks then 1 else 0 := by
  unfold notifyCallbacks
  split
  · rename_i h
    simp [h]
  · show (w.invoked ++ _).countP _ = _
    rw [List.countP_append, countP_range]
    rfl

section
variable {float : Json → Except Exc ℚ} {w w' : RunPodPreemptionWatchdog} {l : WatchdogLabel} {k : ℕ}

/-- Neither a flag is set nor a callback notified. -/
structure Quiet (w w' : RunPodPreemptionWatchdog) : Prop where
  callbacks : w.callbacks ≤ w'.callbacks
  detected : w'.preemptionDetected = w.preemptionDetected
  notifying : w'.notifying = w.notifying
  invoked : w'.invoked = w.invoked

/-- A notice of preemption: a webhook, or a poll that returns an event. -/
def Notice (float : Json → Except Exc ℚ) (w : RunPodPreemptionWatchdog) : WatchdogLabel → Prop
  | .webhook _ => True
  | .checked _ probe => ∃ event, checkOnce float w.statusUrl probe = .ok (some event)
  | _ => False

/-- The steps by what they do to the callbacks. -/
inductive Stepped (float : Json → Except Exc ℚ) (w w' : RunPodPreemptionWatchdog) :
    WatchdogLabel → Prop
  | quiet (l : WatchdogLabel) (hl : ¬ Notice float w l) (hq : Quiet w w') : Stepped float w w' l
  /-- a poll returns an event that is not the first notice -/
  | ignored (t : ℕ) (probe : Probe) (hd : w.preemptionDetected = true) (hq : Quiet w w') :
    Stepped float w w' (.checked t probe)
  | detected (t : ℕ) (probe : Probe) (event : PreemptionEvent) (hd : w.preemptionDetected = false)
    (hc : w'.callbacks = w.callbacks) (hd' : w'.preemptionDetected = true)
    (hn : w'.notifying = w.notifying ++ [event]) (hi : w'.invoked = w.invoked) :
    Stepped float w w' (.checked t probe)
  | notified (event : PreemptionEvent) (rest : List PreemptionEvent)
    (hn : w.notifying = event :: rest) (hw : w' = notifyCallbacks { w with notifying := rest } event) :
    Stepped float w w' .notify
  | rejected (payload : List (List Char × Json)) (e : Exc) (hf : gracePeriod float payload = .error e)
    (hw : w' = w) : Stepped float w w' (.webhook payload)
  | accepted (payload : List (List Char × Json)) (seconds : ℚ)
    (hf : gracePeriod float payload = .ok seconds)
    (hw : w' = notifyCallbacks { w with preemptionDetected := true }
      { provider := "runpod", action := "terminate", deadlineSeconds := seconds }) :
    Stepped float w w' (.webhook payload)

theorem Quiet.setPoint (w : RunPodPreemptionWatchdog) (t : ℕ) (p : PollPoint) :
    Quiet w (w.setPoint t p) := ⟨le_rfl, rfl, rfl, rfl⟩

/-- The first event that is polled ends the loop; it goes on after anything else. -/
theorem pollResult_cases (w : RunPodPreemptionWatchdog) (t : ℕ)
    (r : Except Exc (Option PreemptionEvent)) :
    (∃ event, r = .ok (some event) ∧ w.preemptionDetected = false ∧
      w.pollResult t r = setPoint
        { w with preemptionDetected := true, notifying := w.notifying ++ [event] } t .ended) ∨
    ((∀ event, r = .ok (some event) → w.preemptionDetected = true) ∧
      w.pollResult t r = w.setPoint t .sleeping) := by
  rcases r with e | _ | event
  · refine Or.inr ⟨fun event he => ?_, rfl⟩
    cases he
  · refine Or.inr ⟨fun event he => ?_, rfl⟩
    cases he
  · by_cases hd : w.preemptionDetected = true
    · exact Or.inr ⟨fun _ _ => hd, if_pos hd⟩
    · exact Or.inl ⟨event, rfl, Bool.eq_false_iff.mpr hd, if_neg hd⟩

theorem Stepped.of_eq (h : w.step float l = some w') : Stepped float w w' l := by
  rcases l with _ | t | _ | t | t | ⟨t, probe⟩ | t | _ | payload
  · obtain rfl := Option.some.inj h
    exact .quiet _ id ⟨Nat.le_succ _, rfl, rfl, rfl⟩
  · refine .quiet _ id ?_
    simp only [step, start] at h
    split_ifs at h
    · obtain rfl := Option.some.inj h
      exact ⟨le_rfl, rfl, rfl, rfl⟩
    · obtain rfl := Option.some.inj h
      exact ⟨le_rfl, rfl, rfl, rfl⟩
  · refine .quiet _ id ?_
    obtain rfl := Option.some.inj h
    unfold stop
    split
    · exact ⟨le_rfl, rfl, rfl, rfl⟩
    · split_ifs
      · exact ⟨le_rfl, rfl, rfl, rfl⟩
      · exact ⟨le_rfl, rfl, rfl, rfl⟩
  · refine .quiet _ id ?_
    simp only [step] at h
    split_ifs at h
    obtain rfl := Option.some.inj h
    exact ⟨le_rfl, rfl, rfl, rfl⟩
  · refine .quiet _ id ?_
    simp only [step] at h
    split_ifs at h
    · obtain rfl := Option.some.inj h
      exact Quiet.setPoint w t _
    · obtain rfl := Option.some.inj h
      exact Quiet.setPoint w t _
  · simp only [step] at h
    split_ifs at h
    obtain rfl := Option.some.inj h
    rcases pollResult_cases w t (checkOnce float w.statusUrl probe) with
      ⟨event, -, hd, he⟩ | ⟨hd, he⟩
    · rw [he]
      exact .detected t probe event hd rfl rfl rfl rfl
    · rw [he]
      by_cases hl : Notice float w (.checked t probe)
      · obtain ⟨event, hcheck⟩ := hl
        exact .ignored t probe (hd event hcheck) (Quiet.setPoint w t _)
      · exact .quiet _ hl (Quiet.setPoint w t _)
  · refine .quiet _ id ?_
    simp only [step] at h
    split_ifs at h
    obtain rfl := Option.some.inj h
    exact Quiet.setPoint w t _
  · simp only [step] at h
    split at h
    · cases h
    · rename_i event rest hn
      obtain rfl := Option.some.inj h
      exact .notified event rest hn rfl
  · obtain rfl := Option.some.inj h
    unfold handleWebhookPayload
    split
    · rename_i e hf
      exact .rejected payload e hf rfl
    · rename_i seconds hf
      exact .accepted payload seconds hf rfl

/-! ### Once -/

/-- What a step has to meet for callback `k`, if it is registered: a webhook
whose grace period is a number comes only while `k` has not been notified, any
other webhook only when it has, and a poll that returns an event finds the flag
set only when it has. -/
def Orderly (float : Json → Except Exc ℚ) (k : ℕ) (w : RunPodPreemptionWatchdog) (l : WatchdogLabel)
    (_ : RunPodPreemptionWatchdog) : Prop :=
  k < w.callbacks → match l with
    | .webhook payload => (∃ seconds, gracePeriod float payload = .ok seconds) ↔ ¬ Due k w
    | .checked _ _ => Notice float w l → w.preemptionDetected = true → Due k w
    | _ => True

/-- Callback `k` and the notification under way account for one invocation. -/
structure Once (k : ℕ) (w : RunPodPreemptionWatchdog) : Prop where
  unnotified : w.preemptionDetected = false → w.notifying = [] ∧ w.invoked = []
  once : w.invocations k + w.notifying.length ≤ 1

theorem once_new (url : String) : Once k { statusUrl := url } := ⟨fun _ => ⟨rfl, rfl⟩, Nat.zero_le _⟩

theorem invocations_zero_of_not_due (h : ¬ Due k w) : w.invocations k = 0 ∧ w.notifying = [] := by
  obtain ⟨hi, hn⟩ := not_or.mp h
  exact ⟨by omega, not_not.mp hn⟩

theorem detected_notifyCallbacks (w : RunPodPreemptionWatchdog) (e : PreemptionEvent) :
    (w.notifyCallbacks e).preemptionDetected = w.preemptionDetected := by
  unfold notifyCallbacks
  split
  · rfl
  · rfl

theorem notifying_notifyCallbacks (w : RunPodPreemptionWatchdog) (e : PreemptionEvent) :
    (w.notifyCallbacks e).notifying = w.notifying := by
  unfold notifyCallbacks
  split
  · rfl
  · rfl

theorem callbacks_notifyCallbacks (w : RunPodPreemptionWatchdog) (e : PreemptionEvent) :
    (w.notifyCallbacks e).callbacks = w.callbacks := by
  unfold notifyCallbacks
  split
  · rfl
  · rfl

theorem Quiet.invocations (h : Quiet w w') : w'.invocations k = w.invocations k := by
  unfold RunPodPreemptionWatchdog.invocations
  rw [h.invoked]

theorem Once.quiet (hw : Once k w) (hq : Quiet w w') : Once k w' where
  unnotified hd := by
    rw [hq.notifying, hq.invoked]
    apply hw.unnotified
    rw [← hq.detected, hd]
  once := by
    rw [hq.notifying, hq.invocations]
    exact hw.once

theorem once_step (hw : Once k w) (h : w.step float l = some w') (ho : Orderly float k w l w') :
    Once k w' := by
  cases Stepped.of_eq h with
  | quiet _ _ hq => exact hw.quiet hq
  | ignored _ _ _ hq => exact hw.quiet hq
  | detected t probe event hd hc hd' hn hi =>
    obtain ⟨hnone, hinv⟩ := hw.unnotified hd
    refine ⟨fun hf => ?_, ?_⟩
    · rw [hd'] at hf
      cases hf
    · rw [hn, hnone]
      unfold RunPodPreemptionWatchdog.invocations
      rw [hi, hinv]
      rfl
  | notified event rest hn hw' =>
    subst hw'
    have hlen := hw.once
    rw [hn, List.length_cons] at hlen
    refine ⟨fun hf => ?_, ?_⟩
    · rw [detected_notifyCallbacks] at hf
      rw [(hw.unnotified hf).1] at hn
      cases hn
    · rw [invocations_notifyCallbacks, notifying_notifyCallbacks]
      show w.invocations k + _ + rest.length ≤ 1
      split
      · omega
      · omega
  | rejected _ _ _ hw' =>
    subst hw'
    exact hw
  | accepted payload seconds hf hw' =>
    subst hw'
    refine ⟨fun hfalse => ?_, ?_⟩
    · rw [detected_notifyCallbacks] at hfalse
      cases hfalse
    · rw [invocations_notifyCallbacks, notifying_notifyCallbacks]
      show w.invocations k + (if k < w.callbacks then 1 else 0) + w.notifying.length ≤ 1
      split
      · rename_i hk
        obtain ⟨hzero, hnone⟩ := invocations_zero_of_not_due ((ho hk).mp ⟨seconds, hf⟩)
        rw [hzero, hnone]
        rfl
      · exact hw.once

theorem due_notifyCallbacks (hk : k < w.callbacks) (e : PreemptionEvent) :
    k < (w.notifyCallbacks e).callbacks ∧ Due k (w.notifyCallbacks e) := by
  refine ⟨by rwa [callbacks_notifyCallbacks], Or.inl ?_⟩
  rw [invocations_notifyCallbacks, if_pos hk]
  exact Nat.le_add_left 1 _

theorem Quiet.due (h : Quiet w w') (hk : k < w.callbacks) (hd : Due k w) :
    k < w'.callbacks ∧ Due k w' := by
  refine ⟨hk.trans_le h.callbacks, ?_⟩
  unfold Due
  rwa [h.invocations, h.notifying]

theorem due_of_created {event : PreemptionEvent} (hk : k < w.callbacks)
    (hc : w'.callbacks = w.callbacks) (hn : w'.notifying = w.notifying ++ [event]) :
    k < w'.callbacks ∧ Due k w' := by
  refine ⟨by rwa [hc], Or.inr ?_⟩
  rw [hn]
  exact List.concat_ne_nil event w.notifying

/-- Once notified, always notified. -/
theorem due_step (hk : k < w.callbacks) (hd : Due k w) (h : w.step float l = some w') :
    k < w'.callbacks ∧ Due k w' := by
  cases Stepped.of_eq h with
  | quiet _ _ hq => exact hq.due hk hd
  | ignored _ _ _ hq => exact hq.due hk hd
  | detected t probe event _ hc _ hn _ => exact due_of_created hk hc hn
  | notified event rest hn hw' =>
    subst hw'
    apply due_notifyCallbacks
    exact hk
  | rejected _ _ _ hw' =>
    subst hw'
    exact ⟨hk, hd⟩
  | accepted payload seconds hf hw' =>
    subst hw'
    apply due_notifyCallbacks
    exact hk

/-- A notice notifies the callbacks that are registered. -/
theorem due_of_notice (hk : k < w.callbacks) (hl : Notice float w l) (h : w.step float l = some w')
    (ho : Orderly float k w l w') : k < w'.callbacks ∧ Due k w' := by
  by_cases hd : Due k w
  · exact due_step hk hd h
  · cases Stepped.of_eq h with
    | quiet _ hnot _ => exact absurd hl hnot
    | ignored t probe hdet _ => exact absurd (ho hk hl hdet) hd
    | detected t probe event _ hc _ hn _ => exact due_of_created hk hc hn
    | notified => exact hl.elim
    | rejected payload e hf _ =>
      obtain ⟨seconds, hs⟩ := (ho hk).mpr hd
      rw [hf] at hs
      cases hs
    | accepted payload seconds hf hw' =>
      subst hw'
      apply due_notifyCallbacks
      exact hk

theorem due_run {ls : List WatchdogLabel} (hk : k < w.callbacks) (hd : Due k w)
    (hr : Machine.run (step float) w ls = some w') : k < w'.callbacks ∧ Due k w' :=
  Machine.run_inv (I := fun w => k < w.callbacks ∧ Due k w) (fun _ _ _ h ht => due_step h.1 h.2 ht)
    ⟨hk, hd⟩ hr

/-- Callback `k` is invoked exactly once, now or when the task that will notify
it runs. -/
theorem fires_of_due (hw : Once k w) (hk : k < w.callbacks) (hd : Due k w) :
    w.invocations k = 1 ∨
      ∃ u, Machine.run (step float) w [.notify] = some u ∧ u.invocations k = 1 := by
  have hlen := hw.once
  rcases hd with hi | hn
  · exact Or.inl (by omega)
  · obtain ⟨event, rest, hn⟩ := List.exists_cons_of_ne_nil hn
    refine Or.inr ⟨notifyCallbacks { w with notifying := rest } event, ?_, ?_⟩
    · simp only [Machine.run_cons, Machine.run_nil, step, hn, Option.bind_some]
    · rw [hn, List.length_cons] at hlen
      rw [invocations_notifyCallbacks, if_pos hk]
      show w.invocations k + 1 = 1
      omega

/-- The callbacks fire once: in every orderly run callback `k` is invoked at
most once, and exactly once as soon as a notice has come since it is registered
and the task that a poll made for it has run. -/
theorem callbacks_fire_once {url : String} {ls : List WatchdogLabel}
    (hr : Machine.run (step float) { statusUrl := url } ls = some w)
    (ho : Machine.Along (step float) (Orderly float k) { statusUrl := url } ls) :
    w.invocations k ≤ 1 ∧
    ∀ pre l post v, ls = pre ++ l :: post →
      Machine.run (step float) { statusUrl := url } pre = some v → k < v.callbacks →
      Notice float v l →
      w.invocations k = 1 ∨
        ∃ u, Machine.run (step float) w [.notify] = some u ∧ u.invocations k = 1 := by
  have hw : Once k w := Machine.run_inv_along (I := Once k)
    (fun _ _ _ hi ht hq => once_step hi ht hq) (once_new url) ho hr
  refine ⟨(Nat.le_add_right _ _).trans hw.once, ?_⟩
  rintro pre l post v rfl hv hk hl
  obtain ⟨v', hv', hpost⟩ := Machine.run_append_eq_some.mp hr
  obtain rfl := Option.some.inj (hv.symm.trans hv')
  obtain ⟨v₁, hstep, hpost⟩ := Machine.run_cons_eq_some.mp hpost
  have hnotice := (ho.append_right hv) v₁ hstep
  obtain ⟨hk₁, hdue⟩ := due_of_notice hk hl hstep hnotice.1
  obtain ⟨hk', hdue'⟩ := due_run hk₁ hdue hpost
  exact fires_of_due hw hk' hdue'

end

/-- `float` on integers. -/
def intFloat : Json → Except Exc ℚ
  | .int n => .ok n
  | _ => .error (.valueError "could not convert to float")

/-- The endpoint fails once, then the trigger file appears. -/
def failedThenPolled : List WatchdogLabel :=
  [.registerCallback, .start 0, .wake 0, .checked 0 ⟨false, .raised (.valueError "no JSON")⟩, .wake 0,
    .checked 0 ⟨true, .unreachable⟩]

theorem callbacks_fire_once_polled :
    ∃ w, Machine.run (step intFloat) { statusUrl := "http://127.0.0.1" } failedThenPolled = some w ∧
      w.invocations 0 ≤ 1 ∧
      (w.invocations 0 = 1 ∨
        ∃ u, Machine.run (step intFloat) w [.notify] = some u ∧ u.invocations 0 = 1) := by
  obtain ⟨v, hv, hk⟩ : ∃ v, Machine.run (step intFloat) { statusUrl := "http://127.0.0.1" }
      (failedThenPolled.take 5) = some v ∧ 0 < v.callbacks := ⟨_, rfl, Nat.one_pos⟩
  obtain ⟨w, hw⟩ : ∃ w, Machine.run (step intFloat) { statusUrl := "http://127.0.0.1" }
      failedThenPolled = some w := ⟨_, rfl⟩
  have horderly : Machine.Along (step intFloat) (Orderly intFloat 0)
      { statusUrl := "http://127.0.0.1" } failedThenPolled := by
    -- only the polls ask for something, and the flag is not set before them
    rintro _ ⟨rfl⟩
    refine ⟨fun _ => trivial, ?_⟩
    rintro _ ⟨rfl⟩
    refine ⟨fun _ => trivial, ?_⟩
    rintro _ ⟨rfl⟩
    refine ⟨fun _ => trivial, ?_⟩
    rintro _ ⟨rfl⟩
    refine ⟨fun _ _ hd => Bool.noConfusion hd, ?_⟩
    rintro _ ⟨rfl⟩
    refine ⟨fun _ => trivial, ?_⟩
    rintro _ ⟨rfl⟩
    exact ⟨fun _ _ hd => Bool.noConfusion hd, trivial⟩
  obtain ⟨hle, hnotice⟩ := callbacks_fire_once hw horderly
  exact ⟨w, hw, hle, hnotice _ (.checked 0 ⟨true, .unreachable⟩) [] v rfl hv hk ⟨_, rfl⟩⟩

/-- Two webhooks invoke a callback twice, and one with a grace period that is no
number not at all. -/
theorem callbacks_not_once :
    (∃ w, Machine.run (step intFloat) {} [.registerCallback, .webhook [], .webhook []] = some w ∧
      ¬ w.invocations 0 ≤ 1) ∧
    ∃ w, Machine.run (step intFloat) {} [.registerCallback,
        .webhook [("grace_period_seconds".toList, .text "soon".toList)]] = some w ∧
      w.invocations 0 = 0 ∧ w.notifying = [] :=
  ⟨⟨_, rfl, by decide⟩, _, rfl, rfl, rfl⟩

section
variable {float : Json → Except Exc ℚ} {w w' : RunPodPreemptionWatchdog} {l : WatchdogLabel}

/-! ### The loop goes on -/

/-- Every loop that has been started runs, and is not cancelled. -/
def Polling (w : RunPodPreemptionWatchdog) : Prop :=
  ∀ t, (w.tasks t).cancelRequested = false ∧
    ((w.tasks t).point ≠ .absent → (w.tasks t).point ≠ .ended ∧ w.running = true)

theorem Polling.setPoint (h : Polling w) (t : ℕ) {p : PollPoint} (hp : p ≠ .ended)
    (hr : w.running = true) : Polling (w.setPoint t p) := by
  intro t'
  by_cases he : t' = t
  · rw [he, setPoint_self]
    exact ⟨rfl, fun _ => ⟨hp, hr⟩⟩
  · rw [setPoint_of_ne w he]
    exact h t'

theorem Polling.congr (h : Polling w) (ht : w'.tasks = w.tasks) (hr : w'.running = w.running) :
    Polling w' := by
  intro t
  rw [ht, hr]
  exact h t

theorem polling_notifyCallbacks (h : Polling w) (e : PreemptionEvent) :
    Polling (w.notifyCallbacks e) := by
  unfold notifyCallbacks
  split
  · exact h
  · exact h.congr rfl rfl

/-- The flag is never cleared. -/
theorem undetected_before (h : w.step float l = some w') (hd : w'.preemptionDetected = false) :
    w.preemptionDetected = false := by
  cases Stepped.of_eq h with
  | quiet _ _ hq => rwa [← hq.detected]
  | ignored _ _ _ hq => rwa [← hq.detected]
  | detected _ _ _ hd₀ _ _ _ _ => exact hd₀
  | notified event rest _ hw =>
    rw [hw, detected_notifyCallbacks] at hd
    exact hd
  | rejected _ _ _ hw => rwa [hw] at hd
  | accepted _ _ _ hw =>
    rw [hw, detected_notifyCallbacks] at hd
    cases hd

theorem polling_step (hw : Polling w) (h : w.step float l = some w') (hl : l ≠ .stop)
    (hd : w'.preemptionDetected = false) : Polling w' := by
  rcases l with _ | t | _ | t | t | ⟨t, probe⟩ | t | _ | payload
  · obtain rfl := Option.some.inj h
    exact hw.congr rfl rfl
  · simp only [step, start] at h
    split_ifs at h
    · obtain rfl := Option.some.inj h
      exact hw
    · obtain rfl := Option.some.inj h
      refine Polling.setPoint (fun t' => ?_) t (by decide) rfl
      exact ⟨(hw t').1, fun ht' => ⟨((hw t').2 ht').1, rfl⟩⟩
  · exact absurd rfl hl
  · simp only [step] at h
    split_ifs at h
    obtain rfl := Option.some.inj h
    exact hw.congr rfl rfl
  · simp only [step] at h
    split_ifs at h with hc hrun
    · obtain rfl := Option.some.inj h
      exact hw.setPoint t (by decide) hrun
    · have hstarted : (w.tasks t).point ≠ .absent := by
        rcases hc.1 with hp | hp
        · rw [hp]
          decide
        · rw [hp]
          decide
      exact absurd ((hw t).2 hstarted).2 hrun
  · simp only [step] at h
    split_ifs at h with hp
    obtain rfl := Option.some.inj h
    rcases pollResult_cases w t (checkOnce float w.statusUrl probe) with ⟨event, -, -, he⟩ | ⟨-, he⟩
    · rw [he] at hd
      cases hd
    · rw [he]
      exact hw.setPoint t (by decide) ((hw t).2 (by rw [hp]; decide)).2
  · simp only [step] at h
    split_ifs at h with hc
    rw [(hw t).1] at hc
    exact absurd hc.1 (by decide)
  · simp only [step] at h
    split at h
    · cases h
    · obtain rfl := Option.some.inj h
      apply polling_notifyCallbacks
      exact hw.congr rfl rfl
  · obtain rfl := Option.some.inj h
    unfold handleWebhookPayload
    split
    · exact hw
    · apply polling_notifyCallbacks
      exact hw.congr rfl rfl

/-- Whatever the probes raise, a loop that has been started and not stopped
will probe again, as long as no preemption is detected. -/
theorem pollLoop_goes_on {url : String} {ls : List WatchdogLabel} {t : ℕ}
    (hr : Machine.run (step float) { statusUrl := url } ls = some w) (hs : .stop ∉ ls)
    (hd : w.preemptionDetected = false) (ht : (w.tasks t).point ≠ .absent) :
    (w.tasks t).point = .checking ∨
      ∃ u, w.step float (.wake t) = some u ∧ (u.tasks t).point = .checking := by
  have hinv : w.preemptionDetected = false → Polling w := by
    refine Machine.run_inv_along (I := fun w => w.preemptionDetected = false → Polling w)
      (Q := fun _ l _ => l ≠ .stop) (fun v l v' hv hstep hl hd => ?_) ?_
      (Machine.Along.of_labels fun l hl => ne_of_mem_of_not_mem hl hs) hr
    · exact polling_step (hv (undetected_before hstep hd)) hstep hl hd
    · exact fun _ t => ⟨rfl, fun ht => absurd rfl ht⟩
  obtain ⟨hcancel, hrunning⟩ := hinv hd t
  obtain ⟨hne, hrun⟩ := hrunning ht
  by_cases hc : (w.tasks t).point = .checking
  · exact Or.inl hc
  · have hpoint : (w.tasks t).point = .created ∨ (w.tasks t).point = .sleeping := by
      cases hp : (w.tasks t).point <;> simp_all
    refine Or.inr ⟨w.setPoint t .checking, ?_, ?_⟩
    · simp only [step]
      rw [if_pos ⟨hpoint, hcancel⟩, if_pos hrun]
    · rw [setPoint_self]

end

end RunPodPreemptionWatchdog

end Sgm
