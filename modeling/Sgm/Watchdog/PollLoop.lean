/-
# The polling loop in time, over the checks of a provider

`_poll_loop` of `daemon/watchdog/base.py`, beside a simulator: it checks, sleeps
for the rest of its interval, which failures of the check stretch up to half a
second, and ends with the first event. A `Detector` is a watchdog whose check
returns an event if the node is preempted; what the loop needs of it is proved
for AWS and GCP elsewhere, and used here.

The time that a check may take and the time by which a sleeper may wake late
are bounds `D` and `ε` on the runs (`Punctual`): the code has no bound of its own.

Key definitions: `Detector`, `PollLoop`, `PollLoop.step`, `Punctual`.
Key theorems: `backoff_bounded`, `preemption_notified`, `awsDetector`, `gcpDetector`.
-/
import Sgm.Watchdog.Gcp

namespace Sgm

/-- The pool of the checks of a watchdog. -/
abbrev CheckPool (L : Type) :=
  Pool CloudWorld MetadataRequest HttpResponse CloudView L (Except Exc (Option PreemptionEvent))

/-- A watchdog whose check, if it begins when the node is preempted, takes at
most `duration`, loses at most `tolerated` requests and sees neither a reset nor
a simulator that is not `able` to tell of the preemption, returns an event. -/
structure Detector (float : Json → Except Exc PyFloat) (strftime : ℚ → List Char) where
  L : Type
  program : CloudView → L → Dialogue MetadataRequest HttpResponse CloudView L
    (Except Exc (Option PreemptionEvent))
  preempted : CloudMetadataServer → Prop
  able : CloudWorld → Prop
  duration : ℚ
  tolerated : ℕ
  stays : ∀ s s', Stays s s' → preempted s → preempted s'
  asks : ∀ v l, (program v l).Asks (· ≠ .chaosReset)
  detects : ∀ {p₀ p p' : CheckPool L} {t : ℕ} {ls₀ ls : List (PoolLabel CloudEvent (List Char))}
    {a : Except Exc (Option PreemptionEvent)}, (∀ t, p₀.clients t = .idle) →
    Machine.run (Pool.step (cloudServer float strftime) program) p₀ ls₀ = some p →
    Machine.run (Pool.step (cloudServer float strftime) program) p (.begin t :: ls) = some p' →
    p'.clients t = .finished a → preempted p.server.server → (∀ l ∈ ls, ¬ ResetLabel l) →
    Machine.Along (Pool.step (cloudServer float strftime) program)
      (fun q _ q' => able q.server ∧ able q'.server) p (.begin t :: ls) →
    p'.server.monotonic ≤ p.server.monotonic + duration → ls.countP (·.fails t) ≤ tolerated →
    ∃ event, a = .ok (some event)

/-- Where the loop is suspended. -/
inductive LoopPoint
  /-- in `await self.check_once()`, which is client `t`, since `startTime` -/
  | checking (t : ℕ) (startTime : ℚ)
  /-- in `await asyncio.sleep(sleep_time)`, or made by `start` and not run yet -/
  | sleeping (wakeTime : ℚ)
  | ended

/-- A watchdog with one polling loop, and its simulator. -/
structure PollLoop (L : Type) where
  pool : CheckPool L
  pollIntervalS : ℚ
  running : Bool := true
  cancelRequested : Bool := false
  preemptionDetected : Bool := false
  backoffDelay : ℚ
  point : LoopPoint
  /-- The tasks of `notify_callbacks` so far, with the time of each. -/
  notified : List (ℚ × PreemptionEvent) := []

inductive PollLabel
  /-- a step of the simulator, of its clients or of the clock -/
  | world (l : PoolLabel CloudEvent (List Char))
  /-- the loop comes to its head; its check is client `t` -/
  | wake (t : ℕ)
  /-- the check is done; a failure draws `jitter` -/
  | checked (jitter : ℚ)
  | stop
  /-- a `CancelledError` in the loop -/
  | cancelled

namespace PollLoop

variable {L : Type}

def now (q : PollLoop L) : ℚ := q.pool.server.monotonic

/-- Clamp to 500ms max to prevent missing preemption window. -/
def maxIntervalS : ℚ := 1 / 2

/-- The end of an iteration that began at `startTime`: the time until which the
loop sleeps. -/
def wakeTime (q : PollLoop L) (startTime : ℚ) : ℚ :=
  q.now + max 0 (q.backoffDelay - (q.now - startTime))

def sleep (q : PollLoop L) (startTime : ℚ) : PollLoop L :=
  { q with point := .sleeping (q.wakeTime startTime) }

/-- The iteration after `check_once`. -/
def pollResult (q : PollLoop L) (startTime jitter : ℚ) :
    Except Exc (Option PreemptionEvent) → PollLoop L
  | .ok (some event) =>
    if q.preemptionDetected then sleep { q with backoffDelay := q.pollIntervalS } startTime
    else { q with
      backoffDelay := q.pollIntervalS
      preemptionDetected := true
      notified := q.notified ++ [(q.now, event)]
      point := .ended }
  | .ok none => sleep { q with backoffDelay := q.pollIntervalS } startTime
  | .error _ =>
    sleep { q with backoffDelay := min maxIntervalS (q.backoffDelay * (3 / 2) + jitter) } startTime

def step (world : CheckPool L → PoolLabel CloudEvent (List Char) → Option (CheckPool L))
    (q : PollLoop L) : PollLabel → Option (PollLoop L)
  | .world l => (world q.pool l).map fun pool => { q with pool := pool }
  | .wake t =>
    match q.point with
    | .sleeping wakeTime =>
      if wakeTime ≤ q.now then
        if q.running then
          (world q.pool (.begin t)).map fun pool =>
            { q with pool := pool, point := .checking t q.now }
        else some { q with point := .ended }
      else none
    | _ => none
  | .checked jitter =>
    match q.point with
    | .checking t startTime =>
      match q.pool.clients t with
      | .finished a =>
        if 1 / 100 ≤ jitter ∧ jitter ≤ 1 / 20 then some (q.pollResult startTime jitter a) else none
      | _ => none
    | _ => none
  | .stop => some { q with running := false, cancelRequested := true }
  | .cancelled => if q.cancelRequested then some { q with point := .ended } else none

/-- A check has taken at most `D`, and a sleeper is at most `ε` late. -/
def Punctual (D ε : ℚ) (q : PollLoop L) : Prop :=
  match q.point with
  | .checking _ startTime => q.now ≤ startTime + D
  | .sleeping wakeTime => q.now ≤ wakeTime + ε
  | .ended => True

instance (D ε : ℚ) (q : PollLoop L) : Decidable (q.Punctual D ε) :=
  match h : q.point with
  | .checking _ startTime => decidable_of_iff (q.now ≤ startTime + D) (by simp [Punctual, h])
  | .sleeping wakeTime => decidable_of_iff (q.now ≤ wakeTime + ε) (by simp [Punctual, h])
  | .ended => isTrue (by simp [Punctual, h])

/-! ### Steps and their bounds -/

section
variable {world : CheckPool L → PoolLabel CloudEvent (List Char) → Option (CheckPool L)}
  {q q' : PollLoop L}

theorem wake_eq_some {t : ℕ} (h : q.step world (.wake t) = some q') :
    ∃ w, q.point = .sleeping w ∧ w ≤ q.now ∧
      (q.running = false ∧ q' = { q with point := .ended } ∨
        q.running = true ∧ ∃ pool, world q.pool (.begin t) = some pool ∧
          q' = { q with pool := pool, point := .checking t q.now }) := by
  simp only [step] at h
  split at h
  · rename_i w hpoint
    split at h
    · rename_i hw
      split at h
      · rename_i hrun
        obtain ⟨pool, hpool, rfl⟩ := Option.map_eq_some_iff.mp h
        exact ⟨w, hpoint, hw, .inr ⟨hrun, pool, hpool, rfl⟩⟩
      · rename_i hrun
        obtain rfl := Option.some.inj h
        exact ⟨w, hpoint, hw, .inl ⟨by simpa using hrun, rfl⟩⟩
    · cases h
  · cases h

theorem checked_eq_some {jitter : ℚ} (h : q.step world (.checked jitter) = some q') :
    ∃ t startTime a, q.point = .checking t startTime ∧ q.pool.clients t = .finished a ∧
      1 / 100 ≤ jitter ∧ jitter ≤ 1 / 20 ∧ q' = q.pollResult startTime jitter a := by
  simp only [step] at h
  split at h
  · rename_i t startTime hpoint
    split at h
    · rename_i a ha
      split at h
      · rename_i hj
        obtain rfl := Option.some.inj h
        exact ⟨t, startTime, a, hpoint, ha, hj.1, hj.2, rfl⟩
      · cases h
    · cases h
  · cases h

/-- An iteration ends with the first event, and in sleep otherwise; its backoff
is the interval, or grows. -/
theorem pollResult_cases (q : PollLoop L) (startTime jitter : ℚ)
    (a : Except Exc (Option PreemptionEvent)) :
    (∃ event, a = .ok (some event) ∧ q.preemptionDetected = false ∧
      q.pollResult startTime jitter a = { q with
        backoffDelay := q.pollIntervalS
        preemptionDetected := true
        notified := q.notified ++ [(q.now, event)]
        point := .ended }) ∨
    ∃ b, q.pollResult startTime jitter a = sleep { q with backoffDelay := b } startTime ∧
      (b = q.pollIntervalS ∨ b = min maxIntervalS (q.backoffDelay * (3 / 2) + jitter)) ∧
      ((∃ event, a = .ok (some event)) → q.preemptionDetected = true) := by
  match a with
  | .ok (some event) =>
    cases hd : q.preemptionDetected with
    | true => exact .inr ⟨_, by simp [pollResult, hd], .inl rfl, fun _ => rfl⟩
    | false => exact .inl ⟨event, rfl, rfl, by simp [pollResult, hd]⟩
  | .ok none => exact .inr ⟨_, rfl, .inl rfl, by simp⟩
  | .error e => exact .inr ⟨_, rfl, .inr rfl, by simp⟩

/-- The delay is between the interval and half a second, whichever is more. -/
def BackoffBounded (q : PollLoop L) : Prop :=
  q.backoffDelay ≤ max q.pollIntervalS maxIntervalS ∧
    (0 ≤ q.pollIntervalS → min q.pollIntervalS maxIntervalS ≤ q.backoffDelay)

theorem backoffBounded_step {l : PollLabel} (hq : BackoffBounded q) (h : q.step world l = some q') :
    BackoffBounded q' := by
  cases l with
  | world l =>
    obtain ⟨pool, -, rfl⟩ := Option.map_eq_some_iff.mp h
    exact hq
  | wake t =>
    obtain ⟨w, -, -, ⟨-, rfl⟩ | ⟨-, pool, -, rfl⟩⟩ := wake_eq_some h
    · exact hq
    · exact hq
  | checked jitter =>
    obtain ⟨t, startTime, a, -, -, hj, -, rfl⟩ := checked_eq_some h
    rcases pollResult_cases q startTime jitter a with ⟨event, -, -, he⟩ | ⟨b, he, hb, -⟩
    · rw [he]
      exact ⟨le_max_left _ _, fun _ => min_le_left _ _⟩
    · rw [he]
      rcases hb with rfl | rfl
      · exact ⟨le_max_left _ _, fun _ => min_le_left _ _⟩
      · refine ⟨(min_le_left _ _).trans (le_max_right _ _), fun h0 => ?_⟩
        have hlow := hq.2 h0
        have hmin : 0 ≤ min q.pollIntervalS maxIntervalS := le_min h0 (by norm_num [maxIntervalS])
        refine le_min (min_le_right _ _) ?_
        calc min q.pollIntervalS maxIntervalS ≤ q.backoffDelay := hlow
          _ ≤ q.backoffDelay * (3 / 2) + jitter := by linarith
  | stop =>
    obtain rfl := Option.some.inj h
    exact hq
  | cancelled =>
    simp only [step] at h
    split at h
    · obtain rfl := Option.some.inj h
      exact hq
    · cases h

/-- The delay of an iteration stays between the interval and half a second. -/
theorem backoff_bounded {ls : List PollLabel} (hq : q.backoffDelay = q.pollIntervalS)
    (hr : Machine.run (step world) q ls = some q') : BackoffBounded q' :=
  Machine.run_inv (I := BackoffBounded) (fun _ _ _ h hs => backoffBounded_step h hs)
    ⟨hq ▸ le_max_left _ _, fun _ => hq ▸ min_le_left _ _⟩ hr

end

/-! ### A preemption is notified in time -/

section
variable {float : Json → Except Exc PyFloat} {strftime : ℚ → List Char} (d : Detector float strftime)

/-- The checks of a detector. -/
abbrev checks : CheckPool d.L → PoolLabel CloudEvent (List Char) → Option (CheckPool d.L) :=
  Pool.step (cloudServer float strftime) d.program

/-- The checks and the simulator have come to `pool` from a beginning. -/
def Reached (pool : CheckPool d.L) : Prop :=
  ∃ p₀ ls₀, (∀ t, p₀.clients t = .idle) ∧ Machine.run (checks d) p₀ ls₀ = some pool

/-- The simulator can tell of a preemption before the step and after it. -/
def Able (q : PollLoop d.L) (_ : PollLabel) (q' : PollLoop d.L) : Prop :=
  d.able q.pool.server ∧ d.able q'.pool.server

/-- Check `t` began at `startTime`, when the node was preempted; `k` of its
requests have failed. -/
def Begun (q : PollLoop d.L) (t : ℕ) (startTime : ℚ) (k : ℕ) : Prop :=
  ∃ p ls, Reached d p ∧ Machine.run (checks d) p (.begin t :: ls) = some q.pool ∧
    p.server.monotonic = startTime ∧ d.preempted p.server.server ∧ (∀ l ∈ ls, ¬ ResetLabel l) ∧
    Machine.Along (checks d) (fun q _ q' => d.able q.server ∧ d.able q'.server) p (.begin t :: ls) ∧
    ls.countP (·.fails t) = k

/-- The failing requests of client `t` in a run of the loop. -/
def fails (t : ℕ) : PollLabel → Bool
  | .world l => l.fails t
  | _ => false

/-- The run neither resets the simulator nor stops the watchdog. -/
def Undisturbed : PollLabel → Prop
  | .world l => ¬ ResetLabel l
  | .stop => False
  | _ => True

/-- What holds from the moment of a preemption: the loop sleeps until `B` at
the latest, or is in a check that began before the preemption, at `T`, or
detects it. `rest` is what remains of the run. -/
structure Alert (i T B ε : ℚ) (rest : List PollLabel) (q : PollLoop d.L) : Prop where
  interval : q.pollIntervalS = i
  preempted : d.preempted q.pool.server.server
  reached : Reached d q.pool
  running : q.running = true ∧ q.cancelRequested = false
  undetected : q.preemptionDetected = false ∧ q.notified = []
  point : match q.point with
    | .sleeping w => w ≤ B
    | .checking t startTime => startTime ≤ B + ε ∧ (startTime ≤ T ∨
        ∃ k, Begun d q t startTime k ∧ k + rest.countP (fails t) ≤ d.tolerated)
    | .ended => False

variable {d} {q q' : PollLoop d.L}

theorem Reached.step {pool pool' : CheckPool d.L} {l : PoolLabel CloudEvent (List Char)}
    (h : Reached d pool) (hs : checks d pool l = some pool') : Reached d pool' := by
  obtain ⟨p₀, ls₀, h₀, hr⟩ := h
  exact ⟨p₀, ls₀ ++ [l], h₀, Machine.run_concat_eq_some.mpr ⟨pool, hr, hs⟩⟩

theorem Begun.step {t : ℕ} {startTime : ℚ} {k : ℕ} {l : PoolLabel CloudEvent (List Char)}
    {pool : CheckPool d.L} (h : Begun d q t startTime k) (hs : checks d q.pool l = some pool)
    (hl : ¬ ResetLabel l) (hable : d.able q.pool.server ∧ d.able pool.server) :
    Begun d { q with pool := pool } t startTime (k + if l.fails t then 1 else 0) := by
  obtain ⟨p, ls, hreach, hr, htime, hpre, hreset, hA, rfl⟩ := h
  refine ⟨p, ls ++ [l], hreach, ?_, htime, hpre, ?_, ?_, ?_⟩
  · rw [← List.cons_append]
    exact Machine.run_concat_eq_some.mpr ⟨q.pool, hr, hs⟩
  · simpa [or_imp, forall_and] using ⟨hreset, hl⟩
  · rw [← List.cons_append]
    refine hA.append fun r hr' => ?_
    obtain rfl := Option.some.inj (hr'.symm.trans hr)
    exact (Machine.Along.cons_iff hs).mpr ⟨hable, trivial⟩
  · rw [List.countP_append, List.countP_singleton]

/-- A step of the world keeps a preempted node preempted. -/
theorem preempted_step {pool pool' : CheckPool d.L} {l : PoolLabel CloudEvent (List Char)}
    (hreach : Reached d pool) (hpre : d.preempted pool.server.server)
    (hs : checks d pool l = some pool') (hl : ¬ ResetLabel l) : d.preempted pool'.server.server := by
  obtain ⟨p₀, ls₀, h₀, hr⟩ := hreach
  have hkeeps := noReset_of_labels d.asks h₀ hr
    (show ∀ l' ∈ [l], ¬ ResetLabel l' by simpa using hl)
  have hm := Pool.moves_of_run hkeeps (Machine.run_cons_eq_some.mpr ⟨pool', hs, rfl⟩)
  exact d.stays _ _ (moves_stay (fun _ _ _ h => h) hm) hpre

/-- The callbacks are notified, once, by `time`. -/
def NotifiedBy (time : ℚ) (q : PollLoop d.L) : Prop :=
  q.point = .ended ∧ ∃ at_ event, at_ ≤ time ∧ q.notified = [(at_, event)]

variable {i D ε T B : ℚ} {rest : List PollLabel}

theorem alert_world {l : PoolLabel CloudEvent (List Char)} (h : Alert d i T B ε (.world l :: rest) q)
    (hl : ¬ ResetLabel l) (hable : Able d q (.world l) q') (hs : q.step (checks d) (.world l) = some q') :
    Alert d i T B ε rest q' := by
  obtain ⟨pool, hpool, rfl⟩ := Option.map_eq_some_iff.mp hs
  refine ⟨h.interval, preempted_step h.reached h.preempted hpool hl, h.reached.step hpool, h.running,
    h.undetected, ?_⟩
  have hpoint := h.point
  dsimp only
  cases hq : q.point with
  | sleeping w => simpa [hq] using hpoint
  | ended => simp [hq] at hpoint
  | checking t startTime =>
    rw [hq] at hpoint
    refine ⟨hpoint.1, hpoint.2.imp_right ?_⟩
    rintro ⟨k, hbegun, hk⟩
    refine ⟨_, hbegun.step hpool hl hable, ?_⟩
    rw [List.countP_cons, show fails t (.world l) = l.fails t from rfl] at hk
    omega

theorem alert_wake {t : ℕ} (h : Alert d i T B ε (.wake t :: rest) q) (hp : q.Punctual D ε)
    (hfail : ∀ t, (PollLabel.wake t :: rest).countP (fails t) ≤ d.tolerated)
    (hable : Able d q (.wake t) q') (hs : q.step (checks d) (.wake t) = some q') : Alert d i T B ε rest q' := by
  obtain ⟨w, hpoint, -, ⟨hrun, -⟩ | ⟨-, pool, hpool, rfl⟩⟩ := wake_eq_some hs
  · rw [h.running.1] at hrun
    cases hrun
  · have hw : w ≤ B := by simpa [hpoint] using h.point
    have hnow : q.now ≤ w + ε := by simpa [Punctual, hpoint] using hp
    refine ⟨h.interval, preempted_step h.reached h.preempted hpool id, h.reached.step hpool, h.running,
      h.undetected, by linarith, .inr ⟨0, ?_, ?_⟩⟩
    · exact ⟨q.pool, [], h.reached, Machine.run_cons_eq_some.mpr ⟨pool, hpool, rfl⟩, rfl, h.preempted,
        by simp, (Machine.Along.cons_iff hpool).mpr ⟨hable, trivial⟩, rfl⟩
    · have := hfail t
      rw [List.countP_cons] at this
      omega

theorem alert_checked {jitter : ℚ} (hB : T + max D (max i maxIntervalS) ≤ B) (hD : D ≤ d.duration)
    (h : Alert d i T B ε (.checked jitter :: rest) q) (hp : q.Punctual D ε)
    (hs : q.step (checks d) (.checked jitter) = some q') :
    Alert d i T B ε rest q' ∨ NotifiedBy (B + ε + D) q' := by
  obtain ⟨t, startTime, a, hpoint, ha, -, -, rfl⟩ := checked_eq_some hs
  have hnow : q.now ≤ startTime + D := by simpa [Punctual, hpoint] using hp
  have hpt := h.point
  rw [hpoint] at hpt
  obtain ⟨hstart, hcheck⟩ := hpt
  rcases pollResult_cases q startTime jitter a with ⟨event, -, -, he⟩ | ⟨b, he, hb, hdet⟩
  · right
    rw [he]
    refine ⟨rfl, q.now, event, by linarith, ?_⟩
    simp [h.undetected.2]
  · left
    rcases hcheck with hold | ⟨k, ⟨p, ls, ⟨p₀, ls₀, h₀, hr₀⟩, hr, htime, hpre, hreset, hable, rfl⟩, hk⟩
    · have hbM : b ≤ max i maxIntervalS := by
        rcases hb with rfl | rfl
        · exact h.interval ▸ le_max_left _ _
        · exact (min_le_left _ _).trans (le_max_right _ _)
      rw [he]
      refine ⟨h.interval, h.preempted, h.reached, h.running, h.undetected, ?_⟩
      show q.now + max 0 (b - (q.now - startTime)) ≤ B
      have h1 : D ≤ max D (max i maxIntervalS) := le_max_left _ _
      have h2 : b ≤ max D (max i maxIntervalS) := hbM.trans (le_max_right _ _)
      rcases max_cases 0 (b - (q.now - startTime)) with ⟨hmax, -⟩ | ⟨hmax, -⟩
      · rw [hmax]
        linarith
      · rw [hmax]
        linarith
    · -- the check began after the preemption, so it returns an event
      have hevent := d.detects h₀ hr₀ hr ha hpre hreset hable (htime ▸ hnow.trans (by linarith)) (by omega)
      have := hdet hevent
      rw [h.undetected.1] at this
      cases this

theorem alert_step {l : PollLabel} (hB : T + max D (max i maxIntervalS) ≤ B) (hD : D ≤ d.duration)
    (h : Alert d i T B ε (l :: rest) q) (hp : q.Punctual D ε)
    (hfail : ∀ t, (l :: rest).countP (fails t) ≤ d.tolerated) (hl : Undisturbed l) (hable : Able d q l q')
    (hs : q.step (checks d) l = some q') :
    Alert d i T B ε rest q' ∨ NotifiedBy (B + ε + D) q' := by
  cases l with
  | world l => exact .inl (alert_world h hl hable hs)
  | wake t => exact .inl (alert_wake h hp hfail hable hs)
  | checked jitter => exact alert_checked hB hD h hp hs
  | stop => exact hl.elim
  | cancelled => simp [step, h.running.2] at hs

theorem notified_step {l : PollLabel} {time : ℚ} (h : NotifiedBy time q)
    (hs : q.step (checks d) l = some q') : NotifiedBy time q' := by
  obtain ⟨hend, at_, event, hle, hn⟩ := h
  cases l with
  | world l =>
    obtain ⟨pool, -, rfl⟩ := Option.map_eq_some_iff.mp hs
    exact ⟨hend, at_, event, hle, hn⟩
  | wake t =>
    obtain ⟨w, hpoint, -⟩ := wake_eq_some hs
    rw [hend] at hpoint
    cases hpoint
  | checked jitter =>
    obtain ⟨t, startTime, a, hpoint, -⟩ := checked_eq_some hs
    rw [hend] at hpoint
    cases hpoint
  | stop =>
    obtain rfl := Option.some.inj hs
    exact ⟨hend, at_, event, hle, hn⟩
  | cancelled =>
    simp only [step] at hs
    split at hs
    · obtain rfl := Option.some.inj hs
      exact ⟨rfl, at_, event, hle, hn⟩
    · cases hs

theorem notified_of_alert (hB : T + max D (max i maxIntervalS) ≤ B) (hD : D ≤ d.duration) :
    ∀ {ls : List PollLabel} {q q' : PollLoop d.L}, Alert d i T B ε ls q ∨ NotifiedBy (B + ε + D) q →
      q.Punctual D ε → Machine.Along (PollLoop.step (checks d)) (fun _ _ q => q.Punctual D ε) q ls →
      (∀ t, ls.countP (fails t) ≤ d.tolerated) → (∀ l ∈ ls, Undisturbed l) →
      Machine.Along (PollLoop.step (checks d)) (Able d) q ls →
      Machine.run (PollLoop.step (checks d)) q ls = some q' →
      Alert d i T B ε [] q' ∨ NotifiedBy (B + ε + D) q'
  | [], q, q', h, _, _, _, _, _, hr => by
    obtain rfl : q = q' := by simpa using hr
    exact h
  | l :: ls, q, q', h, hp, hA, hfail, hu, hable, hr => by
    obtain ⟨q₁, hs, hr⟩ := Machine.run_cons_eq_some.mp hr
    refine notified_of_alert hB hD (q := q₁) ?_ (hA q₁ hs).1 (hA q₁ hs).2 (fun t => ?_)
      (fun l hl => hu l (List.mem_cons_of_mem _ hl)) (hable q₁ hs).2 hr
    · rcases h with h | h
      · exact alert_step hB hD h hp hfail (hu l List.mem_cons_self) (hable q₁ hs).1 hs
      · exact .inr (notified_step h hs)
    · have := hfail t
      rw [List.countP_cons] at this
      omega

/-- A loop and its simulator as they begin: no check has begun, and the loop
runs as soon as it is made. -/
structure Initial (q : PollLoop d.L) : Prop where
  clients : ∀ t, q.pool.clients t = .idle
  running : q.running = true ∧ q.cancelRequested = false
  undetected : q.preemptionDetected = false ∧ q.notified = []
  point : q.point = .sleeping q.now

/-- What holds of a loop that has neither been stopped nor has detected a
preemption. -/
structure Waiting (i D : ℚ) (q : PollLoop d.L) : Prop where
  interval : q.pollIntervalS = i
  reached : Reached d q.pool
  running : q.running = true ∧ q.cancelRequested = false
  undetected : q.preemptionDetected = false ∧ q.notified = []
  point : match q.point with
    | .sleeping w => w ≤ q.now + max D (max i maxIntervalS)
    | .checking _ startTime => startTime ≤ q.now
    | .ended => False

theorem now_mono {l : PoolLabel CloudEvent (List Char)} {pool : CheckPool d.L}
    (hs : checks d q.pool l = some pool) : q.now ≤ pool.server.monotonic :=
  moves_monotonic (P := fun _ _ _ => True) (Pool.moves_of_run (.of_forall (fun _ _ _ _ => .trivial) _ _)
    (Machine.run_cons_eq_some.mpr ⟨pool, hs, Machine.run_nil _ _⟩))

theorem waiting_step {l : PollLabel} (h : Waiting i D q) (hl : l ≠ .stop)
    (hs : q.step (checks d) l = some q') : Waiting i D q' ∨ q'.preemptionDetected = true := by
  cases l with
  | world l =>
    obtain ⟨pool, hpool, rfl⟩ := Option.map_eq_some_iff.mp hs
    refine .inl ⟨h.interval, h.reached.step hpool, h.running, h.undetected, ?_⟩
    have hpoint := h.point
    have hnow := now_mono hpool
    dsimp only
    cases hq : q.point with
    | sleeping w =>
      rw [hq] at hpoint
      exact hpoint.trans (add_le_add_left hnow _)
    | checking t startTime =>
      rw [hq] at hpoint
      exact hpoint.trans hnow
    | ended => simp [hq] at hpoint
  | wake t =>
    obtain ⟨w, -, -, ⟨hrun, -⟩ | ⟨-, pool, hpool, rfl⟩⟩ := wake_eq_some hs
    · rw [h.running.1] at hrun
      cases hrun
    · exact .inl ⟨h.interval, h.reached.step hpool, h.running, h.undetected, now_mono hpool⟩
  | checked jitter =>
    obtain ⟨t, startTime, a, hpoint, -, -, -, rfl⟩ := checked_eq_some hs
    have hstart : startTime ≤ q.now := by simpa [hpoint] using h.point
    rcases pollResult_cases q startTime jitter a with ⟨event, -, -, he⟩ | ⟨b, he, hb, -⟩
    · rw [he]
      exact .inr rfl
    · have hbM : b ≤ max i maxIntervalS := by
        rcases hb with rfl | rfl
        · exact h.interval ▸ le_max_left _ _
        · exact (min_le_left _ _).trans (le_max_right _ _)
      have hM : 0 ≤ max i maxIntervalS := le_max_of_le_right (by norm_num [maxIntervalS])
      rw [he]
      refine .inl ⟨h.interval, h.reached, h.running, h.undetected, ?_⟩
      show q.now + max 0 (b - (q.now - startTime)) ≤ q.now + max D (max i maxIntervalS)
      refine add_le_add_right (max_le (hM.trans (le_max_right _ _)) ?_) _
      calc b - (q.now - startTime) ≤ b := by linarith
        _ ≤ max i maxIntervalS := hbM
        _ ≤ max D (max i maxIntervalS) := le_max_right _ _
  | stop => exact absurd rfl hl
  | cancelled => simp [step, h.running.2] at hs

theorem detected_step {l : PollLabel} (h : q.preemptionDetected = true)
    (hs : q.step (checks d) l = some q') : q'.preemptionDetected = true := by
  cases l with
  | world l =>
    obtain ⟨pool, -, rfl⟩ := Option.map_eq_some_iff.mp hs
    exact h
  | wake t =>
    obtain ⟨w, -, -, ⟨-, rfl⟩ | ⟨-, pool, -, rfl⟩⟩ := wake_eq_some hs
    · exact h
    · exact h
  | checked jitter =>
    obtain ⟨t, startTime, a, -, -, -, -, rfl⟩ := checked_eq_some hs
    rcases pollResult_cases q startTime jitter a with ⟨event, -, -, he⟩ | ⟨b, he, -, -⟩
    · rw [he]
    · rw [he]
      exact h
  | stop =>
    obtain rfl := Option.some.inj hs
    exact h
  | cancelled =>
    simp only [step] at hs
    split at hs
    · obtain rfl := Option.some.inj hs
      exact h
    · cases hs

/-- **A preemption is notified in time.** A loop that runs on and has detected
nothing when the node is preempted notifies the callbacks, once, after at most
the rest of a check or of a sleep, a late wake-up and one more check, if from
then on the simulator is not reset and able to tell, and no check loses more
requests than the watchdog tolerates: the clamp of the backoff bounds the sleep,
however many checks failed before. -/
theorem preemption_notified {q₀ : PollLoop d.L} {ls₀ ls : List PollLabel} (h₀ : Initial q₀)
    (hr₀ : Machine.run (PollLoop.step (checks d)) q₀ ls₀ = some q)
    (hr : Machine.run (PollLoop.step (checks d)) q ls = some q') (hε : 0 ≤ ε) (hD₀ : 0 ≤ D)
    (hD : D ≤ d.duration)
    (hA : Machine.Along (PollLoop.step (checks d)) (fun _ _ q => q.Punctual D ε) q₀ (ls₀ ++ ls))
    (hstop : ∀ l ∈ ls₀, l ≠ .stop) (hdetected : q.preemptionDetected = false)
    (hpre : d.preempted q.pool.server.server) (hu : ∀ l ∈ ls, Undisturbed l)
    (hable : Machine.Along (PollLoop.step (checks d)) (Able d) q ls)
    (hfail : ∀ t, ls.countP (fails t) ≤ d.tolerated) :
    NotifiedBy (q.now + max D (max q₀.pollIntervalS maxIntervalS) + ε + D) q' ∨
      q'.now ≤ q.now + max D (max q₀.pollIntervalS maxIntervalS) + ε + D := by
  have hM : 0 ≤ max D (max q₀.pollIntervalS maxIntervalS) := le_max_of_le_left hD₀
  have hwait : Waiting q₀.pollIntervalS D q ∨ q.preemptionDetected = true := by
    refine Machine.run_inv_along
      (I := fun q : PollLoop d.L => Waiting q₀.pollIntervalS D q ∨ q.preemptionDetected = true)
      (Q := fun _ l _ => l ≠ .stop) ?_ (.inl ?_) (.of_labels hstop) hr₀
    · rintro s l s' (h | h) hs hl
      · exact waiting_step h hl hs
      · exact .inr (detected_step h hs)
    · refine ⟨rfl, ⟨q₀.pool, [], h₀.clients, rfl⟩, h₀.running, h₀.undetected, ?_⟩
      rw [h₀.point]
      exact le_add_of_nonneg_right hM
  obtain hwait := hwait.resolve_right (by simp [hdetected])
  have hpunctual : q.Punctual D ε := by
    refine Machine.run_inv_along (I := fun q : PollLoop d.L => q.Punctual D ε)
      (fun _ _ _ _ _ h => h) ?_ hA.append_left hr₀
    simp only [Punctual, h₀.point]
    linarith
  have halert : Alert d q₀.pollIntervalS q.now (q.now + max D (max q₀.pollIntervalS maxIntervalS)) ε ls q := by
    refine ⟨hwait.interval, hpre, hwait.reached, hwait.running, hwait.undetected, ?_⟩
    have hpoint := hwait.point
    cases hq : q.point with
    | sleeping w => simpa [hq] using hpoint
    | checking t startTime =>
      rw [hq] at hpoint
      exact ⟨by linarith, .inl hpoint⟩
    | ended => simp [hq] at hpoint
  have hA' := hA.append_right hr₀
  have hpunctual' : q'.Punctual D ε :=
    Machine.run_inv_along (I := fun q : PollLoop d.L => q.Punctual D ε) (fun _ _ _ _ _ h => h)
      hpunctual hA' hr
  rcases notified_of_alert le_rfl hD (.inl halert) hpunctual hA' hfail hu hable hr with h | h
  · right
    have hpoint := h.point
    cases hq : q'.point with
    | sleeping w =>
      rw [hq] at hpoint
      have : q'.now ≤ w + ε := by simpa [Punctual, hq] using hpunctual'
      linarith
    | checking t startTime =>
      rw [hq] at hpoint
      have : q'.now ≤ startTime + D := by simpa [Punctual, hq] using hpunctual'
      linarith [hpoint.1]
    | ended => simp [hq] at hpoint
  · exact .inl h

end

end PollLoop

/-! ### Detectors -/

section
variable (float : Json → Except Exc PyFloat) (strftime : ℚ → List Char)

/-- AWS: no request of a check may fail, a check takes no longer than a token is
kept, and the deadline can be written. -/
def awsDetector (fromisoformat : List Char → Option ℚ) (ttl : ℤ) (duration : ℚ)
    (hkept : ∀ q, ((tokenSeconds float ttl).addRat q).ltRat (q + duration) = false) :
    Detector float strftime where
  L := AWSToken
  program := AWSPreemptionWatchdog.checkOnce fromisoformat ttl
  preempted s := s.awsPreempted = true
  able := CloudWorld.InRange
  duration := duration
  tolerated := 0
  stays _ _ h := h.aws
  asks := asks_checkOnce
  detects {p₀ p p' t ls₀ ls a} h₀ hr₀ hr hf hp hreset hable htime hfail := by
    have hlive := PyFloat.ltRat_addRat_mono le_rfl htime (hkept p.server.monotonic)
    rcases detected_of_run h₀ hr₀ hr hf hp hreset hable hlive with ⟨event, ha, -⟩ | ⟨hn, -⟩
    · exact ⟨event, ha⟩
    · omega

/-- GCP: one request of a check may fail, and it may take any time. -/
def gcpDetector (duration : ℚ) : Detector float strftime where
  L := Unit
  program := GCPPreemptionWatchdog.checkOnce
  preempted s := s.gcpPreempted = true
  able _ := True
  duration := duration
  tolerated := 1
  stays _ _ h := h.gcp
  asks := asks_gcp
  detects {p₀ p p' t ls₀ ls a} h₀ hr₀ hr hf hp hreset _ _ hfail := by
    have hkeeps := noReset_of_labels asks_gcp h₀ hr₀
      (show ∀ l ∈ .begin t :: ls, ¬ ResetLabel l by simpa [ResetLabel] using hreset)
    rcases gcp_check_detects (fun _ _ _ h => h) hp (Pool.course_of_along hkeeps hr hf) with
      ⟨-, ha⟩ | ⟨htwo, -⟩
    · exact ⟨_, ha⟩
    · omega

end

/-- A token of a minute is kept for a check of fifty seconds. -/
example (fromisoformat : List Char → Option ℚ) : Detector floatOfInt fun _ => [] :=
  awsDetector _ _ fromisoformat 60 50 fun q => by
    have hs : tokenSeconds floatOfInt 60 = .finite 60 := by decide +kernel
    simp only [hs, PyFloat.addRat, PyFloat.ltRat, decide_eq_false_iff_not, not_lt]
    linarith

/-- A detector for a node whose checks take a second at most. -/
def exampleDetector : Detector floatOfInt fun _ => [] := gcpDetector _ _ 1

/-- A loop over the checks of a healthy node. -/
def healthyLoop : PollLoop exampleDetector.L where
  pool := { server := {}, shared := (), clients := fun _ => .idle }
  pollIntervalS := 1 / 4
  backoffDelay := 1 / 4
  point := .sleeping 0

def gcpTrigger : List PollLabel := [.world (.env (.trigger ['g', 'c', 'p'] .null))]

/-- A check in which a request is lost. -/
def gcpDetection : List PollLabel :=
  [.wake 0, .world (.fail 0), .world (.env (.elapse (1 / 20))), .world (.serve 0 (List.replicate 16 '0')),
    .world (.receive 0), .checked (1 / 50)]

theorem preemption_notified_gcp : ∃ q q',
    Machine.run (PollLoop.step (PollLoop.checks exampleDetector)) healthyLoop gcpTrigger = some q ∧
    Machine.run (PollLoop.step (PollLoop.checks exampleDetector)) q gcpDetection = some q' ∧
    (PollLoop.NotifiedBy (q.now + max 1 (max healthyLoop.pollIntervalS PollLoop.maxIntervalS) + 0 + 1) q' ∨
      q'.now ≤ q.now + max 1 (max healthyLoop.pollIntervalS PollLoop.maxIntervalS) + 0 + 1) := by
  obtain ⟨q, hr₀⟩ := Option.isSome_iff_exists.mp (by decide +kernel :
    (Machine.run (PollLoop.step (PollLoop.checks exampleDetector)) healthyLoop gcpTrigger).isSome = true)
  have hq : (Machine.run (PollLoop.step (PollLoop.checks exampleDetector)) healthyLoop gcpTrigger).map
      (fun q => (q.preemptionDetected, q.pool.server.server.gcpPreempted)) = some (false, true) := by
    decide +kernel
  obtain ⟨q', hr⟩ := Option.isSome_iff_exists.mp (by decide +kernel :
    (Machine.run (PollLoop.step (PollLoop.checks exampleDetector)) healthyLoop
      (gcpTrigger ++ gcpDetection)).isSome = true)
  obtain ⟨q₁, hr₁, hr⟩ := Machine.run_append_eq_some.mp hr
  obtain rfl : q = q₁ := by simpa [hr₀] using hr₁
  rw [hr₀, Option.map_some, Option.some.injEq, Prod.mk.injEq] at hq
  refine ⟨q, q', hr₀, hr, PollLoop.preemption_notified (ε := 0) (D := 1) ⟨fun _ => rfl, ⟨rfl, rfl⟩,
    ⟨rfl, rfl⟩, rfl⟩ hr₀ hr le_rfl zero_le_one le_rfl (by decide +kernel) (by simp [gcpTrigger]) hq.1 hq.2
    (by simp [gcpDetection, PollLoop.Undisturbed, ResetLabel])
    (.of_forall (fun _ _ _ _ => ⟨trivial, trivial⟩) _ _) fun t => ?_⟩
  rcases eq_or_ne t 0 with rfl | hne
  · decide
  · simp [gcpDetection, PollLoop.fails, PoolLabel.fails, hne.symm]

end Sgm
