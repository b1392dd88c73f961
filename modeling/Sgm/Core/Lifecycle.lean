/-
# A node goes through its lifecycle once

What a daemon does, but for the aborts and the report of a failure, is always
the beginning of one course (`course`): each state of the lifecycle, and
between them the alert, the pause of the engine, the sending and its
acknowledgement. The guard reads the state without the lock, but the first
`set_state` follows without a suspension, since the lock is free whenever a
call is resumed; so one call passes it, and that call alone drives the course.

Key definitions: `Milestone`, `course`, `NodeDaemon.OnCourse`, `PreemptionPoint.At`.
Key theorems: `NodeDaemon.OnCourse.resume`, `DaemonSystem.driven_run`,
`DaemonSystem.onPreemption_once`.
-/
import Sgm.Core.NodeDaemon

namespace Sgm

/-! ### The course -/

/-- What happens once at most. -/
inductive Milestone
  | state (new : NodeLifecycleState)
  | alert
  | pause
  | send
  | acked
  deriving DecidableEq

def DaemonEvent.milestone : DaemonEvent → Option Milestone
  | .state new _ => some (.state new)
  | .alert _ => some .alert
  | .pause => some .pause
  | .send _ => some .send
  | .acked _ => some .acked
  | .abort _ | .failed _ => none

def Milestone.entered : Milestone → Option NodeLifecycleState
  | .state new => some new
  | _ => none

/-- The milestones of a preemption, in their order. -/
def course : List Milestone :=
  [.state .preemptionDetected, .alert, .state .bufferingIngress, .pause, .state .stateStreaming,
    .send, .acked, .state .handoverComplete, .state .terminated]

theorem course_nodup : course.Nodup := by decide

/-- The state after so many milestones. -/
def stateAfter (n : ℕ) : NodeLifecycleState :=
  ((course.take n).filterMap Milestone.entered).getLastD .healthy

namespace NodeDaemon

def milestones (d : NodeDaemon) : List Milestone := d.events.filterMap DaemonEvent.milestone

/-- The values the state has had. -/
def states (d : NodeDaemon) : List NodeLifecycleState :=
  .healthy :: d.milestones.filterMap Milestone.entered

/-- The daemon is through the first `n` milestones, and nobody holds its lock. -/
structure OnCourse (d : NodeDaemon) (n : ℕ) : Prop where
  lock : d.stateLock = false
  milestones_eq : d.milestones = course.take n
  state_eq : d.state = stateAfter n
  le : n ≤ course.length

variable {d : NodeDaemon} {n : ℕ}

theorem milestones_log (d : NodeDaemon) (e : DaemonEvent) :
    (d.log e).milestones = d.milestones ++ e.milestone.toList := by
  unfold milestones log
  simp only [List.filterMap_append, List.filterMap_cons, List.filterMap_nil]
  cases e.milestone <;> rfl

/-- An event that is no milestone. -/
theorem OnCourse.log_aside (h : d.OnCourse n) {e : DaemonEvent} (he : e.milestone = none) :
    (d.log e).OnCourse n where
  lock := h.lock
  milestones_eq := by simp [milestones_log, he, h.milestones_eq]
  state_eq := h.state_eq
  le := h.le

theorem take_succ_course {s : Milestone} (hs : course[n]? = some s) :
    course.take (n + 1) = course.take n ++ [s] := by
  rw [List.take_add_one, hs]
  rfl

theorem lt_of_course {s : Milestone} (hs : course[n]? = some s) : n < course.length :=
  (List.getElem?_eq_some_iff.mp hs).1

/-- The next milestone, where it is no state. -/
theorem OnCourse.log (h : d.OnCourse n) {e : DaemonEvent} {s : Milestone} (he : e.milestone = some s)
    (hs : course[n]? = some s) (hn : s.entered = none) : (d.log e).OnCourse (n + 1) where
  lock := h.lock
  milestones_eq := by rw [milestones_log, he, h.milestones_eq, take_succ_course hs]; rfl
  state_eq := by
    have hlog : (d.log e).state = d.state := rfl
    rw [hlog, h.state_eq, stateAfter, stateAfter, take_succ_course hs, List.filterMap_append]
    simp [hn]
  le := lt_of_course hs

/-- The next milestone, where it is a state. -/
theorem OnCourse.moved (h : d.OnCourse n) {new : NodeLifecycleState}
    (hs : course[n]? = some (.state new)) : (d.moved new).OnCourse (n + 1) where
  lock := h.lock
  milestones_eq := by
    have hst : ({ d with state := new } : NodeDaemon).milestones = d.milestones := rfl
    rw [NodeDaemon.moved, milestones_log, hst, h.milestones_eq, take_succ_course hs]
    rfl
  state_eq := by
    have hmoved : (d.moved new).state = new := rfl
    rw [hmoved, stateAfter, take_succ_course hs, List.filterMap_append]
    simp [Milestone.entered]
  le := lt_of_course hs

/-- A `set_state` to the next state of the course. -/
theorem OnCourse.setState (h : d.OnCourse n) {new : NodeLifecycleState}
    (hs : course[n]? = some (.state new)) (hne : stateAfter n ≠ new)
    (hook : NodeLifecycleState → Option Exc) :
    (d.moved new).OnCourse (n + 1) ∧ (d.setState new hook = .done (d.moved new) ∨
      ∃ e, d.setState new hook = .raised e (d.moved new)) := by
  have hst : d.state ≠ new := by rwa [h.state_eq]
  refine ⟨h.moved hs, ?_⟩
  rw [setState_of_free h.lock hst]
  cases hook new with
  | none => exact Or.inl rfl
  | some e => exact Or.inr ⟨e, rfl⟩

end NodeDaemon

/-! ### One call -/

namespace PreemptionPoint

/-- A call at this point has brought the daemon through so many milestones. -/
def At : PreemptionPoint → ℕ → Prop
  | .syncing _, n | .readingSync _, n | .leavingSync _, n => n = 1
  | .notifying _, n => n = 2
  | .aborting _ _, n => n = 3
  | .pausing _, n => n = 4
  | .sending _ _, n => n = 6
  | .failing _, n => n = 6 ∨ n = 8
  | .raised _, n | .cancelled, n => 1 ≤ n
  | .tearingDown, n | .returned, n => n = 9
  | _, _ => False

theorem At.passed {point : PreemptionPoint} {n : ℕ} (h : point.At n) : point.Passed := by
  cases point <;> trivial

theorem At.pos {point : PreemptionPoint} {n : ℕ} (h : point.At n) : 1 ≤ n := by
  cases point <;> simp only [At] at h <;> omega

end PreemptionPoint

namespace NodeDaemon

variable {d : NodeDaemon} {n : ℕ} {event : PreemptionEvent} {wake : Wakeup}

/-- The daemon and the point of a call that agree on the milestones. -/
def InStep (x : NodeDaemon × PreemptionPoint) : Prop := ∃ n, x.1.OnCourse n ∧ x.2.At n

theorem OnCourse.notifyProxyFailure (h : d.OnCourse n) (hn : n = 6 ∨ n = 8) (e : Exc) :
    InStep (d.notifyProxyFailure e) :=
  ⟨n, h.log_aside rfl, hn⟩

theorem OnCourse.enterTerminated (h : d.OnCourse 8) : InStep (d.enterTerminated event wake) := by
  obtain ⟨hm, hd | ⟨e, hd⟩⟩ := h.setState rfl (by decide) wake.onStateChange
  all_goals
    unfold NodeDaemon.enterTerminated
    rw [hd]
  · exact ⟨9, hm, rfl⟩
  · exact ⟨9, hm, by simp [PreemptionPoint.At]⟩

theorem OnCourse.enterHandoverComplete (h : d.OnCourse 7) :
    InStep (d.enterHandoverComplete event wake) := by
  obtain ⟨hm, hd | ⟨e, hd⟩⟩ := h.setState rfl (by decide) wake.onStateChange
  all_goals
    unfold NodeDaemon.enterHandoverComplete
    rw [hd]
  · exact hm.enterTerminated
  · exact hm.notifyProxyFailure (Or.inr rfl) e

theorem OnCourse.enterStateStreaming (h : d.OnCourse 4) :
    InStep (d.enterStateStreaming event wake) := by
  obtain ⟨hm, hd | ⟨e, hd⟩⟩ := h.setState rfl (by decide) wake.onStateChange
  all_goals
    unfold NodeDaemon.enterStateStreaming
    rw [hd]
  · exact ⟨6, hm.log rfl rfl rfl, rfl⟩
  · exact ⟨5, hm, by simp [PreemptionPoint.At]⟩

theorem OnCourse.pauseLocalEngine (h : d.OnCourse 3) (ids : List String) :
    InStep (d.pauseLocalEngine event ids) := by
  cases ids with
  | nil => exact ⟨4, h.log rfl rfl rfl, rfl⟩
  | cons id ids => exact ⟨3, h.log_aside rfl, rfl⟩

theorem OnCourse.enterBufferingIngress (h : d.OnCourse 2) :
    InStep (d.enterBufferingIngress event wake) := by
  obtain ⟨hm, hd | ⟨e, hd⟩⟩ := h.setState rfl (by decide) wake.onStateChange
  all_goals
    unfold NodeDaemon.enterBufferingIngress
    rw [hd]
  · exact hm.pauseLocalEngine _
  · exact ⟨3, hm, by simp [PreemptionPoint.At]⟩

theorem OnCourse.notifyProxyPreemption (h : d.OnCourse 1) :
    InStep (d.notifyProxyPreemption event wake) :=
  ⟨2, h.log rfl rfl rfl, rfl⟩

theorem OnCourse.enterPreemptionDetected (h : d.OnCourse 0) :
    InStep (d.enterPreemptionDetected event wake) := by
  obtain ⟨hm, hd | ⟨e, hd⟩⟩ := h.setState rfl (by decide) wake.onStateChange
  all_goals
    unfold NodeDaemon.enterPreemptionDetected
    rw [hd]
  · simp only
    split
    · exact ⟨1, hm, rfl⟩
    · exact hm.notifyProxyPreemption
  · exact ⟨1, hm, by simp [PreemptionPoint.At]⟩

theorem OnCourse.syncSessions (h : d.OnCourse n) (requests : List (Option ActiveRequest)) :
    (d.syncSessions requests).OnCourse n := by
  obtain ⟨sessions, he⟩ := d.syncSessions_eq requests
  rw [he]
  exact ⟨h.lock, h.milestones_eq, h.state_eq, h.le⟩

/-- A call that has passed the guard goes on from milestone to milestone. -/
theorem OnCourse.resume (h : d.OnCourse n) {point : PreemptionPoint} (ha : point.At n)
    {x : NodeDaemon × PreemptionPoint} (hx : d.resume point wake = some x) : InStep x := by
  unfold NodeDaemon.resume at hx
  split at hx
  case h_1 | h_2 => exact ha.elim
  case h_3 =>
    obtain rfl := Option.some.inj hx
    refine ⟨1, ha ▸ h, ?_⟩
    dsimp only
    split <;> rfl
  case h_4 | h_7 | h_8 =>
    obtain rfl := Option.some.inj hx
    exact (show d.OnCourse 1 from ha ▸ h).notifyProxyPreemption
  case h_5 =>
    obtain rfl := Option.some.inj hx
    exact ⟨1, (show d.OnCourse 1 from ha ▸ h).syncSessions _, rfl⟩
  case h_6 =>
    obtain rfl := Option.some.inj hx
    exact ⟨1, ha ▸ h, rfl⟩
  case h_9 | h_10 =>
    obtain rfl := Option.some.inj hx
    exact (show d.OnCourse 2 from ha ▸ h).enterBufferingIngress
  case h_11 | h_12 =>
    obtain rfl := Option.some.inj hx
    exact (show d.OnCourse 3 from ha ▸ h).pauseLocalEngine _
  case h_13 | h_14 =>
    obtain rfl := Option.some.inj hx
    exact (show d.OnCourse 4 from ha ▸ h).enterStateStreaming
  case h_15 ack _ =>
    obtain rfl := Option.some.inj hx
    have h7 : (d.log (.acked ack)).OnCourse 7 := (show d.OnCourse 6 from ha ▸ h).log rfl rfl rfl
    exact h7.enterHandoverComplete
  case h_16 =>
    obtain rfl := Option.some.inj hx
    exact h.notifyProxyFailure (Or.inl ha) _
  case h_17 | h_18 =>
    obtain rfl := Option.some.inj hx
    exact ⟨n, h, by simp only [PreemptionPoint.At] at ha ⊢; omega⟩
  case h_19 =>
    obtain rfl := Option.some.inj hx
    exact ⟨n, h, ha⟩
  case h_20 =>
    obtain rfl := Option.some.inj hx
    exact ⟨n, h, by simp only [PreemptionPoint.At] at ha ⊢; omega⟩
  case h_21 => cases hx

/-- The first milestones are over when the state is not the first. -/
theorem OnCourse.eq_zero (h : d.OnCourse n) (hs : d.state = .healthy) : n = 0 := by
  have hne : ∀ m, 1 ≤ m → m ≤ course.length → stateAfter m ≠ .healthy := by
    intro m hm hle
    have hle' : m ≤ 9 := hle
    interval_cases m <;> decide
  by_contra hn
  exact hne n (by omega) h.le (h.state_eq ▸ hs)

end NodeDaemon

/-! ### Any number of calls -/

namespace DaemonSystem

/-- Either no call has passed the guard, and nothing has happened, or one has,
and the daemon is as far as it. -/
def Driven (p : DaemonSystem) : Prop :=
  ∃ n, p.daemon.OnCourse n ∧ ((n = 0 ∧ ∀ t, ¬ (p.tasks t).Passed) ∨
    ∃ o, (p.tasks o).At n ∧ ∀ t, t ≠ o → ¬ (p.tasks t).Passed)

variable {p q : DaemonSystem} {t : ℕ} {n : ℕ}

/-- A call that has passed the guard is the only one. -/
theorem Driven.owner (h : p.Driven) (ht : (p.tasks t).Passed) :
    ∃ n, p.daemon.OnCourse n ∧ (p.tasks t).At n ∧ ∀ t', t' ≠ t → ¬ (p.tasks t').Passed := by
  obtain ⟨n, hd, ⟨-, hall⟩ | ⟨o, ho, hall⟩⟩ := h
  · exact absurd ht (hall t)
  · obtain rfl : t = o := by
      by_contra hne
      exact hall t hne ht
    exact ⟨n, hd, ho, hall⟩

/-- A task that has not passed the guard moves to where it has not. -/
theorem Driven.put_fresh (h : p.Driven) (ht : ¬ (p.tasks t).Passed) {point : PreemptionPoint}
    (hp : ¬ point.Passed) : (p.put t (p.daemon, point)).Driven := by
  have hput : ∀ t', ¬ (p.tasks t').Passed → ¬ ((p.put t (p.daemon, point)).tasks t').Passed := by
    intro t' ht'
    by_cases htt : t' = t
    · rw [htt, put_tasks_self]
      exact hp
    · rwa [put_tasks_ne p htt]
  obtain ⟨n, hd, ⟨h0, hall⟩ | ⟨o, ho, hall⟩⟩ := h
  · exact ⟨n, hd, Or.inl ⟨h0, fun t' => hput t' (hall t')⟩⟩
  · have hne : o ≠ t := fun he => ht (he ▸ ho.passed)
    refine ⟨n, hd, Or.inr ⟨o, ?_, fun t' ht' => hput t' (hall t' ht')⟩⟩
    rwa [put_tasks_ne p hne]

/-- The one call that may have passed the guard moves. -/
theorem driven_put {x : NodeDaemon × PreemptionPoint} (hx : NodeDaemon.InStep x)
    (hall : ∀ t', t' ≠ t → ¬ (p.tasks t').Passed) : (p.put t x).Driven := by
  obtain ⟨n, hd, ha⟩ := hx
  refine ⟨n, hd, Or.inr ⟨t, by rwa [put_tasks_self], fun t' ht' => ?_⟩⟩
  rw [put_tasks_ne p ht']
  exact hall t' ht'

theorem Driven.resume (h : p.Driven) {wake : Wakeup} {x : NodeDaemon × PreemptionPoint}
    (hx : p.daemon.resume (p.tasks t) wake = some x) : (p.put t x).Driven := by
  by_cases hpass : (p.tasks t).Passed
  · obtain ⟨n, hd, ho, hall⟩ := h.owner hpass
    exact driven_put (hd.resume ho hx) hall
  · cases hpt : p.tasks t with
    | called event =>
      have hx' : p.daemon.onPreemption event wake = x := by
        rw [hpt] at hx
        unfold NodeDaemon.resume at hx
        split at hx <;> simp_all
      unfold NodeDaemon.onPreemption at hx'
      split at hx'
      · exact hx' ▸ h.put_fresh hpass (fun hp => hp)
      · rename_i hstate
        obtain ⟨n, hd, hall⟩ := h
        obtain rfl := hd.eq_zero (not_not.mp hstate)
        have hfresh : ∀ t', ¬ (p.tasks t').Passed := by
          rcases hall with ⟨-, hall⟩ | ⟨o, ho, -⟩
          · exact hall
          · exact absurd ho.pos (by omega)
        exact driven_put (hx' ▸ hd.enterPreemptionDetected) fun t' _ => hfresh t'
    | idle | ignored | dropped =>
      rw [hpt] at hx
      cases hx
    | _ => exact absurd (by rw [hpt]; trivial) hpass

theorem Driven.cancel (h : p.Driven) {point : PreemptionPoint}
    (hc : (p.tasks t).cancel = some point) : (p.put t (p.daemon, point)).Driven := by
  by_cases hpass : (p.tasks t).Passed
  · obtain ⟨n, hd, ho, hall⟩ := h.owner hpass
    have hpos := ho.pos
    have hpoint : point = .cancelled := by
      cases hpt : p.tasks t <;> rw [hpt] at hc hpass <;>
        simp_all [PreemptionPoint.cancel, PreemptionPoint.Passed]
    exact driven_put ⟨n, hd, hpoint ▸ hpos⟩ hall
  · have hpoint : point = .dropped := by
      cases hpt : p.tasks t <;> rw [hpt] at hc hpass <;>
        simp_all [PreemptionPoint.cancel, PreemptionPoint.Passed]
    exact h.put_fresh hpass (hpoint ▸ fun hp => hp)

/-- What the registry holds makes no difference. -/
theorem Driven.registry (h : p.Driven) (sessions : Dict String InferenceSession) :
    Driven { p with daemon := { p.daemon with activeSessions := sessions } } := by
  obtain ⟨n, hd, hall⟩ := h
  exact ⟨n, ⟨hd.lock, hd.milestones_eq, hd.state_eq, hd.le⟩, hall⟩

theorem Driven.step {l : DaemonLabel} (h : p.Driven) (hs : p.step l = some q) : q.Driven := by
  cases l with
  | trigger t event =>
    simp only [DaemonSystem.step] at hs
    split at hs
    · rename_i hidle
      obtain rfl := Option.some.inj hs
      exact h.put_fresh (by rw [hidle]; exact id) (fun hp => hp)
    · cases hs
  | resume t wake =>
    obtain ⟨x, hx, rfl⟩ := Option.map_eq_some_iff.mp hs
    exact h.resume hx
  | cancel t =>
    obtain ⟨point, hc, rfl⟩ := Option.map_eq_some_iff.mp hs
    exact h.cancel hc
  | registerSession session | standbySession session =>
    obtain rfl := Option.some.inj hs
    exact h.registry _
  | updateSessionToken requestId tokenId tokenStr sequenceId =>
    obtain rfl := Option.some.inj hs
    unfold NodeDaemon.updateSessionToken
    split
    · exact h.registry _
    · exact h
  | completeSession requestId =>
    obtain rfl := Option.some.inj hs
    exact h.registry _

theorem driven_new (nodeId proxyUrl : String) : (new nodeId proxyUrl).Driven :=
  ⟨0, ⟨rfl, rfl, rfl, by decide⟩, Or.inl ⟨rfl, fun _ hp => hp⟩⟩

/-- After any run, with any calls of `on_preemption`, one call at most has
passed the guard and drives the course. -/
theorem driven_run {nodeId proxyUrl : String} {ls : List DaemonLabel}
    (hr : Machine.run step (new nodeId proxyUrl) ls = some p) : p.Driven :=
  Machine.run_inv (fun _ _ _ h hs => h.step hs) (driven_new nodeId proxyUrl) hr

theorem Driven.not_acquiring (h : p.Driven) (t : ℕ) (new : NodeLifecycleState)
    (event : PreemptionEvent) : p.tasks t ≠ .acquiring new event := by
  intro hp
  obtain ⟨n, -, ⟨-, hall⟩ | ⟨o, ho, hall⟩⟩ := h
  · exact hall t (by rw [hp]; trivial)
  · by_cases hto : t = o
    · rw [← hto, hp] at ho
      exact ho
    · exact hall t hto (by rw [hp]; trivial)

/-- One call at most has passed the guard. -/
theorem Driven.passed_unique (h : p.Driven) {t t' : ℕ} (ht : (p.tasks t).Passed)
    (ht' : (p.tasks t').Passed) : t = t' := by
  obtain ⟨n, -, ⟨-, hall⟩ | ⟨o, -, hall⟩⟩ := h
  · exact absurd ht (hall t)
  · have hto : t = o := by
      by_contra hne
      exact hall t hne ht
    have hto' : t' = o := by
      by_contra hne
      exact hall t' hne ht'
    exact hto.trans hto'.symm

end DaemonSystem

/-! ### What the course says -/

namespace NodeDaemon

variable {d : NodeDaemon} {n : ℕ}

theorem OnCourse.states_eq (h : d.OnCourse n) :
    d.states = .healthy :: (course.take n).filterMap Milestone.entered := by
  rw [states, h.milestones_eq]

theorem OnCourse.states_prefix (h : d.OnCourse n) :
    d.states <+: NodeLifecycleState.lifecycle := by
  have hall : NodeLifecycleState.lifecycle = .healthy :: course.filterMap Milestone.entered := rfl
  rw [h.states_eq, hall]
  exact List.prefix_cons_inj _ |>.mpr ((List.take_prefix n course).filterMap _)

theorem OnCourse.state_last (h : d.OnCourse n) : d.states.getLast? = some d.state := by
  rw [h.states_eq, h.state_eq, stateAfter, List.getLast?_cons]
  simp [List.getLastD_eq_getLast?]

/-- Nothing on the course happens twice. -/
theorem OnCourse.count_le (h : d.OnCourse n) (s : Milestone) : d.milestones.count s ≤ 1 := by
  rw [h.milestones_eq]
  have hcount := (List.take_prefix n course).sublist.count_le s
  exact hcount.trans (List.nodup_iff_count_le_one.mp course_nodup s)

/-- Before a milestone, all the milestones before it have happened, and no other. -/
theorem OnCourse.before (h : d.OnCourse n) {l₁ l₂ : List DaemonEvent} {e : DaemonEvent} {s : Milestone}
    (hd : d.events = l₁ ++ e :: l₂) (he : e.milestone = some s) :
    l₁.filterMap DaemonEvent.milestone = course.take (course.idxOf s) := by
  have hsplit : d.milestones =
      l₁.filterMap DaemonEvent.milestone ++ s :: l₂.filterMap DaemonEvent.milestone := by
    rw [milestones, hd, List.filterMap_append, List.filterMap_cons, he]
  obtain ⟨rest, hrest⟩ := List.take_prefix n course
  rw [← h.milestones_eq, hsplit, List.append_assoc] at hrest
  have hnodup := course_nodup
  rw [← hrest, List.nodup_append] at hnodup
  have hs : s ∉ l₁.filterMap DaemonEvent.milestone :=
    fun hmem => hnodup.2.2 s hmem s (by simp) rfl
  have hidx : course.idxOf s = (l₁.filterMap DaemonEvent.milestone).length := by
    rw [← hrest, List.idxOf_append_of_notMem hs]
    simp
  rw [hidx, ← hrest, List.take_left]

end NodeDaemon

/-- Whatever calls of `on_preemption` there are, and whatever succeeds or fails,
the state has gone through a beginning of the lifecycle, without repetition;
one call at most has passed the guard; the alert, the pause of the engine and
`send_sessions` have each been issued once at most; and an acknowledgement has
come before HANDOVER_COMPLETE. -/
theorem DaemonSystem.onPreemption_once {nodeId proxyUrl : String} {ls : List DaemonLabel}
    {p : DaemonSystem} (hr : Machine.run step (new nodeId proxyUrl) ls = some p) :
    (p.daemon.states <+: NodeLifecycleState.lifecycle ∧ p.daemon.states.Nodup ∧
      p.daemon.states.getLast? = some p.daemon.state) ∧
    (∀ t t', (p.tasks t).Passed → (p.tasks t').Passed → t = t') ∧
    (p.daemon.milestones.count .alert ≤ 1 ∧ p.daemon.milestones.count .pause ≤ 1 ∧
      p.daemon.milestones.count .send ≤ 1) ∧
    ∀ l₁ l₂ registered, p.daemon.events = l₁ ++ .state .handoverComplete registered :: l₂ →
      ∃ ack, .acked ack ∈ l₁ := by
  obtain ⟨n, hd, -⟩ := driven_run hr
  have hlife : NodeLifecycleState.lifecycle.Nodup := by decide
  refine ⟨⟨hd.states_prefix, hlife.sublist hd.states_prefix.sublist, hd.state_last⟩,
    fun t t' => (driven_run hr).passed_unique, ⟨hd.count_le _, hd.count_le _, hd.count_le _⟩, ?_⟩
  · intro l₁ l₂ registered hevents
    have hbefore := hd.before hevents rfl
    have hacked : Milestone.acked ∈ l₁.filterMap DaemonEvent.milestone := by
      rw [hbefore]
      decide
    obtain ⟨e, he, hmile⟩ := List.mem_filterMap.mp hacked
    cases e with
    | acked ack => exact ⟨ack, he⟩
    | _ => cases hmile

/-! ### Two notices -/

/-- Two notices come at once; the first call does not get past the sending. -/
def twoNotices : List DaemonLabel :=
  [.trigger 0 { provider := "aws" }, .trigger 1 { provider := "runpod" }, .resume 1 {},
    .resume 0 {}, .resume 1 { reply := .status 503 }, .resume 1 {},
    .resume 1 { reply := .error .timeoutError }, .resume 1 {},
    .resume 1 { reply := .error (.p2pConnectionFailedError "refused") }, .resume 1 {}]

/-- The second notice is ignored, and the node stays in STATE_STREAMING. -/
theorem DaemonSystem.onPreemption_once_twoNotices : ∃ p,
    Machine.run step (new "node" "http://proxy") twoNotices = some p ∧
      p.tasks 0 = .ignored ∧ p.tasks 1 = .raised (.p2pConnectionFailedError "refused") ∧
      p.daemon.states = [.healthy, .preemptionDetected, .bufferingIngress, .stateStreaming] ∧
      p.daemon.states.Nodup := by
  obtain ⟨p, hp, h0, h1, hs⟩ : ∃ p,
      Machine.run step (new "node" "http://proxy") twoNotices = some p ∧
        p.tasks 0 = .ignored ∧ p.tasks 1 = .raised (.p2pConnectionFailedError "refused") ∧
        p.daemon.states = [.healthy, .preemptionDetected, .bufferingIngress, .stateStreaming] :=
    ⟨_, rfl, rfl, rfl, rfl⟩
  have h := onPreemption_once hp
  exact ⟨p, hp, h0, h1, hs, h.1.2.1⟩

end Sgm
