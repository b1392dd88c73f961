/-
# A handover can be completed

Where nothing is altered and the standby runs, a node that has called
`send_sessions` can be brought to TERMINATED by steps of its own connection and
of the callback alone, and then of the call that has waited for them, whatever
the others have done. Each such step uses up
some of what the connection has still to do, or a session that the callback has
still to take up; the weight of the first is more than all of the second.

Key definitions: `Fleet.Sending`, `Fleet.effort`, `Fleet.acknowledge`.
Key theorems: `Fleet.exists_acknowledged`, `Fleet.exists_complete`.
-/
import Sgm.Core.Fleet

namespace Sgm

namespace Fleet

variable {env : FleetEnv} {standbyId : String} {n t : ℕ} {sessions : List InferenceSession}
  {event : PreemptionEvent} {f g : Fleet}

/-- Task `t` of node `n` is in `send_sessions`, and nothing hinders it. -/
structure Sending (env : FleetEnv) (standbyId : String) (n : ℕ) (sessions : List InferenceSession)
    (d : DaemonSystem) (f : Fleet) : Prop where
  inv : Inv env f standbyId
  node : f.nodes n = d
  called : f.called n = true
  running : f.p2p.server.running = true
  handover : ∃ w r out, Handover env.p2p (standbyServer standbyId) n (call env n sessions) True
    (f.p2p.conns n) w r out

/-- The steps of connection `n` that are no failures, and those of its callback. -/
def Own (n : ℕ) : FleetLabel → Prop
  | .transport l => l.Clean n
  | .callback c _ => c = n
  | _ => False

/-- What is still to do for a handover of `k` sessions. -/
def effort (n k : ℕ) (f : Fleet) : ℕ :=
  (k + 1) * (f.p2p.conns n).effort + ((f.adopting n).elim 0 List.length)

/-- What hinders no call of node `n` with these sessions. -/
structure Clear (env : FleetEnv) (standbyId : String) (n : ℕ) (sessions : List InferenceSession) :
    Prop where
  loads : (call env n sessions).Loads env.p2p (standbyServer standbyId) n
  unhindered : (call env n sessions).Unhindered env.p2p (standbyServer standbyId) n
  intact : ∀ i < (call env n sessions).total, ¬ (call env n sessions).Altered env.p2p n i
  ackFits : (call env n sessions).AckFits env.p2p (standbyServer standbyId) n

section
variable {d : DaemonSystem} {a : FleetLabel}

theorem Sending.transport (h : Sending env standbyId n sessions d f)
    (hc : Clear env standbyId n sessions) {l : P2PLabel} {p : P2P}
    (hp : f.p2p.step env.p2p l = some p) (hl : l.Clean n) (hg : Inv env g standbyId)
    (hgp : g.p2p = p) (hgn : g.nodes = f.nodes) (hgc : g.called = f.called) :
    Sending env standbyId n sessions d g where
  inv := hg
  node := by rw [hgn, h.node]
  called := by rw [hgc, h.called]
  running := by rw [hgp]; exact P2P.step_running hl hp h.running
  handover := by
    obtain ⟨w, r, out, hh⟩ := h.handover
    rw [hgp]
    by_cases hconn : l.conn = some n
    · exact hh.step h.inv.same hc.loads (fun _ => ⟨hc.unhindered, h.running, hl⟩) hconn hp
    · rw [P2P.step_other hconn hp]
      exact ⟨w, r, out, hh⟩

/-- An own step leaves the node sending. -/
theorem Sending.step (h : Sending env standbyId n sessions d f)
    (hc : Clear env standbyId n sessions) (hs : f.step env a = some g) (ha : Own n a) :
    Sending env standbyId n sessions d g := by
  have hinv := h.inv.step hs
  cases Stepped.of_step hs with
  | quiet | answered | sent | abandoned | standby => exact ha.elim
  | moved _ hp => exact h.transport hc hp ha hinv rfl rfl rfl
  | served hp =>
    refine h.transport hc hp ha hinv (invoke_p2p _) (invoke_nodes _) ?_
    unfold invoke
    split <;> rfl
  | tookUp => exact ⟨hinv, h.node, h.called, h.running, h.handover⟩

/-- Until sender and handler are done, there is an own step that uses up some
effort. -/
theorem Sending.exists_step (h : Sending env standbyId n sessions d f)
    (hc : Clear env standbyId n sessions) (hd : ¬ (f.p2p.conns n).done) :
    ∃ a g, f.step env a = some g ∧ Own n a ∧ g.effort n sessions.length < f.effort n sessions.length := by
  obtain ⟨w, r, out, hh⟩ := h.handover
  obtain ⟨l, hconn, hclean, hsome⟩ := hh.enabled hc.loads hd
  obtain ⟨p, hp⟩ := Option.isSome_iff_exists.mp hsome
  obtain ⟨w', r', out', hh'⟩ := hh.step h.inv.same hc.loads
    (fun _ => ⟨hc.unhindered, h.running, hclean⟩) hconn hp
  have hless : (p.conns n).effort < (f.p2p.conns n).effort := hh.effort_lt hh' hconn hp
  have hweight : (sessions.length + 1) * (p.conns n).effort + sessions.length <
      (sessions.length + 1) * (f.p2p.conns n).effort := by
    calc (sessions.length + 1) * (p.conns n).effort + sessions.length
        < (sessions.length + 1) * (p.conns n).effort + (sessions.length + 1) := by omega
      _ = (sessions.length + 1) * ((p.conns n).effort + 1) := by ring
      _ ≤ (sessions.length + 1) * (f.p2p.conns n).effort := Nat.mul_le_mul_left _ hless
  by_cases hwait : l = .gathered n ∧ f.adopting n ≠ some []
  · -- the handler waits for the callback, which has a session to take up
    obtain ⟨rfl, hne⟩ := hwait
    have hpoint : (f.p2p.conns n).handler.point = .gathering := by
      cases P2P.stepped rfl hp with
      | gathered hpoint => exact hpoint
    have htakes := h.inv.takes n
    cases hadopt : f.adopting n with
    | none =>
      rw [hadopt] at htakes
      cases htakes with
      | waiting _ hno _ => exact absurd hpoint hno
    | some rest =>
      cases rest with
      | nil => exact absurd hadopt hne
      | cons s rest =>
        have hstep : f.step env (.callback n 0) = some { f with
            standby := { f.standby with daemon := f.standby.daemon.registerSession s }
            adopting := Function.update f.adopting n (some rest)
            takeovers := f.takeovers ++ [⟨n, s, s.ready 0⟩] } := by
          simp only [Fleet.step, hadopt]
          rfl
        refine ⟨_, _, hstep, rfl, ?_⟩
        simp [effort, hadopt]
  · have hallows : f.allows l = true := by
      cases l with
      | connect m | connectFails m text =>
        obtain rfl : m = n := Option.some.inj hconn
        exact h.called
      | gathered m =>
        obtain rfl : m = n := Option.some.inj hconn
        by_contra hno
        exact hwait ⟨rfl, by simpa [allows] using hno⟩
      | _ => rfl
    have hbound (g : Fleet) (hgp : g.p2p = p) (hga : g.adopting n = f.adopting n ∨
        ∃ rest, g.adopting n = some rest ∧ rest.length ≤ sessions.length) :
        g.effort n sessions.length < f.effort n sessions.length := by
      unfold effort
      rw [hgp]
      rcases hga with hga | ⟨rest, hga, hle⟩
      · rw [hga]
        omega
      · rw [hga]
        simp only [Option.elim_some]
        omega
    by_cases hserve : l = .serve n
    · subst hserve
      refine ⟨.transport (.serve n), f.invoke n p, ?_, hclean, hbound _ (invoke_p2p p) ?_⟩
      · simp only [Fleet.step, hallows, if_true, hp]
        rfl
      · unfold invoke
        split
        · rename_i hgather
          refine Or.inr ⟨_, Function.update_self _ _ _, ?_⟩
          obtain ⟨hflight, -, -, -, hfin⟩ := hh'.served.of_gathering hgather
          rw [hflight, hfin.all, SendSessions.ingested_total]
          have hle : ((call env n sessions).ingested env.p2p n
              ((call env n sessions).sessions.length + 1)).length ≤ (call env n sessions).sessions.length :=
            SendSessions.length_ingested_le le_rfl
          exact hle
        · exact Or.inl rfl
    · refine ⟨.transport l, { f with p2p := p }, ?_, hclean, hbound _ rfl (Or.inl rfl)⟩
      simp only [Fleet.step, hallows, if_true, hp]
      cases l with
      | serve m =>
        obtain rfl : m = n := Option.some.inj hconn
        exact absurd rfl hserve
      | _ => rfl

/-- A call that nothing hinders can be brought to its acknowledgement. -/
theorem exists_acknowledged (h : Sending env standbyId n sessions d f)
    (hc : Clear env standbyId n sessions) :
    ∃ as g ack, Machine.run (Fleet.step env) f as = some g ∧ (∀ a ∈ as, Own n a) ∧
      g.nodes n = d ∧ (g.p2p.conns n).client = .returned ack := by
  obtain ⟨as, g, hr, hown, hdone⟩ : ∃ as g, Machine.run (Fleet.step env) f as = some g ∧
      Machine.Along (Fleet.step env) (fun _ a _ => Own n a) f as ∧ (g.p2p.conns n).done :=
    Machine.exists_run_of_measure (I := fun f => Sending env standbyId n sessions d f)
      (effort n sessions.length) (fun _ _ _ h hs ha => h.step hc hs ha)
      (fun _ h hd => h.exists_step hc hd) f h
  have hg : Sending env standbyId n sessions d g :=
    Machine.run_inv_along (I := fun f => Sending env standbyId n sessions d f)
      (fun _ _ _ h hs ha => h.step hc hs ha) h hown hr
  obtain ⟨w, r, out, hh⟩ := hg.handover
  rcases hh.of_ended hdone.1 with ⟨ack, hack⟩ | ⟨e, he, hrej | hlong⟩
  · exact ⟨as, g, ack, hr, hown.labels hr, hg.node, hack⟩
  · obtain ⟨i, hi, ha⟩ := (hh.raised e he).1 hrej
    exact absurd ha (hc.intact i hi)
  · exact absurd hc.ackFits hlong.2

end

end Fleet

/-- After an acknowledgement, with no hook that raises, only the resources are
still to be freed. -/
theorem NodeDaemon.OnCourse.acked {d : NodeDaemon} (h : d.OnCourse 7) (event : PreemptionEvent)
    (reply : Awaited) : d.enterHandoverComplete event { reply := reply } =
      ((d.moved .handoverComplete).moved .terminated, .tearingDown) := by
  have hstate : d.state ≠ .handoverComplete := by
    rw [h.state_eq]
    decide
  have hlock : (d.moved .handoverComplete).stateLock = false := h.lock
  have hlast : (d.moved .handoverComplete).state ≠ .terminated := fun he => by cases he
  unfold NodeDaemon.enterHandoverComplete
  rw [NodeDaemon.setState_of_free h.lock hstate]
  simp only [NodeDaemon.enterTerminated]
  rw [NodeDaemon.setState_of_free hlock hlast]

namespace Fleet

variable {env : FleetEnv} {standbyId : String} {n t : ℕ} {sessions : List InferenceSession}
  {event : PreemptionEvent} {f g : Fleet}

/-- Task `t` of node `n` goes on with the acknowledgement, and when the resources
are freed. -/
def acknowledge (n t : ℕ) (ack : HandoverAck) : List FleetLabel :=
  [.node n (.resume t { reply := .ack ack }), .node n (.resume t {})]

/-- A node whose call of `send_sessions` has returned can come to TERMINATED. -/
theorem exists_terminated (hinv : Inv env f standbyId) (hn : n < env.size)
    (ht : (f.nodes n).tasks t = .sending sessions event) {ack : HandoverAck}
    (hack : (f.p2p.conns n).client = .returned ack) :
    ∃ g, Machine.run (Fleet.step env) f (acknowledge n t ack) = some g ∧
      (g.nodes n).tasks t = .returned ∧ (g.nodes n).daemon.state = .terminated ∧
      (g.nodes n).daemon.events = (f.nodes n).daemon.events ++
        [.acked ack, .state .handoverComplete (f.nodes n).daemon.activeSessions.keys,
          .state .terminated (f.nodes n).daemon.activeSessions.keys] := by
  obtain ⟨m, hm, hat, -⟩ := (hinv.driven n).owner (t := t) (by rw [ht]; trivial)
  obtain rfl : m = 6 := by rwa [ht] at hat
  have hlog : ((f.nodes n).daemon.log (.acked ack)).OnCourse 7 := hm.log rfl rfl rfl
  -- the call is resumed with the acknowledgement, and when the resources are freed
  let x := (((f.nodes n).daemon.log (.acked ack)).moved .handoverComplete).moved .terminated
  let d₁ := (f.nodes n).put t (x, .tearingDown)
  let d₂ := d₁.put t (x, .returned)
  have h₁ : (f.nodes n).step (.resume t { reply := .ack ack }) = some d₁ := by
    simp only [DaemonSystem.step, ht, NodeDaemon.resume, hlog.acked]
    rfl
  have h₂ : d₁.step (.resume t {}) = some d₂ := by
    simp only [DaemonSystem.step, d₁, DaemonSystem.put_tasks_self, NodeDaemon.resume]
    rfl
  have hf₁ : f.step env (.node n (.resume t { reply := .ack ack })) = some (f.setNode n d₁) := by
    simp only [Fleet.step, if_pos hn, h₁, Option.bind_some, dispatch, ht, outcome, hack]
    simp
  have hf₂ : (f.setNode n d₁).step env (.node n (.resume t {})) =
      some ((f.setNode n d₁).setNode n d₂) := by
    simp only [Fleet.step, if_pos hn, setNode_self, h₂, Option.bind_some, dispatch]
    simp [d₁, d₂]
  refine ⟨_, Machine.run_cons_eq_some.mpr ⟨_, hf₁, Machine.run_cons_eq_some.mpr ⟨_, hf₂, rfl⟩⟩, ?_⟩
  rw [setNode_self]
  have hevents : d₂.daemon.events = (f.nodes n).daemon.events ++ [.acked ack] ++ [_] ++ [_] := rfl
  refine ⟨DaemonSystem.put_tasks_self _ _ _, rfl, hevents.trans ?_⟩
  rw [List.append_assoc, List.append_assoc]
  rfl

/-- A node that has just called `send_sessions`, while the standby runs. -/
theorem sending_of_called (hinv : Inv env f standbyId) (hn : n < env.size)
    (ht : (f.nodes n).tasks t = .sending sessions event)
    (hk : f.p2p.conns n = { call := call env n sessions, client := .connecting })
    (hrun : f.p2p.server.running = true) : Sending env standbyId n sessions (f.nodes n) f := by
  have hcalled : f.called n = true := by
    cases hinv.linked n hn with
    | waiting _ _ hw => exact absurd ht (hw t sessions event)
    | called _ hc => exact hc
  exact ⟨hinv, rfl, hcalled, hrun, 0, 0, [], hk ▸ handover_new⟩

/-- The sessions of a call of `send_sessions`. -/
def sentSessions : DaemonEvent → Option (List InferenceSession)
  | .send sessions => some sessions
  | _ => none

/-- One node beside the standby, and nothing is altered. -/
def sampleFleet : FleetEnv where
  p2p := sampleEnv (.flip fun _ => false)
  size := 1

/-- Two sessions are registered, a notice comes, the proxy is told, the engine
paused, and the standby is running. -/
def toSend : List FleetLabel :=
  [.node 0 (.registerSession sampleA), .node 0 (.registerSession sampleB), .transport .start,
    .node 0 (.trigger 0 { provider := "aws" }), .node 0 (.resume 0 {}), .node 0 (.resume 0 {}),
    .node 0 (.resume 0 {}), .node 0 (.resume 0 {}), .node 0 (.resume 0 {})]

theorem sample_clear : Clear sampleFleet "node-standby" 0 [sampleA, sampleB] where
  loads := ⟨(sample_loads (.flip fun _ => false)).session, nofun, ackCodec_keeps⟩
  unhindered :=
    ⟨fun _ hi => (sample_body (.flip fun _ => false) hi).2, fun i hi ha => absurd ha (sample_intact i hi),
      fun i hi ha => absurd ha (sample_intact i hi), initCodec_keeps, sample_intact 3 (by decide)⟩
  intact := sample_intact
  ackFits := sample_ackFits

theorem toSend_run : ∃ f, Machine.run (Fleet.step sampleFleet) (new sampleFleet "node-standby") toSend = some f ∧
    (f.nodes 0).tasks 0 = .sending [sampleA, sampleB] { provider := "aws" } ∧
    f.p2p.conns 0 = { call := call sampleFleet 0 [sampleA, sampleB], client := .connecting } ∧
    f.p2p.server.running = true ∧
    (f.nodes 0).daemon.events.filterMap sentSessions = [[sampleA, sampleB]] :=
  ⟨_, rfl, rfl, rfl, rfl, rfl⟩

/-- The node of the sample comes to TERMINATED. -/
theorem sample_completes : ∃ ls f,
    Machine.run (Fleet.step sampleFleet) (new sampleFleet "node-standby") ls = some f ∧
      (f.nodes 0).daemon.Complete ∧
      ∀ sessions, .send sessions ∈ (f.nodes 0).daemon.events → sessions = [sampleA, sampleB] := by
  obtain ⟨f, hr, ht, hk, hrun, hevents⟩ := toSend_run
  have hinv := inv_run hr
  obtain ⟨as, g, ack, hrg, -, hnode, hack⟩ :=
    exists_acknowledged (sending_of_called hinv (by decide) ht hk hrun) sample_clear
  have hrg := Machine.run_append_eq_some.mpr ⟨f, hr, hrg⟩
  obtain ⟨g', hrg', -, hstate, hlog⟩ :=
    exists_terminated (inv_run hrg) (by decide) (hnode ▸ ht) hack
  refine ⟨_, g', Machine.run_append_eq_some.mpr ⟨g, hrg, hrg'⟩, Or.inr hstate, fun sessions hs => ?_⟩
  have hmem : .send sessions ∈ (f.nodes 0).daemon.events := by
    rw [hlog, hnode] at hs
    simpa using hs
  have hsent? : sessions ∈ (f.nodes 0).daemon.events.filterMap sentSessions :=
    List.mem_filterMap.mpr ⟨_, hmem, rfl⟩
  rw [hevents] at hsent?
  exact List.mem_singleton.mp hsent?

theorem sample_loaded {f : Fleet}
    (h : ∀ sessions, .send sessions ∈ (f.nodes 0).daemon.events → sessions = [sampleA, sampleB])
    (sessions : List InferenceSession) (hs : .send sessions ∈ (f.nodes 0).daemon.events) :
    (call sampleFleet 0 sessions).Loads sampleFleet.p2p (standbyServer "node-standby") 0 := by
  rw [h sessions hs]
  exact sample_clear.loads

/-- Both sessions are announced. -/
theorem handover_complete_two : ∃ ls f,
    Machine.run (Fleet.step sampleFleet) (new sampleFleet "node-standby") ls = some f ∧
      f.taken 0 = [sampleA, sampleB] ∧ f.announced 0 = [("req-a", 0), ("req-b", 0)] := by
  obtain ⟨ls, f, hr, hdone, hsent⟩ := sample_completes
  obtain ⟨sessions, ack, hs, -, -, htaken, hann, -⟩ :=
    handover_complete hr (by decide) hdone (sample_loaded hsent)
  obtain rfl := hsent sessions hs
  exact ⟨ls, f, hr, htaken, hann⟩

theorem taken_sublist_two : ∃ ls f,
    Machine.run (Fleet.step sampleFleet) (new sampleFleet "node-standby") ls = some f ∧
      (f.nodes 0).daemon.Complete ∧ (f.taken 0 = [] ∨ ∃ sessions,
        .send sessions ∈ (f.nodes 0).daemon.events ∧ (f.taken 0).Sublist sessions) := by
  obtain ⟨ls, f, hr, hdone, hsent⟩ := sample_completes
  exact ⟨ls, f, hr, hdone, taken_sublist hr (by decide) (sample_loaded hsent)⟩

end Fleet
end Sgm
