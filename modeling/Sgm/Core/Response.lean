/-
# The response of a client through a preemption

The daemon of a node tells the proxy of the preemption before it stops its
engine. So if the alert is not lost, and the engine breaks off no stream before
it is told to, the proxy knows of the preemption by then: the response of the
client is whole, whatever becomes of the transfer between the nodes.

Key definitions: `NodeDaemon.Stopping`, `Cluster.Heard`, `Cluster.Stopped`.
Key theorems: `DaemonSystem.stopping_of_step`, `Cluster.Told.step`, `Cluster.response_whole`.
-/
import Sgm.Core.Cluster
import Sgm.Core.Completion
import Sgm.Proxy.Assured

namespace Sgm

/-! ### A daemon that stops its engine -/

/-- A call to the engine: to abort a request, or to pause. -/
def DaemonEvent.toEngine : DaemonEvent → Bool
  | .abort _ | .pause => true
  | _ => false

/-- An event from the entry into BUFFERING_INGRESS to the pause. -/
def DaemonEvent.stopping : DaemonEvent → Bool
  | .state .bufferingIngress _ | .abort _ | .pause => true
  | _ => false

namespace NodeDaemon

variable {d : NodeDaemon} {n : ℕ} {event : PreemptionEvent} {wake : Wakeup}

/-- The daemon is in BUFFERING_INGRESS or has been. -/
def Stopping (d : NodeDaemon) : Prop := ∃ e ∈ d.events, e.stopping = true

/-- The daemon has told its engine to abort a request, or to pause. -/
def ToldEngine (d : NodeDaemon) : Prop := ∃ e ∈ d.events, e.toEngine = true

instance (d : NodeDaemon) : Decidable d.ToldEngine :=
  inferInstanceAs (Decidable (∃ e ∈ d.events, e.toEngine = true))

theorem ToldEngine.stopping (h : d.ToldEngine) : d.Stopping := by
  obtain ⟨e, he, ht⟩ := h
  refine ⟨e, he, ?_⟩
  cases e with
  | abort _ | pause => rfl
  | _ => cases ht

/-- Past the alert, BUFFERING_INGRESS has been entered. -/
theorem OnCourse.stopping (h : d.OnCourse n) (hn : 3 ≤ n) : d.Stopping := by
  have hmem : Milestone.state .bufferingIngress ∈ d.milestones :=
    (h.mem_iff (show course[2]? = some (.state .bufferingIngress) from rfl)).mpr hn
  obtain ⟨e, he, hm⟩ := List.mem_filterMap.mp hmem
  refine ⟨e, he, ?_⟩
  cases e with
  | state new registered =>
    obtain rfl : new = .bufferingIngress := by simpa [DaemonEvent.milestone] using hm
    rfl
  | _ => simp [DaemonEvent.milestone] at hm

theorem not_stopping_log (h : ¬ d.Stopping) {e : DaemonEvent} (he : e.stopping = false) :
    ¬ (d.log e).Stopping := by
  rintro ⟨e', hmem, hs⟩
  rcases List.mem_append.mp hmem with hmem | hmem
  · exact h ⟨e', hmem, hs⟩
  · obtain rfl := List.mem_singleton.mp hmem
    rw [he] at hs
    cases hs

theorem not_stopping_notify (h : ¬ d.Stopping) : ¬ (d.notifyProxyPreemption event wake).1.Stopping :=
  not_stopping_log h rfl

/-- The beginning of a call, up to the alert. -/
theorem OnCourse.not_stopping_enter (hd : d.OnCourse 0) (h : ¬ d.Stopping) :
    ¬ (d.enterPreemptionDetected event wake).1.Stopping := by
  have hmoved : ¬ (d.moved .preemptionDetected).Stopping :=
    not_stopping_log (d := { d with state := .preemptionDetected }) h rfl
  obtain ⟨-, hset | ⟨e, hset⟩⟩ := hd.setState rfl (by decide) wake.onStateChange
  · unfold NodeDaemon.enterPreemptionDetected
    rw [hset]
    dsimp only
    split
    · exact hmoved
    · exact not_stopping_notify hmoved
  · unfold NodeDaemon.enterPreemptionDetected
    rw [hset]
    exact hmoved

/-- A call that waits for the proxy's list goes no further than the alert. -/
theorem not_stopping_sync (h : ¬ d.Stopping) {point : PreemptionPoint}
    (hp : point = .syncing event ∨ point = .readingSync event ∨ point = .leavingSync event)
    {x : NodeDaemon × PreemptionPoint} (hx : d.resume point wake = some x) : ¬ x.1.Stopping := by
  rcases hp with rfl | rfl | rfl
  · cases hreply : wake.reply with
    | status code =>
      simp only [resume, hreply, Option.some.injEq] at hx
      exact hx ▸ h
    | error e =>
      simp only [resume, hreply, Option.some.injEq] at hx
      exact hx ▸ not_stopping_notify h
    | _ => simp only [resume, hreply, reduceCtorEq] at hx
  · cases hreply : wake.reply with
    | body requests =>
      simp only [resume, hreply, Option.some.injEq] at hx
      obtain ⟨sessions, he⟩ := d.syncSessions_eq requests
      rw [← hx, he]
      exact h
    | error e =>
      simp only [resume, hreply, Option.some.injEq] at hx
      exact hx ▸ h
    | _ => simp only [resume, hreply, reduceCtorEq] at hx
  · cases hreply : wake.reply with
    | ok | error e =>
      simp only [resume, hreply, Option.some.injEq] at hx
      exact hx ▸ not_stopping_notify h
    | _ => simp only [resume, hreply, reduceCtorEq] at hx

end NodeDaemon

namespace DaemonSystem

variable {p q : DaemonSystem} {l : DaemonLabel}

/-- BUFFERING_INGRESS is entered when the post of the alert has returned. -/
theorem stopping_of_resume (h : p.Driven) {t : ℕ} {wake : Wakeup} {x : NodeDaemon × PreemptionPoint}
    (hx : p.daemon.resume (p.tasks t) wake = some x) (hn : ¬ p.daemon.Stopping)
    (hs : x.1.Stopping) : ∃ event, p.tasks t = .notifying event := by
  by_cases hpass : (p.tasks t).Passed
  · obtain ⟨n, hd, hat, -⟩ := h.owner hpass
    have hlt : n < 3 := by
      by_contra hge
      exact hn (hd.stopping (not_lt.mp hge))
    cases hpt : p.tasks t with
    | notifying event => exact ⟨event, rfl⟩
    | syncing event =>
      rw [hpt] at hx
      exact absurd hs (NodeDaemon.not_stopping_sync hn (Or.inl rfl) hx)
    | readingSync event =>
      rw [hpt] at hx
      exact absurd hs (NodeDaemon.not_stopping_sync hn (Or.inr (Or.inl rfl)) hx)
    | leavingSync event =>
      rw [hpt] at hx
      exact absurd hs (NodeDaemon.not_stopping_sync hn (Or.inr (Or.inr rfl)) hx)
    | raised e | cancelled =>
      rw [hpt] at hx
      simp only [NodeDaemon.resume, reduceCtorEq] at hx
    | acquiring new event => exact absurd hpt (h.not_acquiring t new event)
    | idle | called | ignored | dropped =>
      rw [hpt] at hpass
      exact hpass.elim
    | _ =>
      rw [hpt] at hat
      simp only [PreemptionPoint.At] at hat
      omega
  · cases hpt : p.tasks t with
    | called event =>
      rw [hpt] at hx
      cases hreply : wake.reply with
      | ok =>
        simp only [NodeDaemon.resume, hreply, Option.some.injEq] at hx
        unfold NodeDaemon.onPreemption at hx
        split at hx
        · rw [← hx] at hs
          exact absurd hs hn
        · rename_i hstate
          obtain ⟨n, hd, -⟩ := h
          obtain rfl := hd.eq_zero (not_not.mp hstate)
          rw [← hx] at hs
          exact absurd hs (hd.not_stopping_enter hn)
      | _ => simp only [NodeDaemon.resume, hreply, reduceCtorEq] at hx
    | idle | ignored | dropped =>
      rw [hpt] at hx
      simp only [NodeDaemon.resume, reduceCtorEq] at hx
    | _ => exact absurd (by rw [hpt]; trivial) hpass

theorem stopping_of_step (h : p.Driven) (hp : p.step l = some q) (hs : q.daemon.Stopping) :
    p.daemon.Stopping ∨ ∃ t wake event, l = .resume t wake ∧ p.tasks t = .notifying event := by
  by_contra hno
  rw [not_or] at hno
  obtain ⟨hn, hno⟩ := hno
  have hsame : q.daemon.events ≠ p.daemon.events := fun he => hn (by
    unfold NodeDaemon.Stopping at hs ⊢
    rwa [← he])
  cases l with
  | resume t wake =>
    obtain ⟨x, hx, rfl⟩ := Option.map_eq_some_iff.mp hp
    obtain ⟨event, hpt⟩ := stopping_of_resume h hx hn hs
    exact hno ⟨t, wake, event, rfl, hpt⟩
  | trigger t event =>
    simp only [step] at hp
    split at hp
    · exact hsame (Option.some.inj hp ▸ rfl)
    · cases hp
  | cancel t =>
    obtain ⟨point, -, rfl⟩ := Option.map_eq_some_iff.mp hp
    exact hsame rfl
  | registerSession session | standbySession session | completeSession requestId =>
    exact hsame (Option.some.inj hp ▸ rfl)
  | updateSessionToken requestId tokenId tokenStr sequenceId =>
    refine hsame (Option.some.inj hp ▸ ?_)
    dsimp only [NodeDaemon.updateSessionToken]
    split <;> rfl

end DaemonSystem

/-! ### The alert comes before the stop -/

namespace Cluster

variable {env : ClusterEnv} {c c' : Cluster} {l : ClusterLabel} {n h : ℕ} {engine : MockLLMEngine}

/-- The alert of node `n` is not lost: also where its post times out, it has come in. -/
def Heard (n : ℕ) (c : Cluster) (l : ClusterLabel) : Prop :=
  ∀ t wake event e, l = .fleet (.node n (.resume t wake)) → wake.reply = .error e →
    (c.fleet.nodes n).tasks t = .notifying event → c.alerted (.node n) = true

/-- Where the stream of handler `h` breaks off, the engine of node `n` has been
told to stop. -/
def Stopped (n h : ℕ) (c : Cluster) : ClusterLabel → Prop
  | .proxy (.resume i) =>
    i = h → IngressProxy.BrokenOff h c.proxy → (c.fleet.nodes n).daemon.ToldEngine
  | _ => True

instance (n h : ℕ) (c : Cluster) : DecidablePred (c.Stopped n h)
  | .proxy (.resume i) => inferInstanceAs (Decidable (i = h → _ → _))
  | .fleet _ | .list _ _ | .alert _ | .ready _ => inferInstanceAs (Decidable True)
  | .proxy l => by cases l <;> unfold Stopped <;> infer_instance

/-- Who has stopped has been heard, and the proxy knows of the preemption. -/
structure Told (n : ℕ) (c : Cluster) : Prop where
  driven : (c.fleet.nodes n).Driven
  flag : ∀ x, c.alerted x = true → c.proxy.isPreemptionActive = true
  heard : (c.fleet.nodes n).daemon.Stopping → c.alerted (.node n) = true

theorem alerted_mono (hs : c.step env l = some c') {x : Peer} (hx : c.alerted x = true) :
    c'.alerted x = true := by
  rcases proxy_step hs with ⟨-, he⟩ | ⟨pl, -, ⟨y, payload, -, -, he⟩ | ⟨he, -⟩⟩
  · rw [he, hx]
  · rw [he, Function.update_apply]
    split
    · rfl
    · exact hx
  · rw [he, hx]

theorem Told.flag_step (ht : Told n c) (hs : c.step env l = some c') (x : Peer)
    (hx : c'.alerted x = true) : c'.proxy.isPreemptionActive = true := by
  have hkeep {pl : ProxyLabel} (hp : c.proxy.step env.proxy pl = some c'.proxy)
      (hf : c.proxy.isPreemptionActive = true) : c'.proxy.isPreemptionActive = true := by
    rcases (IngressProxy.Stepped.of_step hp).flag with he | ⟨-, he⟩
    · rw [he, hf]
    · exact he
  rcases proxy_step hs with ⟨hp, he⟩ | ⟨pl, hp, ⟨y, payload, -, rfl, -⟩ | ⟨he, -⟩⟩
  · rw [hp]
    exact ht.flag x (he ▸ hx)
  · obtain ⟨s, -, hq⟩ := (IngressProxy.Stepped.of_step hp).alert_inv
    rw [hq]
  · exact hkeep hp (ht.flag x (he ▸ hx))

theorem Told.step (ht : Told n c) (hs : c.step env l = some c') (hh : c.Heard n l) : Told n c' := by
  have hold : c.alerted (.node n) = true → c'.alerted (.node n) = true := alerted_mono hs
  have hsame (he : c'.fleet.nodes n = c.fleet.nodes n) : Told n c' :=
    ⟨he ▸ ht.driven, ht.flag_step hs, fun hst => hold (ht.heard (he ▸ hst))⟩
  rcases fleet_step hs with hf | ⟨fl, rfl, hf⟩
  · exact hsame (by rw [hf])
  · rcases Fleet.node_step hf n with he | ⟨dl, rfl, hd⟩
    · exact hsame he
    · refine ⟨ht.driven.step hd, ht.flag_step hs, fun hst => hold ?_⟩
      rcases DaemonSystem.stopping_of_step ht.driven hd hst with hold | ⟨t, wake, event, rfl, hpt⟩
      · exact ht.heard hold
      · -- the post of the alert has returned, with a reply or without
        have hadm : c.replies (.node n) t wake.reply = true := by
          cases Stepped.of_step hs with
          | fleet ha _ => exact ha
        cases hreply : wake.reply with
        | ok => simpa only [replies, Fleet.peer, hpt, hreply] using hadm
        | error e => exact hh t wake event e rfl hreply hpt
        | _ =>
          obtain ⟨x, hx, -⟩ := Option.map_eq_some_iff.mp hd
          rw [hpt] at hx
          simp only [NodeDaemon.resume, hreply, reduceCtorEq] at hx

theorem told_new (n : ℕ) : Told n (new env) where
  driven := DaemonSystem.driven_new _ _
  flag _ hx := by cases hx
  heard hst := by
    obtain ⟨e, he, -⟩ := hst
    cases he

/-- A daemon that has told its engine to stop has told the proxy before. -/
theorem Told.flagged (ht : Told n c) (hd : (c.fleet.nodes n).daemon.ToldEngine) :
    c.proxy.isPreemptionActive = true :=
  ht.flag _ (ht.heard hd.stopping)

/-! ### The response -/

/-- The client of handler `h` sends this body and reads the response to its end. -/
def Reads (h : ℕ) (body : List (List Char × Json)) : ClusterLabel → Prop
  | .proxy l => l.Reads h body
  | _ => True

variable {body : List (List Char × Json)} {reader : LineReader} {limit pause m : ℕ}

theorem assured_step (hbody : Completion body m)
    (he : env.proxy.Engines reader limit h body engine (rstripSlash env.activeUrl)
      (rstripSlash env.standbyUrl) pause)
    (hm : engine.corpus.length ≤ m)
    (hp : IngressProxy.Assured env.proxy h engine (rstripSlash env.activeUrl)
      (rstripSlash env.standbyUrl) body c.proxy)
    (hs : c.step env l = some c') (hl : Reads h body l) (hsole : IngressProxy.Sole h c'.proxy)
    (ht : Told n c) (hb : c.Stopped n h l) :
    IngressProxy.Assured env.proxy h engine (rstripSlash env.activeUrl) (rstripSlash env.standbyUrl)
      body c'.proxy := by
  rcases proxy_step hs with ⟨hsame, -⟩ | ⟨pl, hpl, hcase⟩
  · rw [hsame]
    exact hp
  · have hreads : pl.Reads h body := by
      rcases hcase with ⟨x, payload, -, rfl, -⟩ | ⟨-, -, rfl | ⟨data, rfl⟩⟩
      · trivial
      · exact hl
      · trivial
    refine IngressProxy.assured_step hbody he hm hp hpl hreads (fun data hdata => ?_) hsole ?_
    · rcases hcase with ⟨x, payload, -, rfl, -⟩ | ⟨-, hna, -⟩
      · obtain rfl := ProxyLabel.preemptionAlert.inj hdata
        exact ⟨_, payload.cutoffOf_toJson⟩
      · exact absurd hdata (hna data)
    · rintro rfl hbroken
      rcases hcase with ⟨x, payload, -, he, -⟩ | ⟨-, -, rfl | ⟨data, he⟩⟩
      · cases he
      · exact ht.flagged (hb rfl hbroken)
      · cases he

/-- **The response is whole.** However the proxy, the daemons, the transfer
between them and the other clients interleave, and whatever becomes of the
transfer: where the alert of node `n` is not lost, and the active engine breaks
off the stream only when node `n` has told it to stop, the response of a client
that reads on is the whole corpus when it ends, and can be brought to its end. -/
theorem response_whole {ls : List ClusterLabel} (hr : Machine.run (step env) (new env) ls = some c)
    (hbody : Completion body m)
    (he : env.proxy.Engines reader limit h body engine (rstripSlash env.activeUrl)
      (rstripSlash env.standbyUrl) pause)
    (hm : engine.corpus.length ≤ m) (hreads : ∀ l ∈ ls, Reads h body l)
    (hsole : Machine.Along (step env) (fun _ _ c => IngressProxy.Sole h c.proxy) (new env) ls)
    (hheard : Machine.Along (step env) (fun c l _ => c.Heard n l) (new env) ls)
    (hstopped : Machine.Along (step env) (fun c l _ => c.Stopped n h l) (new env) ls) :
    (∀ o, (c.proxy.system.generators h).point = .ended o → o = .completed ∧
      (c.proxy.system.generators h).delivered.map TokenChunk.token = engine.corpus ∧
      (c.proxy.system.generators h).items.filter (· ≠ .keepAlive) =
        (c.proxy.system.generators h).delivered.map .data ++ [.done]) ∧
    ((c.proxy.handlers h).point = .relaying → ∃ as c',
      Machine.run (step env) c as = some c' ∧
        (c'.proxy.system.generators h).point = .ended .completed) := by
  have hnew : IngressProxy.Assured env.proxy h engine (rstripSlash env.activeUrl)
      (rstripSlash env.standbyUrl) body (new env).proxy :=
    .unalerted rfl (IngressProxy.course_new _ _) (straight_of_absent rfl) List.not_mem_nil
  have halong := ((hheard.and hsole).and hstopped).and (Machine.Along.of_labels hreads)
  obtain ⟨-, hp⟩ := Machine.run_inv_along (I := fun c => Told n c ∧
      IngressProxy.Assured env.proxy h engine (rstripSlash env.activeUrl)
        (rstripSlash env.standbyUrl) body c.proxy)
    (fun c l c' hI hs hQ => ⟨hI.1.step hs hQ.1.1.1,
      assured_step hbody he hm hI.2 hs hQ.2 hQ.1.1.2 hI.1 hQ.1.2⟩) ⟨told_new n, hnew⟩ halong hr
  obtain ⟨hended, hcan⟩ := IngressProxy.assured_outcome hbody he hm hp
  refine ⟨hended, fun hrelay => ?_⟩
  obtain ⟨k, q, hq, hcompleted⟩ := hcan hrelay
  have hinternal : ∀ l ∈ (List.replicate k (IngressProxy.relayTick h)).flatten, internal l = false := by
    intro l hl
    rcases List.mem_pair.mp (IngressProxy.mem_ticks hl) with rfl | rfl <;> rfl
  obtain ⟨c', hc', hproxy⟩ := exists_proxy_run hinternal hq
  exact ⟨_, c', hc', by rw [hproxy]; exact hcompleted⟩

/-! ### A node that is preempted in the middle of a stream -/

/-- The fleet of two sessions, and two engines with one corpus. -/
def sampleCluster (pause : ℕ) : ClusterEnv where
  fleet := Fleet.sampleFleet
  proxy := IngressProxy.twoEngines pause
  activeUrl := "http://a"
  standbyUrl := "http://b"

/-- A request for two tokens. -/
def bothTokens : List (List Char × Json) :=
  [("request_id".toList, .text ['r']), ("max_tokens".toList, .int 2)]

theorem completion_bothTokens : Completion bothTokens 2 where
  stream := rfl
  requestId := rfl
  start := rfl
  maxTokens := rfl

/-- The request, as the daemon is told of it after a token. -/
def listedRequest : ActiveRequest where
  requestId := "r"
  prompt := some []
  lastFlushedSequenceId := some 0
  model := some "mock-llm"

/-- A stream with a token delivered, and a notice; the daemon asks for the active
requests, tells the proxy, and stops its engine. -/
def preemptedRun : List ClusterLabel :=
  [.proxy (.request 0), .proxy (.body 0 (some (.obj bothTokens))), .proxy (.prepared 0),
    .proxy (.resume 0), .fleet (.node 0 (.trigger 0 { provider := "aws" })),
    .fleet (.node 0 (.resume 0 {})), .list (.node 0) 0,
    .fleet (.node 0 (.resume 0 { reply := .status 200 })),
    .fleet (.node 0 (.resume 0 { reply := .body [some listedRequest] })),
    .fleet (.node 0 (.resume 0 {})), .alert (.node 0), .fleet (.node 0 (.resume 0 {})),
    .fleet (.node 0 (.resume 0 {}))]

/-- The standby does not come forward in time, and is asked for the rest. -/
def resumedRun : List ClusterLabel :=
  [.proxy (.resume 0), .proxy (.elapse 2600000000), .proxy (.resume 0), .proxy (.resume 0),
    .proxy (.resume 0), .proxy (.resume 0), .proxy (.resume 0), .proxy (.resume 0)]

end Cluster

/-- No daemon meets an error. -/
def ClusterLabel.answered : ClusterLabel → Bool
  | .fleet (.node _ (.resume _ wake)) =>
    match wake.reply with
    | .error _ => false
    | _ => true
  | _ => true

namespace Cluster

variable {env : ClusterEnv} {h : ℕ}

/-- A label about the request of handler `h` alone. -/
def About (h : ℕ) : ClusterLabel → Prop
  | .proxy l => IngressProxy.About h l
  | _ => True

theorem along_sole {ls : List ClusterLabel} (hl : ∀ l ∈ ls, About h l) :
    Machine.Along (step env) (fun _ _ c => IngressProxy.Sole h c.proxy) (new env) ls := by
  have hstep : ∀ c l c', IngressProxy.Alone h c.proxy → step env c l = some c' → About h l →
      IngressProxy.Alone h c'.proxy := by
    intro c l c' hp hs ha
    rcases proxy_step hs with ⟨he, -⟩ | ⟨pl, hpl, hcase⟩
    · rw [he]
      exact hp
    · refine IngressProxy.alone_step (.of_step hpl) ?_ hp
      rcases hcase with ⟨x, payload, -, rfl, -⟩ | ⟨-, -, rfl | ⟨data, rfl⟩⟩
      · trivial
      · exact ha
      · trivial
  refine Machine.Along.of_inv (I := fun c => IngressProxy.Alone h c.proxy) (Q := fun _ l _ => About h l)
    hstep ?_ (fun _ _ => ⟨rfl, rfl⟩) (Machine.Along.of_labels hl)
  exact fun c l c' hp hs ha => IngressProxy.sole_of_alone (hstep c l c' hp hs ha)

/-- The active engine stops after its first token, and the client gets both. -/
theorem response_whole_both : ∃ c,
    Machine.run (step (sampleCluster 1)) (new (sampleCluster 1)) (preemptedRun ++ resumedRun) = some c ∧
      (c.proxy.system.generators 0).point = .ended .completed ∧
      (c.proxy.system.generators 0).delivered.map TokenChunk.token = ["a", "b"] := by
  have hend : (Machine.run (step (sampleCluster 1)) (new (sampleCluster 1))
      (preemptedRun ++ resumedRun)).map (fun c => (c.proxy.system.generators 0).point) =
        some (.ended .completed) := by decide +kernel
  obtain ⟨c, hr, ho⟩ := Option.map_eq_some_iff.mp hend
  have hstopped : Machine.Along (step (sampleCluster 1)) (fun c l _ => c.Stopped 0 0 l)
      (new (sampleCluster 1)) (preemptedRun ++ resumedRun) := by decide +kernel
  have hheard : Machine.Along (step (sampleCluster 1)) (fun c l _ => c.Heard 0 l)
      (new (sampleCluster 1)) (preemptedRun ++ resumedRun) := by
    have hreply : ∀ l ∈ preemptedRun ++ resumedRun, l.answered = true := by decide
    refine (Machine.Along.of_labels hreply).mono fun c l _ hl t wake event e he herror _ => ?_
    rw [he, ClusterLabel.answered, herror] at hl
    cases hl
  refine ⟨c, hr, ho, ((response_whole hr completion_bothTokens (IngressProxy.engines_twoEngines 0 1 rfl)
    le_rfl ?_ (along_sole ?_) hheard hstopped).1 _ ho).2.1⟩
  · simp [preemptedRun, resumedRun, Reads, ProxyLabel.Reads]
  · simp [preemptedRun, resumedRun, About, IngressProxy.About]

end Cluster
end Sgm
