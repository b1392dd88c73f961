/-
# The cluster: the daemons and the proxy

The fleet of nodes with its standby, and the ingress proxy, joined by the
requests that the daemons make of the proxy: the list of its active requests,
the alert, and the announcements of the standby. A post comes in at the proxy
once at most, at any time after it has been sent, or never; a daemon gets a
reply only to what has come in, and an error at any time. The internal endpoints
are used by the daemons alone. `handle_handover_failed` changes nothing, so that
post is left out.

Key definitions: `Cluster`, `Cluster.step`, `Peer`, `Cluster.listing`.
Key theorems: `Cluster.proxy_step`, `Cluster.fleet_step`, `Cluster.fleet_run`.
-/
import Sgm.Core.Fleet
import Sgm.Proxy.Cleanup

namespace Sgm

/-! ### What goes over the internal endpoints -/

/-- `model_dump`. -/
def PreemptionAlertPayload.toJson (a : PreemptionAlertPayload) : Json :=
  .obj [("node_id".toList, .text a.nodeId.toList), ("provider".toList, .text a.provider.toList),
    ("deadline_seconds".toList, .float (.finite a.deadlineSeconds)),
    ("cutoff_sequence_id".toList, .int a.cutoffSequenceId),
    ("active_request_ids".toList, .arr (a.activeRequestIds.map fun id => .text id.toList)),
    ("timestamp_ns".toList, .int a.timestampNs)]

def HandoverReadyPayload.toJson (r : HandoverReadyPayload) : Json :=
  .obj [("request_id".toList, .text r.requestId.toList),
    ("starting_sequence_id".toList, .int r.startingSequenceId),
    ("resume_host".toList, .text r.resumeHost.toList), ("resume_port".toList, .int r.resumePort),
    ("timestamp_ns".toList, .int r.timestampNs)]

/-- An item of the list of the proxy, as a session is made of it; `none` where
the session refuses a field that is no string. -/
def ActiveRequest.received (r : IngressProxy.ActiveRequest) : Option ActiveRequest :=
  match r.prompt, r.model with
  | .str prompt, .str model => some {
      requestId := r.requestId
      prompt := some prompt
      lastFlushedSequenceId := some r.lastFlushedSequenceId
      model := some model }
  | _, _ => none

theorem PreemptionAlertPayload.cutoffOf_toJson (a : PreemptionAlertPayload) :
    IngressProxy.cutoffOf a.toJson = some a.cutoffSequenceId := rfl

theorem ActiveRequest.received_eq {r : IngressProxy.ActiveRequest} {s : ActiveRequest}
    (h : received r = some s) : s.session.requestId = r.requestId ∧
      s.session.lastFlushedSequenceId = r.lastFlushedSequenceId := by
  unfold received at h
  split at h
  · obtain rfl := Option.some.inj h
    exact ⟨rfl, rfl⟩
  · cases h

/-! ### The cluster -/

/-- A daemon that speaks to the proxy. -/
inductive Peer
  | node (n : ℕ)
  | standby
  deriving DecidableEq

def Fleet.peer (f : Fleet) : Peer → DaemonSystem
  | .node n => f.nodes n
  | .standby => f.standby

/-- The alert that a daemon has posted. -/
def NodeDaemon.posted (d : NodeDaemon) : Option PreemptionAlertPayload :=
  d.events.findSome? fun
    | .alert payload => some payload
    | _ => none

structure ClusterEnv where
  fleet : FleetEnv
  proxy : Env
  activeUrl : String := "http://127.0.0.1:8001"
  standbyUrl : String := "http://127.0.0.1:8002"
  standbyId : String := "node-standby"

structure Cluster where
  fleet : Fleet
  proxy : IngressProxy
  /-- what the proxy has answered to the GET of a call of `on_preemption` -/
  listed : Peer → ℕ → Option (List (Option ActiveRequest)) := fun _ _ => none
  /-- whose alert has come in -/
  alerted : Peer → Bool := fun _ => false
  /-- which announcements have come in -/
  readied : ℕ → Bool := fun _ => false

inductive ClusterLabel
  | fleet (l : FleetLabel)
  | proxy (l : ProxyLabel)
  /-- the proxy handles the GET of call `t` -/
  | list (x : Peer) (t : ℕ)
  /-- the proxy handles the alert of a daemon -/
  | alert (x : Peer)
  /-- the proxy handles the `i`-th announcement of the standby -/
  | ready (i : ℕ)

namespace Cluster

def new (env : ClusterEnv) : Cluster where
  fleet := Fleet.new env.fleet env.standbyId
  proxy := IngressProxy.new env.activeUrl env.standbyUrl

variable (env : ClusterEnv) (c : Cluster)

/-- The reply of the proxy to a daemon is one that it has given. -/
def replies (x : Peer) (t : ℕ) (reply : Awaited) : Bool :=
  match (c.fleet.peer x).tasks t, reply with
  | .syncing _, .status code => (c.listed x t).isSome && decide (code = 200)
  | .readingSync _, .body requests => decide (c.listed x t = some requests)
  | .notifying _, .ok => c.alerted x
  | _, _ => true

def admits : FleetLabel → Bool
  | .node n (.resume t wake) => c.replies (.node n) t wake.reply
  | .standby (.resume t wake) => c.replies .standby t wake.reply
  | _ => true

/-- A request to an internal endpoint. -/
def internal : ProxyLabel → Bool
  | .preemptionAlert _ | .handoverReady _ => true
  | _ => false

/-- What the daemon that asks for the active requests makes of the answer. -/
def listing : List (Option ActiveRequest) :=
  (IngressProxy.handleGetActiveRequests env.proxy c.proxy).map ActiveRequest.received

def step (c : Cluster) : ClusterLabel → Option Cluster
  | .fleet l =>
    if c.admits l then (c.fleet.step env.fleet l).map fun f => { c with fleet := f } else none
  | .proxy l =>
    if internal l then none else (c.proxy.step env.proxy l).map fun p => { c with proxy := p }
  | .list x t =>
    match (c.fleet.peer x).tasks t, c.listed x t with
    | .syncing _, none =>
      some { c with
        listed := Function.update c.listed x (Function.update (c.listed x) t (some (c.listing env))) }
    | _, _ => none
  | .alert x =>
    match (c.fleet.peer x).daemon.posted, c.alerted x with
    | some payload, false =>
      (c.proxy.step env.proxy (.preemptionAlert payload.toJson)).map fun p =>
        { c with proxy := p, alerted := Function.update c.alerted x true }
    | _, _ => none
  | .ready i =>
    match c.fleet.takeovers[i]?, c.readied i with
    | some x, false =>
      (c.proxy.step env.proxy (.handoverReady x.ready.toJson)).map fun p =>
        { c with proxy := p, readied := Function.update c.readied i true }
    | _, _ => none

end Cluster

/-! ### Steps -/

/-- A step of the fleet is one of the daemon of node `n`, or leaves it. -/
theorem Fleet.node_step {env : FleetEnv} {f g : Fleet} {l : FleetLabel} (h : f.step env l = some g)
    (n : ℕ) : g.nodes n = f.nodes n ∨
      ∃ dl, l = .node n dl ∧ (f.nodes n).step dl = some (g.nodes n) := by
  have hset {m : ℕ} {dl : DaemonLabel} {d : DaemonSystem} (hd : (f.nodes m).step dl = some d) :
      (f.setNode m d).nodes n = f.nodes n ∨
        ∃ dl', FleetLabel.node m dl = .node n dl' ∧
          (f.nodes n).step dl' = some ((f.setNode m d).nodes n) := by
    by_cases hnm : n = m
    · subst hnm
      rw [setNode_self]
      exact Or.inr ⟨dl, rfl, hd⟩
    · exact Or.inl (setNode_of_ne hnm d)
  cases Stepped.of_step h with
  | quiet _ hd | answered _ hd => exact hset hd
  | sent _ hd => exact hset hd
  | abandoned _ hd =>
    rw [abandon_nodes]
    exact hset hd
  | served =>
    rw [invoke_nodes]
    exact Or.inl rfl
  | moved | tookUp | standby => exact Or.inl rfl

namespace Cluster

variable {env : ClusterEnv} {c c' : Cluster} {l : ClusterLabel}

variable (env c) in
/-- The outcomes of a step. -/
inductive Stepped : ClusterLabel → Cluster → Prop
  | fleet {l : FleetLabel} {f : Fleet} (ha : c.admits l = true)
    (hf : c.fleet.step env.fleet l = some f) : Stepped (.fleet l) { c with fleet := f }
  | proxy {l : ProxyLabel} {p : IngressProxy} (hi : internal l = false)
    (hp : c.proxy.step env.proxy l = some p) : Stepped (.proxy l) { c with proxy := p }
  | listed {x : Peer} {t : ℕ} {event : PreemptionEvent}
    (ht : (c.fleet.peer x).tasks t = .syncing event) (hl : c.listed x t = none) :
    Stepped (.list x t) { c with
      listed := Function.update c.listed x (Function.update (c.listed x) t (some (c.listing env))) }
  | alerted {x : Peer} {payload : PreemptionAlertPayload} {p : IngressProxy}
    (ha : (c.fleet.peer x).daemon.posted = some payload)
    (hp : c.proxy.step env.proxy (.preemptionAlert payload.toJson) = some p) :
    Stepped (.alert x) { c with proxy := p, alerted := Function.update c.alerted x true }
  | readied {i : ℕ} {x : Takeover} {p : IngressProxy} (hx : c.fleet.takeovers[i]? = some x)
    (hp : c.proxy.step env.proxy (.handoverReady x.ready.toJson) = some p) :
    Stepped (.ready i) { c with proxy := p, readied := Function.update c.readied i true }

theorem Stepped.of_step (h : c.step env l = some c') : Stepped env c l c' := by
  cases l with
  | fleet l =>
    simp only [step] at h
    split_ifs at h with ha
    obtain ⟨f, hf, rfl⟩ := Option.map_eq_some_iff.mp h
    exact .fleet ha hf
  | proxy l =>
    simp only [step] at h
    split_ifs at h with hi
    obtain ⟨p, hp, rfl⟩ := Option.map_eq_some_iff.mp h
    exact .proxy (Bool.eq_false_iff.mpr hi) hp
  | list x t =>
    simp only [step] at h
    split at h
    · rename_i event ht hl
      obtain rfl := Option.some.inj h
      exact .listed ht hl
    · cases h
  | alert x =>
    simp only [step] at h
    split at h
    · rename_i payload ha _
      obtain ⟨p, hp, rfl⟩ := Option.map_eq_some_iff.mp h
      exact .alerted ha hp
    · cases h
  | ready i =>
    simp only [step] at h
    split at h
    · rename_i x hx _
      obtain ⟨p, hp, rfl⟩ := Option.map_eq_some_iff.mp h
      exact .readied hx hp
    · cases h

/-- A step of the cluster is one of the fleet, or leaves it. -/
theorem fleet_step (h : c.step env l = some c') :
    c'.fleet = c.fleet ∨ ∃ fl, l = .fleet fl ∧ c.fleet.step env.fleet fl = some c'.fleet := by
  cases Stepped.of_step h with
  | fleet _ hf => exact Or.inr ⟨_, rfl, hf⟩
  | _ => exact Or.inl rfl

/-- A step of the cluster is one of the proxy, or leaves it. -/
theorem proxy_step (h : c.step env l = some c') : c'.proxy = c.proxy ∧ c'.alerted = c.alerted ∨
    ∃ pl, c.proxy.step env.proxy pl = some c'.proxy ∧
      ((∃ x payload, l = .alert x ∧ pl = .preemptionAlert (PreemptionAlertPayload.toJson payload) ∧
        c'.alerted = Function.update c.alerted x true) ∨
      c'.alerted = c.alerted ∧ (∀ data, pl ≠ .preemptionAlert data) ∧
        (l = .proxy pl ∨ ∃ data, pl = .handoverReady data)) := by
  cases Stepped.of_step h with
  | @proxy pl p hi hp =>
    refine Or.inr ⟨pl, hp, Or.inr ⟨rfl, ?_, Or.inl rfl⟩⟩
    rintro data rfl
    cases hi
  | alerted ha hp => exact Or.inr ⟨_, hp, Or.inl ⟨_, _, rfl, rfl, rfl⟩⟩
  | readied hx hp => exact Or.inr ⟨_, hp, Or.inr ⟨rfl, fun _ he => (by cases he), Or.inr ⟨_, rfl⟩⟩⟩
  | _ => exact Or.inl ⟨rfl, rfl⟩

/-- The part of the fleet in a run of the cluster. -/
theorem fleet_run {ls : List ClusterLabel} (hr : Machine.run (step env) (new env) ls = some c) :
    ∃ fls, Machine.run (Fleet.step env.fleet) (Fleet.new env.fleet env.standbyId) fls = some c.fleet := by
  refine Machine.exists_component_run Cluster.fleet (fun c l c' h => ?_) hr
  rcases fleet_step h with hsame | ⟨fl, -, hf⟩
  · exact ⟨[], congrArg some hsame.symm⟩
  · exact ⟨[fl], Machine.run_cons_eq_some.mpr ⟨_, hf, rfl⟩⟩

/-- Moves of the proxy that no daemon asks for are moves of the cluster. -/
theorem exists_proxy_run {pls : List ProxyLabel} {q : IngressProxy}
    (hi : ∀ l ∈ pls, internal l = false)
    (hr : Machine.run (IngressProxy.step env.proxy) c.proxy pls = some q) :
    ∃ c', Machine.run (step env) c (pls.map .proxy) = some c' ∧ c'.proxy = q := by
  refine Machine.exists_whole_run Cluster.proxy ClusterLabel.proxy (fun c pl p hi hp => ?_) hi hr
  refine ⟨{ c with proxy := p }, ?_, rfl⟩
  simp only [step, hi, hp, Option.map_some]
  rfl

/-- So are moves of the fleet in which no daemon speaks to the proxy. -/
theorem exists_fleet_run {fls : List FleetLabel} {g : Fleet}
    (ha : ∀ l ∈ fls, ∀ c : Cluster, c.admits l = true)
    (hr : Machine.run (Fleet.step env.fleet) c.fleet fls = some g) :
    ∃ c', Machine.run (step env) c (fls.map .fleet) = some c' ∧ c'.fleet = g := by
  refine Machine.exists_whole_run Cluster.fleet ClusterLabel.fleet (fun c fl f ha hf => ?_) ha hr
  refine ⟨{ c with fleet := f }, ?_, rfl⟩
  simp only [step, ha c, if_true, hf, Option.map_some]

end Cluster
end Sgm
