/-
# What the standby announces is what the client has

A node that learns of its sessions from the proxy sends what the proxy has
reported, and the standby announces the id after the last one flushed. Reports
are of what the client has been sent by then, and that only grows: whenever an
announcement comes in at the proxy, it skips no token of the client.

Key definitions: `NodeDaemon.Sends`, `Cluster.Reported`, `Cluster.Synced`, `Cluster.Bounded`.
Key theorems: `NodeDaemon.resume_sends`, `Cluster.Synced.step`, `Cluster.Bounded.step`,
`Cluster.announced_le_delivered`.
-/
import Sgm.Core.Response
import Sgm.Proxy.Reported

namespace Sgm

/-! ### What a daemon sends -/

namespace NodeDaemon

/-- From `d` to `d'` the registry is left alone, and nothing but it is sent. -/
structure Sends (d d' : NodeDaemon) : Prop where
  registry : d'.activeSessions = d.activeSessions
  sent : ∀ sessions, .send sessions ∈ d'.events →
    .send sessions ∈ d.events ∨ sessions = d.activeSessions.values

variable {d d' d'' : NodeDaemon} {event : PreemptionEvent} {wake : Wakeup}

theorem Sends.refl (d : NodeDaemon) : d.Sends d := ⟨rfl, fun _ h => Or.inl h⟩

theorem Sends.trans (h : d.Sends d') (h' : d'.Sends d'') : d.Sends d'' where
  registry := h'.registry.trans h.registry
  sent sessions hs := by
    rcases h'.sent sessions hs with hs | hs
    · exact h.sent sessions hs
    · exact Or.inr (h.registry ▸ hs)

theorem sends_log {e : DaemonEvent} (he : ∀ sessions, e = .send sessions → sessions = d.activeSessions.values) :
    d.Sends (d.log e) where
  registry := rfl
  sent sessions hs := by
    rcases List.mem_append.mp hs with hs | hs
    · exact Or.inl hs
    · exact Or.inr (he sessions (List.mem_singleton.mp hs).symm)

theorem sends_setState {new : NodeLifecycleState} {hook : NodeLifecycleState → Option Exc}
    (h : d.setState new hook = .done d' ∨ ∃ e, d.setState new hook = .raised e d') : d.Sends d' := by
  have hd : d' = { d with stateLock := false } ∨ d' = { d with
      state := new
      stateLock := false
      events := d.events ++ [.state new d.activeSessions.keys] } := by
    unfold setState at h
    split at h
    · rcases h with h | ⟨e, h⟩ <;> cases h
    · dsimp only at h
      split at h
      · rcases h with h | ⟨e, h⟩
        · exact Or.inl (SetState.done.inj h).symm
        · cases h
      · split at h
        · rcases h with h | ⟨e, h⟩
          · cases h
          · exact Or.inr (SetState.raised.inj h).2.symm
        · rcases h with h | ⟨e, h⟩
          · exact Or.inr (SetState.done.inj h).symm
          · cases h
  rcases hd with rfl | rfl
  · exact ⟨rfl, fun _ hs => Or.inl hs⟩
  · refine ⟨rfl, fun sessions hs => ?_⟩
    rcases List.mem_append.mp hs with hs | hs
    · exact Or.inl hs
    · cases List.mem_singleton.mp hs

theorem sends_notifyProxyFailure (e : Exc) : d.Sends (d.notifyProxyFailure e).1 :=
  sends_log fun _ he => by cases he

theorem sends_enterTerminated : d.Sends (d.enterTerminated event wake).1 := by
  unfold enterTerminated
  split
  · exact Sends.refl d
  · rename_i hset
    exact sends_setState (Or.inr ⟨_, hset⟩)
  · rename_i hset
    exact sends_setState (Or.inl hset)

theorem sends_enterHandoverComplete : d.Sends (d.enterHandoverComplete event wake).1 := by
  unfold enterHandoverComplete
  split
  · exact Sends.refl d
  · rename_i hset
    exact (sends_setState (Or.inr ⟨_, hset⟩)).trans (sends_notifyProxyFailure _)
  · rename_i hset
    exact (sends_setState (Or.inl hset)).trans sends_enterTerminated

theorem sends_enterStateStreaming : d.Sends (d.enterStateStreaming event wake).1 := by
  unfold enterStateStreaming
  split
  · exact Sends.refl d
  · rename_i hset
    exact sends_setState (Or.inr ⟨_, hset⟩)
  · rename_i hset
    exact (sends_setState (Or.inl hset)).trans (sends_log fun _ he => (DaemonEvent.send.inj he).symm)

theorem sends_pauseLocalEngine (ids : List String) : d.Sends (d.pauseLocalEngine event ids).1 := by
  cases ids with
  | nil => exact sends_log fun _ he => by cases he
  | cons id ids => exact sends_log fun _ he => by cases he

theorem sends_enterBufferingIngress : d.Sends (d.enterBufferingIngress event wake).1 := by
  unfold enterBufferingIngress
  split
  · exact Sends.refl d
  · rename_i hset
    exact sends_setState (Or.inr ⟨_, hset⟩)
  · rename_i hset
    exact (sends_setState (Or.inl hset)).trans (sends_pauseLocalEngine _)

theorem sends_notifyProxyPreemption : d.Sends (d.notifyProxyPreemption event wake).1 :=
  sends_log fun _ he => by cases he

theorem sends_onPreemption : d.Sends (d.onPreemption event wake).1 := by
  unfold onPreemption enterPreemptionDetected
  split
  · exact Sends.refl d
  · split
    · exact Sends.refl d
    · rename_i hset
      exact sends_setState (Or.inr ⟨_, hset⟩)
    · rename_i hset
      split
      · exact sends_setState (Or.inl hset)
      · exact (sends_setState (Or.inl hset)).trans sends_notifyProxyPreemption

/-- A call that goes on stores the list of the proxy, or leaves the registry alone
and sends nothing else. -/
theorem resume_sends {point : PreemptionPoint} {x : NodeDaemon × PreemptionPoint}
    (hp : ∀ new event, point ≠ .acquiring new event) (hx : d.resume point wake = some x) :
    (∃ event requests, point = .readingSync event ∧ wake.reply = .body requests ∧
      x.1 = d.syncSessions requests) ∨ d.Sends x.1 := by
  unfold resume at hx
  split at hx
  case h_2 new event _ => exact absurd rfl (hp new event)
  case h_5 event requests hreply =>
    exact Or.inl ⟨event, requests, rfl, hreply, by rw [← Option.some.inj hx]⟩
  case h_21 => cases hx
  all_goals
    right
    obtain rfl := Option.some.inj hx
  case h_1 => exact sends_onPreemption
  case h_4 | h_7 | h_8 => exact sends_notifyProxyPreemption
  case h_9 | h_10 => exact sends_enterBufferingIngress
  case h_11 | h_12 => exact sends_pauseLocalEngine _
  case h_13 | h_14 => exact sends_enterStateStreaming
  case h_15 ack _ =>
    have hlog : d.Sends (d.log (.acked ack)) := sends_log fun _ he => by cases he
    exact hlog.trans sends_enterHandoverComplete
  case h_16 => exact sends_notifyProxyFailure _
  all_goals exact Sends.refl d

/-- The sessions stored by the sync are of the list. -/
theorem get?_syncSessions {requests : List (Option ActiveRequest)} {id : String}
    {s : InferenceSession} (h : (d.syncSessions requests).activeSessions.get? id = some s) :
    d.activeSessions.get? id = some s ∨ ∃ r, some r ∈ requests ∧ s = r.session := by
  induction requests generalizing d with
  | nil => exact Or.inl h
  | cons r rs ih =>
    cases r with
    | none => exact Or.inl h
    | some r =>
      have hrest := ih (d := { d with activeSessions := d.activeSessions.set r.requestId r.session }) h
      rcases hrest with hset | ⟨r', hr', hs⟩
      · dsimp only at hset
        rw [Dict.get?_set] at hset
        split at hset
        · exact Or.inr ⟨r, List.mem_cons_self, (Option.some.inj hset).symm⟩
        · exact Or.inl hset
      · exact Or.inr ⟨r', List.mem_cons_of_mem _ hr', hs⟩

end NodeDaemon

/-! ### Sessions that the proxy has reported -/

namespace Cluster

variable {env : ClusterEnv} {c c' : Cluster} {l : ClusterLabel} {n h : ℕ} {rid : String}

/-- The session is made of what the proxy has reported to node `n`. -/
def Reported (n : ℕ) (c : Cluster) (s : InferenceSession) : Prop :=
  ∃ t requests r, c.listed (.node n) t = some requests ∧ some r ∈ requests ∧ s = r.session

/-- Node `n` learns of its sessions from the proxy alone. -/
def FromProxy (n : ℕ) : ClusterLabel → Prop
  | .fleet (.node m (.registerSession _)) => m ≠ n
  | .fleet (.node m (.updateSessionToken _ _ _ _)) => m ≠ n
  | _ => True

/-- All that node `n` has, and has sent, the proxy has reported. -/
structure Synced (n : ℕ) (c : Cluster) : Prop where
  driven : (c.fleet.nodes n).Driven
  registry : ∀ id s, (c.fleet.nodes n).daemon.activeSessions.get? id = some s → c.Reported n s
  sent : ∀ sessions, .send sessions ∈ (c.fleet.nodes n).daemon.events → ∀ s ∈ sessions, c.Reported n s

/-- An answer of the proxy stays as it is. -/
theorem listed_mono (hs : c.step env l = some c') {x : Peer} {t : ℕ}
    {requests : List (Option ActiveRequest)} (hx : c.listed x t = some requests) :
    c'.listed x t = some requests := by
  cases Stepped.of_step hs with
  | @listed y t' event ht hl =>
    dsimp only
    by_cases hy : x = y
    · subst hy
      rw [Function.update_self]
      by_cases htt : t = t'
      · subst htt
        rw [hx] at hl
        cases hl
      · rw [Function.update_of_ne htt, hx]
    · rw [Function.update_of_ne hy, hx]
  | _ => exact hx

theorem Reported.step {s : InferenceSession} (hr : c.Reported n s) (hs : c.step env l = some c') :
    c'.Reported n s := by
  obtain ⟨t, requests, r, hl, hr⟩ := hr
  exact ⟨t, requests, r, listed_mono hs hl, hr⟩

/-- A step of the daemon. -/
theorem Synced.daemon_step (hc : Synced n c) {dl : DaemonLabel} {d : DaemonSystem}
    (ha : c.admits (.node n dl) = true) (hd : (c.fleet.nodes n).step dl = some d)
    (hl : FromProxy n (.fleet (.node n dl))) (hsb : ∀ s, dl ≠ .standbySession s) :
    (∀ id s, d.daemon.activeSessions.get? id = some s → c.Reported n s) ∧
      ∀ sessions, .send sessions ∈ d.daemon.events → ∀ s ∈ sessions, c.Reported n s := by
  have hvalues : ∀ s ∈ (c.fleet.nodes n).daemon.activeSessions.values, c.Reported n s := by
    intro s hmem
    obtain ⟨id, hid⟩ := (Dict.mem_values _ _).mp hmem
    exact hc.registry id s hid
  cases dl with
  | resume t wake =>
    obtain ⟨x, hx, rfl⟩ := Option.map_eq_some_iff.mp hd
    rcases NodeDaemon.resume_sends (hc.driven.not_acquiring t) hx with
      ⟨event, requests, hp, hreply, hx1⟩ | hsends
    · have hlisted : c.listed (.node n) t = some requests := by
        simpa [admits, replies, Fleet.peer, hp, hreply] using ha
      have hevents : x.1.events = (c.fleet.nodes n).daemon.events := by
        obtain ⟨sessions, he⟩ := (c.fleet.nodes n).daemon.syncSessions_eq requests
        rw [hx1, he]
      constructor
      · intro id s hs
        have hs : x.1.activeSessions.get? id = some s := hs
        rw [hx1] at hs
        rcases NodeDaemon.get?_syncSessions hs with hold | ⟨r, hr, hrs⟩
        · exact hc.registry id s hold
        · exact ⟨t, requests, r, hlisted, hr, hrs⟩
      · intro sessions hs
        exact hc.sent sessions (hevents ▸ hs)
    · constructor
      · intro id s hs
        exact hc.registry id s (hsends.registry ▸ hs)
      · intro sessions hs
        rcases hsends.sent sessions hs with hold | rfl
        · exact hc.sent sessions hold
        · exact hvalues
  | trigger t event =>
    simp only [DaemonSystem.step] at hd
    split at hd
    · obtain rfl := Option.some.inj hd
      exact ⟨hc.registry, hc.sent⟩
    · cases hd
  | cancel t =>
    obtain ⟨point, -, rfl⟩ := Option.map_eq_some_iff.mp hd
    exact ⟨hc.registry, hc.sent⟩
  | registerSession s => exact absurd rfl hl
  | updateSessionToken id tokenId tokenStr seq => exact absurd rfl hl
  | standbySession s => exact absurd rfl (hsb s)
  | completeSession requestId =>
    obtain rfl := Option.some.inj hd
    refine ⟨fun id s hs => ?_, hc.sent⟩
    have hs : ((c.fleet.nodes n).daemon.activeSessions.pop requestId).get? id = some s := hs
    rw [Dict.get?_pop] at hs
    split at hs
    · cases hs
    · exact hc.registry id s hs

theorem Synced.step (hc : Synced n c) (hs : c.step env l = some c') (hl : FromProxy n l) :
    Synced n c' := by
  have hsame (he : c'.fleet.nodes n = c.fleet.nodes n) : Synced n c' := by
    refine ⟨he ▸ hc.driven, fun id s hid => ?_, fun sessions hsent s hmem => ?_⟩
    · rw [he] at hid
      exact (hc.registry id s hid).step hs
    · rw [he] at hsent
      exact (hc.sent sessions hsent s hmem).step hs
  rcases fleet_step hs with hf | ⟨fl, rfl, hf⟩
  · exact hsame (by rw [hf])
  · rcases Fleet.node_step hf n with he | ⟨dl, rfl, hd⟩
    · exact hsame he
    · have ha : c.admits (.node n dl) = true := by
        cases Stepped.of_step hs with
        | fleet ha _ => exact ha
      have hsb : ∀ s, dl ≠ .standbySession s := by
        rintro s rfl
        simp only [Fleet.step] at hf
        split_ifs at hf
        obtain ⟨d, -, hdisp⟩ := Option.bind_eq_some_iff.mp hf
        cases hdisp
      obtain ⟨hreg, hsent⟩ := hc.daemon_step ha hd hl hsb
      exact ⟨hc.driven.step hd, fun id s hid => (hreg id s hid).step hs,
        fun sessions hmem s hsmem => (hsent sessions hmem s hsmem).step hs⟩

theorem synced_new : Synced n (new env) where
  driven := DaemonSystem.driven_new _ _
  registry _ _ hs := by cases hs
  sent _ hs := by cases hs

/-! ### What the reports say -/

/-- What the proxy has reported of `rid` is no more than handler `h` has
delivered by now. -/
structure Bounded (h : ℕ) (rid : String) (c : Cluster) : Prop where
  reporting : IngressProxy.Reporting h rid c.proxy
  listed : ∀ x t requests r, c.listed x t = some requests → some r ∈ requests → r.requestId = rid →
    0 ≤ r.session.lastFlushedSequenceId + 1 ∧
      r.session.lastFlushedSequenceId + 1 ≤ (c.proxy.system.generators h).delivered.length

theorem Bounded.listing (hc : Bounded h rid c) {r : ActiveRequest} (hr : some r ∈ c.listing env)
    (hid : r.requestId = rid) : 0 ≤ r.session.lastFlushedSequenceId + 1 ∧
      r.session.lastFlushedSequenceId + 1 ≤ (c.proxy.system.generators h).delivered.length := by
  obtain ⟨item, hitem, hreceived⟩ := List.mem_map.mp hr
  obtain ⟨hrid, hlast⟩ := ActiveRequest.received_eq hreceived
  rw [hlast]
  exact hc.reporting.reported hitem (hrid.symm.trans hid)

theorem Bounded.step (hc : Bounded h rid c) (hs : c.step env l = some c')
    (hr : IngressProxy.Reserved h rid c'.proxy) : Bounded h rid c' := by
  have hproxy : IngressProxy.Reporting h rid c'.proxy ∧
      (c.proxy.system.generators h).delivered.length ≤ (c'.proxy.system.generators h).delivered.length := by
    rcases proxy_step hs with ⟨he, -⟩ | ⟨pl, hpl, -⟩
    · rw [he]
      exact ⟨hc.reporting, le_rfl⟩
    · obtain ⟨hrep, hgrows⟩ := hc.reporting.step (.of_step hpl) hr
      exact ⟨hrep, hgrows.length_le⟩
  refine ⟨hproxy.1, fun x t requests r hl hmem hid => ?_⟩
  have hold : c.listed x t = some requests ∨ requests = c.listing env := by
    cases Stepped.of_step hs with
    | @listed y t' event ht hn =>
      dsimp only at hl
      rw [Function.update_apply] at hl
      split at hl
      · rename_i hy
        subst hy
        rw [Function.update_apply] at hl
        split at hl
        · exact Or.inr (Option.some.inj hl).symm
        · exact Or.inl hl
      · exact Or.inl hl
    | _ => exact Or.inl hl
  rcases hold with hold | rfl
  · obtain ⟨hpos, hle⟩ := hc.listed x t requests r hold hmem hid
    exact ⟨hpos, hle.trans (by exact_mod_cast hproxy.2)⟩
  · obtain ⟨hpos, hle⟩ := hc.listing hmem hid
    exact ⟨hpos, hle.trans (by exact_mod_cast hproxy.2)⟩

theorem bounded_new : Bounded h rid (new env) where
  reporting := IngressProxy.reporting_new _ _
  listed _ _ _ _ hl := by cases hl

/-! ### Request ids -/

/-- The requests with id `rid` are those of handler `h`. -/
def Reserves (env : ClusterEnv) (ls : List ClusterLabel) (h : ℕ) (rid : String) : Prop :=
  ∀ j body, .proxy (.body j (some (.obj body))) ∈ ls →
    (requestIdOf env.proxy j body = rid ↔ j = h)

/-- Each handler at work has the id of a body that the cluster has received. -/
def Named (env : ClusterEnv) (ls : List ClusterLabel) (p : IngressProxy) : Prop :=
  ∃ pls, IngressProxy.Identified env.proxy pls p ∧
    ∀ j body, .body j (some (.obj body)) ∈ pls → .proxy (.body j (some (.obj body))) ∈ ls

theorem named_step {ls : List ClusterLabel} (hc : Named env ls c.proxy) (hs : c.step env l = some c')
    (hl : l ∈ ls) : Named env ls c'.proxy := by
  obtain ⟨pls, hident, hpls⟩ := hc
  rcases proxy_step hs with ⟨he, -⟩ | ⟨pl, hpl, hcase⟩
  · rw [he]
    exact ⟨pls, hident, hpls⟩
  · have hmore : IngressProxy.Identified env.proxy (pl :: pls) c.proxy := fun j =>
      (hident j).imp_left fun ⟨body, hb, hid⟩ => ⟨body, List.mem_cons_of_mem _ hb, hid⟩
    refine ⟨pl :: pls, IngressProxy.identified_step hmore (.of_step hpl) List.mem_cons_self, ?_⟩
    intro j body hb
    rcases List.mem_cons.mp hb with hb | hb
    · rcases hcase with ⟨x, payload, -, rfl, -⟩ | ⟨-, -, rfl | ⟨data, rfl⟩⟩
      · cases hb
      · exact hb ▸ hl
      · cases hb
    · exact hpls j body hb

theorem Named.reserved {ls : List ClusterLabel} {p : IngressProxy} (hp : Named env ls p)
    (hr : Reserves env ls h rid) : IngressProxy.Reserved h rid p := by
  obtain ⟨pls, hident, hpls⟩ := hp
  have hname {j : ℕ} (hj : p.Busy j) : (p.handlers j).requestId = rid ↔ j = h := by
    obtain ⟨body, hb, hid⟩ := hident.busy hj
    rw [hid]
    exact hr j body (hpls j body hb)
  refine ⟨fun hh j hj hbusy hsame => hj ?_, fun j hj => (hname hj).mp⟩
  apply (hname hbusy).mp
  rw [hsame]
  exact (hname hh).mpr rfl

theorem along_reserved {ls : List ClusterLabel} (hr : Reserves env ls h rid) :
    Machine.Along (step env) (fun _ _ c => IngressProxy.Reserved h rid c.proxy) (new env) ls := by
  have hnew : Named env ls (new env).proxy :=
    ⟨[], fun _ => Or.inr ⟨rfl, fun hp => by cases hp⟩, fun _ _ hb => by cases hb⟩
  refine Machine.Along.of_inv (I := fun c => Named env ls c.proxy) (Q := fun _ l _ => l ∈ ls)
    (fun _ _ _ hc hs hl => named_step hc hs hl) ?_ hnew (Machine.Along.of_labels fun _ hl => hl)
  exact fun _ _ _ hc hs hl => (named_step hc hs hl).reserved hr

/-- **No announcement skips a token.** However the proxy, the daemons, the
transfer between them and the other clients interleave: the sequence id that
the standby announces for a session of node `n`, which has learnt of its
sessions from the proxy, is at most the number of tokens that handler `h`, whose
request it is, has sent to its client. -/
theorem announced_le_delivered {ls : List ClusterLabel} {x : Takeover}
    (hr : Machine.run (step env) (new env) ls = some c) (hn : n < env.fleet.size)
    (hload : ∀ sessions, .send sessions ∈ (c.fleet.nodes n).daemon.events →
      (Fleet.call env.fleet n sessions).Loads env.fleet.p2p (Fleet.standbyServer env.standbyId) n)
    (hproxy : ∀ l ∈ ls, FromProxy n l)
    (hid : Reserves env ls h x.session.requestId)
    (hx : x ∈ c.fleet.takeovers) (hconn : x.conn = n) :
    x.ready.requestId = x.session.requestId ∧ 0 ≤ x.ready.startingSequenceId ∧
      x.ready.startingSequenceId ≤ (c.proxy.system.generators h).delivered.length := by
  have hsynced : Synced n c := Machine.run_inv_along (Q := fun _ l _ => FromProxy n l)
    (fun _ _ _ hc hs hl => hc.step hs hl) synced_new (Machine.Along.of_labels hproxy) hr
  have hbounded : Bounded h x.session.requestId c :=
    Machine.run_inv_along (fun _ _ _ hc hs hr => hc.step hs hr) bounded_new (along_reserved hid) hr
  obtain ⟨fls, hf⟩ := fleet_run hr
  obtain ⟨⟨now, hready⟩, -⟩ := Fleet.takeover_run hf hx
  have htaken : x.session ∈ c.fleet.taken n := by
    subst hconn
    exact List.mem_map.mpr ⟨x, List.mem_filter.mpr ⟨hx, by simp⟩, rfl⟩
  have hsession : c.Reported n x.session := by
    rcases (Fleet.inv_run hf).taken_part hn hload with hnil | ⟨sessions, hsent, hsub⟩
    · rw [hnil] at htaken
      cases htaken
    · exact hsynced.sent sessions hsent _ (hsub.subset htaken)
  obtain ⟨t, requests, r, hl, hmem, hrs⟩ := hsession
  have hid : r.requestId = x.session.requestId := by
    rw [hrs]
    rfl
  obtain ⟨hpos, hle⟩ := hbounded.listed _ t requests r hl hmem hid
  rw [← hrs] at hpos hle
  rw [hready]
  exact ⟨rfl, hpos, hle⟩

end Cluster

/-! ### Two streams, one of them under way -/

deriving instance DecidableEq for P2PClient, SendSessions, ServerHandler, P2PConn

namespace Cluster

open Fleet

/-- The request of a client for a stream, with the model that a session has by default. -/
def namedRequest (id : String) : List (List Char × Json) :=
  [("request_id".toList, .text id.toList), ("model".toList, .text "meta-llama/Llama-3-8b-instruct".toList)]

/-- The request, as a daemon is told of it before the first token. -/
def listedAs (id : String) : ActiveRequest where
  requestId := id
  prompt := some ""
  lastFlushedSequenceId := some (-1)
  model := some "meta-llama/Llama-3-8b-instruct"

/-- Two streams; node 0 asks for the active requests, the client of the first
gets a token, and node 0 goes on to `send_sessions`. -/
def syncedRun : List ClusterLabel :=
  [.proxy (.request 0), .proxy (.request 1), .proxy (.body 0 (some (.obj (namedRequest "req-a")))),
    .proxy (.body 1 (some (.obj (namedRequest "req-b")))), .fleet (.transport .start),
    .fleet (.node 0 (.trigger 0 { provider := "aws" })), .fleet (.node 0 (.resume 0 {})),
    .list (.node 0) 0, .proxy (.prepared 0), .proxy (.resume 0),
    .fleet (.node 0 (.resume 0 { reply := .status 200 })),
    .fleet (.node 0 (.resume 0 { reply := .body [some (listedAs "req-a"), some (listedAs "req-b")] })),
    .fleet (.node 0 (.resume 0 {})), .alert (.node 0), .fleet (.node 0 (.resume 0 {})),
    .fleet (.node 0 (.resume 0 {})), .fleet (.node 0 (.resume 0 {})), .fleet (.node 0 (.resume 0 {}))]

/-- Where node 0 and its connection are after the run. -/
def AboutToSend (c : Cluster) : Prop :=
  (c.fleet.nodes 0).tasks 0 = .sending [sampleA, sampleB] { provider := "aws" } ∧
    c.fleet.p2p.conns 0 = { call := call sampleFleet 0 [sampleA, sampleB], client := .connecting } ∧
    c.fleet.p2p.server.running = true ∧
    (c.fleet.nodes 0).daemon.events.filterMap sentSessions = [[sampleA, sampleB]]

instance : DecidablePred AboutToSend := fun _ => inferInstanceAs (Decidable (_ ∧ _))

theorem syncedRun_some :
    ∃ c, Machine.run (step (sampleCluster 1)) (new (sampleCluster 1)) syncedRun = some c ∧
      AboutToSend c := by
  have hsome : (Machine.run (step (sampleCluster 1)) (new (sampleCluster 1)) syncedRun).map
      (fun c => decide (AboutToSend c)) = some true := by decide +kernel
  obtain ⟨c, hr, hc⟩ := Option.map_eq_some_iff.mp hsome
  exact ⟨c, hr, of_decide_eq_true hc⟩

theorem reserves_named {as : List FleetLabel} :
    Reserves (sampleCluster 1) (syncedRun ++ as.map .fleet) 0 "req-a" := by
  intro j body hb
  have hbody : (j = 0 ∧ body = namedRequest "req-a") ∨ j = 1 ∧ body = namedRequest "req-b" := by
    simpa [syncedRun] using hb
  rcases hbody with ⟨rfl, rfl⟩ | ⟨rfl, rfl⟩
  · exact iff_of_true (by decide +kernel) rfl
  · exact iff_of_false (by decide +kernel) (by decide)

theorem admits_of_own {n : ℕ} {l : FleetLabel} (h : Own n l) (c : Cluster) : c.admits l = true := by
  cases l with
  | transport | callback => rfl
  | node | standby => exact h.elim

/-- The first session is announced as it was when the proxy was asked. -/
theorem announced_le_delivered_two : ∃ ls c x,
    Machine.run (step (sampleCluster 1)) (new (sampleCluster 1)) ls = some c ∧
      x ∈ c.fleet.takeovers ∧ x.session = sampleA ∧ x.ready.requestId = "req-a" ∧
      x.ready.startingSequenceId ≤ (c.proxy.system.generators 0).delivered.length := by
  obtain ⟨c, hr, ⟨ht, hk, hrun, hevents⟩⟩ := syncedRun_some
  obtain ⟨fls, hf⟩ := fleet_run hr
  obtain ⟨as, g, ack, hrg, hown, hnode, hack⟩ := exists_acknowledged
    (sending_of_called (inv_run hf) (by decide) ht hk hrun) sample_clear
  obtain ⟨c', hrc, rfl⟩ : ∃ c', Machine.run (step (sampleCluster 1)) c (as.map .fleet) = some c' ∧
      c'.fleet = g := exists_fleet_run (fun l hl => admits_of_own (hown l hl)) hrg
  have hr' := Machine.run_append_eq_some.mpr ⟨c, hr, hrc⟩
  obtain ⟨fls', hf'⟩ := fleet_run hr'
  have hsent : ∀ sessions, .send sessions ∈ (c'.fleet.nodes 0).daemon.events →
      sessions = [sampleA, sampleB] := by
    intro sessions hs
    have hmem : sessions ∈ (c.fleet.nodes 0).daemon.events.filterMap sentSessions :=
      List.mem_filterMap.mpr ⟨_, hnode ▸ hs, rfl⟩
    rw [hevents] at hmem
    exact List.mem_singleton.mp hmem
  have hload := sample_loaded hsent
  obtain ⟨sessions, hs, -, htaken⟩ := (inv_run hf').taken_of_returned (n := 0) (by decide) hack hload
  obtain rfl := hsent sessions hs
  have hmem : sampleA ∈ c'.fleet.taken 0 := htaken ▸ List.mem_cons_self
  obtain ⟨x, hx, hxs⟩ := List.mem_map.mp hmem
  obtain ⟨hx, hconn⟩ := List.mem_filter.mp hx
  have hproxy : ∀ l ∈ syncedRun ++ as.map .fleet, FromProxy 0 l := by
    intro l hl
    rcases List.mem_append.mp hl with hl | hl
    · simp only [syncedRun, List.mem_cons, List.not_mem_nil, or_false] at hl
      rcases hl with rfl | rfl | rfl | rfl | rfl | rfl | rfl | rfl | rfl | rfl | rfl | rfl | rfl |
        rfl | rfl | rfl | rfl | rfl <;> trivial
    · obtain ⟨fl, hfl, rfl⟩ := List.mem_map.mp hl
      have hfl := hown fl hfl
      cases fl with
      | transport | callback => trivial
      | node | standby => exact hfl.elim
  have hid : Reserves (sampleCluster 1) (syncedRun ++ as.map .fleet) 0 x.session.requestId := by
    rw [hxs]
    exact reserves_named
  obtain ⟨hready, -, hle⟩ := announced_le_delivered hr' (by decide) hload hproxy hid hx (by simpa using hconn)
  exact ⟨_, c', x, hr', hx, hxs, by rw [hready, hxs]; rfl, hle⟩

end Cluster
end Sgm
