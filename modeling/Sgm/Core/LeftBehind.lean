/-
# Sessions left behind

The sessions a node hands over are those registered when it enters
STATE_STREAMING; the acknowledgement accepts these. The registry goes on
changing while `send_sessions` runs, and is not looked at again. So nobody is
left behind when the node enters HANDOVER_COMPLETE, provided that every other
session that is registered while `send_sessions` runs is completed in this time.

Key definitions: `Acknowledges`, `DaemonSystem.Late`, `DaemonSystem.InTime`,
`DaemonSystem.HandedOver`.
Key theorems: `DaemonSystem.attended_run`, `DaemonSystem.handedOver_run`,
`DaemonSystem.not_handedOver_late`.
-/
import Sgm.Core.Lifecycle
import Sgm.Transport.Acknowledged

namespace Sgm

/-- `send_sessions` returns this acknowledgement of these sessions, in some run
of a receiver and its peers. A session may have got tokens since it was listed. -/
def Acknowledges (sessions : List InferenceSession) (ack : HandoverAck) : Prop :=
  ∃ (env : P2PEnv) (srv : P2PServer) (peers : ℕ → Option SendSessions) (c : ℕ)
    (call : SendSessions) (ls : List P2PLabel) (q : P2P),
    peers c = some call ∧ call.sessions.map (·.requestId) = sessions.map (·.requestId) ∧
      call.Loads env srv c ∧ Machine.run (P2P.step env) (P2P.new srv peers) ls = some q ∧
      (q.conns c).client = .returned ack

/-- It accepts all of them. -/
theorem Acknowledges.ids {sessions : List InferenceSession} {ack : HandoverAck}
    (h : Acknowledges sessions ack) : ack.acceptedRequestIds = sessions.map (·.requestId) := by
  obtain ⟨env, srv, peers, c, call, ls, q, hc, hids, hl, hr, hack⟩ := h
  obtain ⟨-, w, r, out, hh⟩ : q.server.SameAs srv ∧
      ∃ w r out, Handover env srv c call False (q.conns c) w r out :=
    P2P.handover_run hl hc (fun hk => hk.elim) hr
  rw [← hids]
  exact (hh.of_returned hack).2

/-! ### The registry -/

namespace NodeDaemon

variable {d : NodeDaemon}

/-- Each session is under its own id. -/
def Keyed (d : NodeDaemon) : Prop :=
  ∀ id s, d.activeSessions.get? id = some s → s.requestId = id

theorem Keyed.set (h : d.Keyed) {s : InferenceSession} {id : String} (hs : s.requestId = id) :
    Keyed { d with activeSessions := d.activeSessions.set id s } := by
  intro id' s' hs'
  by_cases hid : id' = id
  · rw [hid, Dict.get?_set_self] at hs'
    rw [← Option.some.inj hs', hid, hs]
  · rw [Dict.get?_set_ne _ hid] at hs'
    exact h id' s' hs'

theorem Keyed.syncSessions (h : d.Keyed) (requests : List (Option ActiveRequest)) :
    (d.syncSessions requests).Keyed := by
  induction requests generalizing d with
  | nil => exact h
  | cons r rs ih =>
    cases r with
    | none => exact h
    | some r => exact ih (h.set rfl)

theorem Keyed.mem_values (h : d.Keyed) {id : String} (hid : id ∈ d.activeSessions.keys) :
    id ∈ d.activeSessions.values.map (·.requestId) := by
  obtain ⟨s, hs⟩ := Option.isSome_iff_exists.mp ((Dict.mem_keys _ _).mp hid)
  have hv := (Dict.mem_values _ _).mpr ⟨id, hs⟩
  exact List.mem_map.mpr ⟨s, hv, h id s hs⟩

/-- A session whose tokens are updated stays where it is. -/
theorem updateSessionToken_keyed (h : d.Keyed) (requestId : String) (tokenId : ℤ)
    (tokenStr : PyStr) (sequenceId : ℤ) :
    (d.updateSessionToken requestId tokenId tokenStr sequenceId).Keyed ∧
      ∀ id ∈ (d.updateSessionToken requestId tokenId tokenStr sequenceId).activeSessions.keys,
        id ∈ d.activeSessions.keys := by
  unfold updateSessionToken
  split
  · rename_i s hs
    obtain rfl := h requestId s hs
    refine ⟨h.set rfl, fun id hid => ?_⟩
    rw [Dict.mem_keys, Dict.get?_set] at hid
    by_cases he : id = s.requestId
    · rw [he, Dict.mem_keys, hs]
      rfl
    · rw [if_neg he] at hid
      exact (Dict.mem_keys _ _).mpr hid
  · exact ⟨h, fun id hid => hid⟩

theorem completeSession_keyed (h : d.Keyed) (requestId : String) :
    (d.completeSession requestId).Keyed ∧ ∀ id ∈ (d.completeSession requestId).activeSessions.keys,
      id ≠ requestId ∧ id ∈ d.activeSessions.keys := by
  have hget : ∀ id s, (d.completeSession requestId).activeSessions.get? id = some s →
      id ≠ requestId ∧ d.activeSessions.get? id = some s := by
    intro id s hs
    rw [completeSession, Dict.get?_pop] at hs
    split at hs
    · cases hs
    · rename_i hne
      exact ⟨hne, hs⟩
  refine ⟨fun id s hs => h id s (hget id s hs).2, fun id hid => ?_⟩
  obtain ⟨s, hs⟩ := Option.isSome_iff_exists.mp ((Dict.mem_keys _ _).mp hid)
  exact ⟨(hget id s hs).1, (Dict.mem_keys _ _).mpr ((hget id s hs).2 ▸ rfl)⟩

end NodeDaemon

/-! ### Conditions on a run -/

/-- The session that a step registers. -/
def DaemonLabel.registers : DaemonLabel → Option InferenceSession
  | .registerSession s | .standbySession s => some s
  | _ => none

namespace DaemonSystem

/-- A session with the id is registered while task `t` sends others. -/
def Overlooks (p : DaemonSystem) (t : ℕ) (id : String) (l : DaemonLabel) : Prop :=
  ∃ s sessions event, l.registers = some s ∧ s.requestId = id ∧
    p.tasks t = .sending sessions event ∧ id ∉ sessions.map (·.requestId)

/-- This has happened in the run, and the session has not been completed since. -/
def Late (start : DaemonSystem) (ls : List DaemonLabel) (t : ℕ) (id : String) : Prop :=
  ∃ pre l mid p, ls = pre ++ l :: mid ∧ Machine.run step start pre = some p ∧ p.Overlooks t id l ∧
    .completeSession id ∉ mid

/-- When the call that has sent them gets its acknowledgement, no session is late. -/
def InTime (start : DaemonSystem) (ls : List DaemonLabel) : Prop :=
  ∀ pre t wake ack post, ls = pre ++ .resume t wake :: post → wake.reply = .ack ack →
    ∀ id, ¬ Late start pre t id

/-- An acknowledgement is one of the sessions that are being sent. -/
def Answered (p : DaemonSystem) : DaemonLabel → Prop
  | .resume t wake => ∀ sessions event ack, p.tasks t = .sending sessions event →
      wake.reply = .ack ack → Acknowledges sessions ack
  | _ => True

/-- Whenever the state became HANDOVER_COMPLETE or TERMINATED, everything
registered at that moment had been accepted by the acknowledgement. -/
def HandedOver (p : DaemonSystem) : Prop :=
  ∀ new registered, .state new registered ∈ p.daemon.events →
    new = .handoverComplete ∨ new = .terminated →
    ∃ ack, .acked ack ∈ p.daemon.events ∧ ∀ id ∈ registered, id ∈ ack.acceptedRequestIds

/-- Nothing is registered but what is being sent, and what is late; and what has been
handed over is all. -/
structure Attended (late : ℕ → String → Prop) (p : DaemonSystem) : Prop where
  driven : p.Driven
  keyed : p.daemon.Keyed
  sent : ∀ t sessions event, p.tasks t = .sending sessions event →
    ∀ id ∈ p.daemon.activeSessions.keys, id ∈ sessions.map (·.requestId) ∨ late t id
  handedOver : p.HandedOver

variable {p q : DaemonSystem} {t : ℕ} {late late' : ℕ → String → Prop}

/-- A step of the registry. -/
theorem Attended.registry (h : p.Attended late) {d : NodeDaemon} (hd : Driven { p with daemon := d })
    (hkeyed : d.Keyed) (hevents : d.events = p.daemon.events)
    (hkeys : ∀ t sessions event, p.tasks t = .sending sessions event →
      ∀ id ∈ d.activeSessions.keys, id ∈ sessions.map (·.requestId) ∨ late' t id) :
    Attended late' { p with daemon := d } where
  driven := hd
  keyed := hkeyed
  sent := hkeys
  handedOver := by
    unfold HandedOver
    dsimp only
    rw [hevents]
    exact h.handedOver

/-- A call that does not touch the registry. -/
theorem Attended.put (h : p.Attended late) (hlate : ∀ t id, late t id → late' t id)
    {x : NodeDaemon × PreemptionPoint} {news : List NodeLifecycleState} (hd : (p.put t x).Driven)
    (hx : p.daemon.Follows news x) (hover : (p.put t x).HandedOver) : (p.put t x).Attended late' where
  driven := hd
  keyed := by
    unfold NodeDaemon.Keyed
    simp only [DaemonSystem.put, hx.extends_.registry]
    exact h.keyed
  sent := by
    intro t' sessions event ht' id hid
    simp only [DaemonSystem.put, hx.extends_.registry] at hid
    by_cases htt : t' = t
    · rw [htt, put_tasks_self] at ht'
      rw [hx.sending sessions event ht']
      exact Or.inl (h.keyed.mem_values hid)
    · rw [put_tasks_ne p htt] at ht'
      exact (h.sent t' sessions event ht' id hid).imp_right (hlate t' id)
  handedOver := hover

/-- A call that does not get the acknowledgement. -/
theorem Attended.follows (h : p.Attended late) (hlate : ∀ t id, late t id → late' t id)
    {x : NodeDaemon × PreemptionPoint} (hd : (p.put t x).Driven)
    (hx : p.daemon.Follows NodeDaemon.earlyStates x) : (p.put t x).Attended late' := by
  refine h.put hlate hd hx ?_
  obtain ⟨l, hl, hst⟩ := hx.extends_.events
  intro new registered hmem hnew
  simp only [DaemonSystem.put, hl] at hmem ⊢
  rcases List.mem_append.mp hmem with hmem | hmem
  · obtain ⟨ack, hack, hids⟩ := h.handedOver new registered hmem hnew
    exact ⟨ack, List.mem_append_left _ hack, hids⟩
  · have hearly := (hst new registered hmem).1
    have hlate : NodeLifecycleState.handoverComplete ∉ NodeDaemon.earlyStates ∧
      NodeLifecycleState.terminated ∉ NodeDaemon.earlyStates := by decide
    rcases hnew with rfl | rfl
    · exact absurd hearly hlate.1
    · exact absurd hearly hlate.2

/-- The call gets the acknowledgement, when nothing is late. -/
theorem Attended.complete (h : p.Attended late) (hlate : ∀ t id, late t id → late' t id)
    {sessions : List InferenceSession} {event : PreemptionEvent} {ack : HandoverAck} {wake : Wakeup}
    (hpt : p.tasks t = .sending sessions event) (hnone : ∀ id, ¬ late t id)
    (hack : Acknowledges sessions ack)
    (hd : (p.put t ((p.daemon.log (.acked ack)).enterHandoverComplete event wake)).Driven) :
    (p.put t ((p.daemon.log (.acked ack)).enterHandoverComplete event wake)).Attended late' := by
  have hlog : p.daemon.Extends [.handoverComplete, .terminated] (p.daemon.log (.acked ack)) :=
    p.daemon.extends_log fun _ _ he => by cases he
  have hx : (p.daemon.log (.acked ack)).Follows [.handoverComplete, .terminated]
      ((p.daemon.log (.acked ack)).enterHandoverComplete event wake) :=
    NodeDaemon.enterHandoverComplete_follows
  refine h.put hlate hd (hlog.follows hx) ?_
  obtain ⟨l, hl, hst⟩ := hx.extends_.events
  intro new registered hmem hnew
  simp only [DaemonSystem.put, hl] at hmem ⊢
  have hin : DaemonEvent.acked ack ∈ (p.daemon.log (.acked ack)).events ++ l :=
    List.mem_append_left _ (List.mem_append_right _ (List.mem_singleton.mpr rfl))
  rcases List.mem_append.mp hmem with hmem | hmem
  · rcases List.mem_append.mp hmem with hmem | hmem
    · obtain ⟨ack', hack', hids⟩ := h.handedOver new registered hmem hnew
      exact ⟨ack', List.mem_append_left _ (List.mem_append_left _ hack'), hids⟩
    · cases List.mem_singleton.mp hmem
  · refine ⟨ack, hin, fun id hid => ?_⟩
    rw [(hst new registered hmem).2] at hid
    rw [hack.ids]
    exact (h.sent t sessions event hpt id hid).resolve_right (hnone id)

/-- The list of the proxy is stored before anything is sent. -/
theorem Attended.sync (h : p.Attended late) {event : PreemptionEvent}
    {requests : List (Option ActiveRequest)} (hpt : p.tasks t = .readingSync event)
    (hd : (p.put t (p.daemon.syncSessions requests, .leavingSync event)).Driven) :
    (p.put t (p.daemon.syncSessions requests, .leavingSync event)).Attended late' where
  driven := hd
  keyed := h.keyed.syncSessions requests
  sent := by
    intro t' sessions event' ht'
    by_cases htt : t' = t
    · rw [htt, put_tasks_self] at ht'
      cases ht'
    · rw [put_tasks_ne p htt] at ht'
      have ht : (p.tasks t).Passed := by rw [hpt]; trivial
      exact absurd (h.driven.passed_unique (by rw [ht']; trivial) ht) htt
  handedOver := by
    obtain ⟨sessions, he⟩ := p.daemon.syncSessions_eq requests
    intro new registered
    simp only [DaemonSystem.put, he]
    exact h.handedOver new registered

/-- A session is registered. -/
theorem Attended.register (h : p.Attended late) (hlate : ∀ t id, late t id → late' t id)
    {s : InferenceSession} (hs : ∀ t sessions event, p.tasks t = .sending sessions event →
      s.requestId ∉ sessions.map (·.requestId) → late' t s.requestId) :
    Attended late' { p with daemon := p.daemon.registerSession s } := by
  refine h.registry (h.driven.registry _) (h.keyed.set rfl) rfl ?_
  intro t sessions event ht id hid
  by_cases he : id = s.requestId
  · rw [he]
    by_cases hin : s.requestId ∈ sessions.map (·.requestId)
    · exact Or.inl hin
    · exact Or.inr (hs t sessions event ht hin)
  · rw [NodeDaemon.registerSession, Dict.mem_keys, Dict.get?_set_ne _ he] at hid
    exact (h.sent t sessions event ht id ((Dict.mem_keys _ _).mpr hid)).imp_right (hlate t id)

/-- A step makes late what it overlooks; and what is late stays so until it is completed. -/
theorem Attended.step {l : DaemonLabel} (h : p.Attended late) (hs : p.step l = some q)
    (hnew : ∀ t id, p.Overlooks t id l → late' t id)
    (hold : ∀ t id, late t id → l ≠ .completeSession id → late' t id)
    (hnone : ∀ t wake ack, l = .resume t wake → wake.reply = .ack ack → ∀ id, ¬ late t id)
    (hans : p.Answered l) : q.Attended late' := by
  have hq := h.driven.step hs
  cases l with
  | trigger t event =>
    have hlate (t : ℕ) (id : String) (hid : late t id) : late' t id := hold t id hid (by simp)
    simp only [DaemonSystem.step] at hs
    split at hs
    · obtain rfl := Option.some.inj hs
      exact h.follows hlate hq ((NodeDaemon.Extends.refl _ _).to fun _ _ he => by cases he)
    · cases hs
  | resume t wake =>
    have hlate (t : ℕ) (id : String) (hid : late t id) : late' t id := hold t id hid (by simp)
    obtain ⟨x, hx, rfl⟩ := Option.map_eq_some_iff.mp hs
    rcases NodeDaemon.resume_cases (h.driven.not_acquiring t) hx with
      ⟨sessions, event, ack, hpt, hreply, rfl⟩ | ⟨event, requests, hpt, -, rfl⟩ | hfollow
    · exact h.complete hlate hpt (hnone t wake ack rfl hreply) (hans sessions event ack hpt hreply) hq
    · exact h.sync hpt hq
    · exact h.follows hlate hq hfollow
  | cancel t =>
    obtain ⟨point, hc, rfl⟩ := Option.map_eq_some_iff.mp hs
    have hlate (t : ℕ) (id : String) (hid : late t id) : late' t id := hold t id hid (by simp)
    refine h.follows hlate hq ((NodeDaemon.Extends.refl _ _).to fun sessions event he => ?_)
    rw [he] at hc
    cases hpt : p.tasks t <;> rw [hpt] at hc <;> simp [PreemptionPoint.cancel] at hc
  | registerSession s | standbySession s =>
    obtain rfl := Option.some.inj hs
    have hlate (t : ℕ) (id : String) (hid : late t id) : late' t id := hold t id hid (by simp)
    exact h.register hlate fun t sessions event ht hin =>
      hnew t s.requestId ⟨s, sessions, event, rfl, rfl, ht, hin⟩
  | updateSessionToken requestId tokenId tokenStr sequenceId =>
    obtain rfl := Option.some.inj hs
    have hup := NodeDaemon.updateSessionToken_keyed h.keyed requestId tokenId tokenStr sequenceId
    have hlate (t : ℕ) (id : String) (hid : late t id) : late' t id := hold t id hid (by simp)
    refine h.registry hq hup.1 ?_ fun t sessions event ht id hid =>
      (h.sent t sessions event ht id (hup.2 id hid)).imp_right (hlate t id)
    unfold NodeDaemon.updateSessionToken
    split <;> rfl
  | completeSession requestId =>
    obtain rfl := Option.some.inj hs
    have hpop := NodeDaemon.completeSession_keyed h.keyed requestId
    refine h.registry hq hpop.1 rfl fun t sessions event ht id hid => ?_
    obtain ⟨hne, hin⟩ := hpop.2 id hid
    refine (h.sent t sessions event ht id hin).imp_right fun hid => hold t id hid fun he => ?_
    exact hne (DaemonLabel.completeSession.inj he).symm

theorem attended_new (nodeId proxyUrl : String) : (new nodeId proxyUrl).Attended late where
  driven := driven_new nodeId proxyUrl
  keyed := fun _ _ h => by cases h
  sent := fun _ _ _ h => by cases h
  handedOver := fun _ _ h => by cases h

section
variable {start : DaemonSystem} {ls cs : List DaemonLabel} {id : String} {l : DaemonLabel}

/-- What is late after one more step. -/
theorem late_concat : Late start (ls ++ [l]) t id ↔
    Late start ls t id ∧ l ≠ .completeSession id ∨
      ∃ p, Machine.run step start ls = some p ∧ p.Overlooks t id l := by
  constructor
  · rintro ⟨pre, l', mid, p, hls, hp, hl, hmid⟩
    rcases List.eq_nil_or_concat mid with rfl | ⟨mid, l'', rfl⟩
    · obtain ⟨rfl, hlast⟩ := List.append_inj' hls rfl
      obtain rfl := List.head_eq_of_cons_eq hlast
      exact Or.inr ⟨p, hp, hl⟩
    · rw [List.concat_eq_append] at hls hmid
      rw [← List.cons_append, ← List.append_assoc] at hls
      obtain ⟨rfl, hlast⟩ := List.append_inj' hls rfl
      obtain rfl := List.head_eq_of_cons_eq hlast
      refine Or.inl ⟨⟨pre, l', mid, p, rfl, hp, hl, fun hm => hmid ?_⟩, fun he => hmid ?_⟩
      · exact List.mem_append_left _ hm
      · exact List.mem_append_right _ (List.mem_singleton.mpr he.symm)
  · rintro (⟨⟨pre, l', mid, p, rfl, hp, hl, hmid⟩, hne⟩ | ⟨p, hp, hl⟩)
    · refine ⟨pre, l', mid ++ [l], p, by simp, hp, hl, fun hm => ?_⟩
      rcases List.mem_append.mp hm with hm | hm
      · exact hmid hm
      · exact hne (List.mem_singleton.mp hm).symm
    · exact ⟨ls, l, [], p, rfl, hp, hl, List.not_mem_nil⟩

theorem InTime.prefix_of (h : InTime start (ls ++ cs)) : InTime start ls := by
  rintro pre t wake ack post rfl
  exact h pre t wake ack (post ++ cs) (by simp)

/-- After any run, what is registered is being sent, or late. -/
theorem attended_run {nodeId proxyUrl : String} (htime : InTime (new nodeId proxyUrl) ls)
    (hans : Machine.Along step (fun p l _ => p.Answered l) (new nodeId proxyUrl) ls)
    (hr : Machine.run step (new nodeId proxyUrl) ls = some p) :
    p.Attended (Late (new nodeId proxyUrl) ls) := by
  induction ls using List.reverseRecOn generalizing p with
  | nil =>
    obtain rfl := Option.some.inj hr
    exact attended_new nodeId proxyUrl
  | append_singleton ls l ih =>
    obtain ⟨r, hrun, hs⟩ := Machine.run_concat_eq_some.mp hr
    refine (ih htime.prefix_of hans.append_left hrun).step hs (fun t id ho => ?_) (fun t id hl hne => ?_)
      ?_ (hans.append_right hrun p hs).1
    · exact late_concat.mpr (Or.inr ⟨r, hrun, ho⟩)
    · exact late_concat.mpr (Or.inl ⟨hl, hne⟩)
    · rintro t wake ack rfl hreply
      exact htime ls t wake ack [] rfl hreply

end

/-- If every session but those being sent that is registered while `send_sessions`
runs is completed before this returns, then in every state of the run, whenever
the daemon became HANDOVER_COMPLETE, everything registered at that moment had been
accepted. -/
theorem handedOver_run {nodeId proxyUrl : String} {ls : List DaemonLabel}
    (htime : InTime (new nodeId proxyUrl) ls)
    (hans : Machine.Along step (fun p l _ => p.Answered l) (new nodeId proxyUrl) ls)
    (hr : Machine.run step (new nodeId proxyUrl) ls = some p) : p.HandedOver :=
  (attended_run htime hans hr).handedOver

/-! ### Two sessions, and a third -/

/-- Two sessions are registered, and a notice brings the daemon to where it sends them. -/
def toSending : List DaemonLabel :=
  [.registerSession sampleA, .registerSession sampleB, .trigger 0 { provider := "aws" },
    .resume 0 {}, .resume 0 {}, .resume 0 {}, .resume 0 {}, .resume 0 {}]

def sampleC : InferenceSession := { requestId := "req-c" }

theorem sample_acknowledges : ∃ ack, Acknowledges [sampleA, sampleB] ack := by
  obtain ⟨ls, q, ack, hr, hack⟩ := P2P.sample_returns
  exact ⟨ack, _, _, _, 0, sampleCall, ls, q, rfl, rfl, sample_loads _, hr, hack⟩

/-- A third one comes and goes while the two are being sent. -/
def whileSending : List DaemonLabel := toSending ++ [.registerSession sampleC, .completeSession "req-c"]

/-- Nothing is late before, and the third is not at the end. -/
theorem whileSending_not_late (t : ℕ) (id : String) :
    ¬ Late (new "node" "http://proxy") whileSending t id := by
  have hstart : ¬ Late (new "node" "http://proxy") toSending t id := by
    rintro ⟨pre, l, mid, p, hls, hp, ⟨s, sessions, event, hl, -, ht, -⟩, -⟩
    have hlt : pre.length < 2 := by
      by_contra hge
      have hquiet : ∀ l ∈ toSending.drop 2, l.registers = none := by simp [toSending, DaemonLabel.registers]
      have hmem : l ∈ toSending.drop 2 := by
        rw [hls, List.drop_append_of_le_length (by omega)]
        exact List.mem_append_right _ List.mem_cons_self
      rw [hquiet l hmem] at hl
      cases hl
    have hpre : pre = toSending.take pre.length := by rw [hls, List.take_left]
    rw [hpre] at hp
    interval_cases pre.length <;> obtain rfl := Option.some.inj hp <;> cases ht
  have hwhile : whileSending = toSending ++ [.registerSession sampleC] ++ [.completeSession "req-c"] := rfl
  rw [hwhile, late_concat]
  rintro (⟨hlate, hne⟩ | ⟨p, -, s, sessions, event, hl, -⟩)
  · rcases late_concat.mp hlate with ⟨hlate, -⟩ | ⟨p, -, s, sessions, event, hl, hid, -⟩
    · exact hstart hlate
    · obtain rfl := Option.some.inj hl
      exact hne (congrArg DaemonLabel.completeSession hid)
  · cases hl

theorem whileSending_wake {t : ℕ} {wake : Wakeup} (h : .resume t wake ∈ whileSending) : wake = {} := by
  have hmem : t = 0 ∧ wake = {} := by simpa [whileSending, toSending] using h
  exact hmem.2

/-- No acknowledgement comes before. -/
theorem whileSending_answered : Machine.Along step (fun p l _ => p.Answered l)
    (new "node" "http://proxy") whileSending := by
  refine Machine.Along.mono (Q := fun _ l _ => ∀ t wake, l = .resume t wake → wake = {}) ?_
    (Machine.Along.of_labels fun l hl => ?_)
  · rintro p (_ | ⟨t, wake⟩ | _ | _ | _ | _ | _) - hl
    case resume =>
      rw [hl t wake rfl]
      exact fun _ _ _ _ he => by cases he
    all_goals trivial
  · rintro t wake rfl
    exact whileSending_wake hl

/-- Both sessions are accepted, and the node terminates. -/
theorem handedOver_run_two : ∃ ack p, Machine.run step (new "node" "http://proxy")
      (whileSending ++ [.resume 0 { reply := .ack ack }]) = some p ∧
    p.daemon.state = .terminated ∧ p.HandedOver := by
  obtain ⟨ack, hack⟩ := sample_acknowledges
  obtain ⟨q, hq, hstate⟩ : ∃ q, Machine.run step (new "node" "http://proxy")
      (whileSending ++ [.resume 0 { reply := .ack ack }]) = some q ∧ q.daemon.state = .terminated :=
    ⟨_, rfl, rfl⟩
  refine ⟨ack, q, hq, hstate, handedOver_run ?_ (whileSending_answered.append ?_) hq⟩
  · intro pre t wake ack' post hls hreply
    rcases List.eq_nil_or_concat post with rfl | ⟨post, l, rfl⟩
    · obtain ⟨rfl, -⟩ := List.append_inj' hls rfl
      exact whileSending_not_late t
    · rw [List.concat_eq_append, ← List.cons_append, ← List.append_assoc] at hls
      obtain ⟨hpre, -⟩ := List.append_inj' hls rfl
      have hmem : .resume t wake ∈ whileSending := by
        rw [hpre]
        exact List.mem_append_right _ List.mem_cons_self
      rw [whileSending_wake hmem] at hreply
      cases hreply
  · intro p' hp' q' _
    refine ⟨fun sessions event ack' hpt' hreply => ?_, trivial⟩
    obtain ⟨p, hp, hpt⟩ : ∃ p, Machine.run step (new "node" "http://proxy") whileSending = some p ∧
      p.tasks 0 = .sending [sampleA, sampleB] { provider := "aws" } := ⟨_, rfl, rfl⟩
    obtain rfl := Option.some.inj (hp.symm.trans hp')
    rw [hpt] at hpt'
    obtain ⟨rfl, -⟩ := PreemptionPoint.sending.inj hpt'
    obtain rfl := Awaited.ack.inj hreply
    exact hack

/-- A third session is registered while the two are being sent. The node
terminates, and the third is not accepted. -/
theorem not_handedOver_late : ∃ ack ls p, Acknowledges [sampleA, sampleB] ack ∧
    ls = toSending ++ [.registerSession sampleC, .resume 0 { reply := .ack ack }] ∧
    Machine.run step (new "node" "http://proxy") ls = some p ∧ p.daemon.state = .terminated ∧
    "req-c" ∈ p.daemon.activeSessions.keys ∧ ¬ p.HandedOver := by
  obtain ⟨ack, hack⟩ := sample_acknowledges
  obtain ⟨p, hp, hstate, hkeys, hevents⟩ : ∃ p, Machine.run step (new "node" "http://proxy")
      (toSending ++ [.registerSession sampleC, .resume 0 { reply := .ack ack }]) = some p ∧
      p.daemon.state = .terminated ∧ p.daemon.activeSessions.keys = ["req-a", "req-b", "req-c"] ∧
      ∃ payload, p.daemon.events = [.state .preemptionDetected ["req-a", "req-b"], .alert payload,
        .state .bufferingIngress ["req-a", "req-b"], .abort "req-a", .abort "req-b", .pause,
        .state .stateStreaming ["req-a", "req-b"], .send [sampleA, sampleB], .acked ack,
        .state .handoverComplete ["req-a", "req-b", "req-c"],
        .state .terminated ["req-a", "req-b", "req-c"]] :=
    ⟨_, rfl, rfl, rfl, _, rfl⟩
  refine ⟨ack, _, p, hack, rfl, hp, hstate, by rw [hkeys]; decide, fun h => ?_⟩
  obtain ⟨payload, hevents⟩ := hevents
  obtain ⟨ack', hack', hids⟩ := h .handoverComplete ["req-a", "req-b", "req-c"]
    (by rw [hevents]; simp) (Or.inl rfl)
  obtain rfl : ack' = ack := by
    rw [hevents] at hack'
    simpa using hack'
  have hc := hids "req-c" (by decide)
  rw [hack.ids] at hc
  revert hc
  decide

end DaemonSystem
end Sgm
