/-
# The registry carries the history it claims

`update_session_token` keeps the number of flushed tokens within the history of
a session. The sync from the proxy does not: it stores the last flushed
sequence id without the text. So the sessions of the registry carry what they
claim just in case each sync lists requests of which nothing has been flushed.

Key definitions: `InferenceSession.Carries`, `DaemonSystem.Promised`,
`DaemonSystem.Unflushed`.
Key theorems: `DaemonSystem.registry_carries_iff`, `DaemonSystem.not_carries_flushed`.
-/
import Sgm.Core.Lifecycle

namespace Sgm

/-- Every token that is flushed is in the history, which is told in three ways alike. -/
structure InferenceSession.Carries (s : InferenceSession) : Prop where
  flushed : s.lastFlushedSequenceId + 1 ≤ s.generatedText.length
  text : s.generatedText.length = s.generatedTokens.length
  total : (s.generatedTokens.length : ℤ) = s.totalTokensGenerated

/-- A listed request has no history, so it carries what it claims if that is nothing. -/
theorem ActiveRequest.session_carries (r : ActiveRequest) :
    r.session.Carries ↔ r.session.lastFlushedSequenceId < 0 := by
  constructor
  · intro h
    have hf : r.session.lastFlushedSequenceId + 1 ≤ (0 : ℕ) := h.flushed
    omega
  · intro h
    have hf : r.session.lastFlushedSequenceId + 1 ≤ (0 : ℕ) := by omega
    exact ⟨hf, rfl, rfl⟩

namespace NodeDaemon

variable {d : NodeDaemon}

/-- Every session of the registry. -/
def Carries (d : NodeDaemon) : Prop := ∀ id s, d.activeSessions.get? id = some s → s.Carries

/-- The requests that the loop of the sync gets to. -/
def stored : List (Option ActiveRequest) → List ActiveRequest
  | some r :: rs => r :: stored rs
  | _ => []

theorem Carries.set (h : d.Carries) (id : String) {s : InferenceSession} (hs : s.Carries) :
    Carries { d with activeSessions := d.activeSessions.set id s } := by
  intro id' s' hs'
  by_cases hid : id' = id
  · rw [hid, Dict.get?_set_self] at hs'
    exact Option.some.inj hs' ▸ hs
  · rw [Dict.get?_set_ne _ hid] at hs'
    exact h id' s' hs'

theorem Carries.syncSessions (h : d.Carries) {requests : List (Option ActiveRequest)}
    (hr : ∀ r ∈ stored requests, r.session.Carries) : (d.syncSessions requests).Carries := by
  induction requests generalizing d with
  | nil => exact h
  | cons r rs ih =>
    cases r with
    | none => exact h
    | some r =>
      have hset := h.set r.requestId (hr r List.mem_cons_self)
      exact ih hset fun r' hr' => hr r' (List.mem_cons_of_mem _ hr')

/-- The sync leaves the other sessions alone. -/
theorem syncSessions_get?_ne {id : String} {requests : List (Option ActiveRequest)}
    (hid : id ∉ (stored requests).map (·.requestId)) :
    (d.syncSessions requests).activeSessions.get? id = d.activeSessions.get? id := by
  induction requests generalizing d with
  | nil => rfl
  | cons r rs ih =>
    cases r with
    | none => rfl
    | some r =>
      rw [stored, List.map_cons, List.mem_cons, not_or] at hid
      rw [NodeDaemon.syncSessions, ih hid.2, Dict.get?_set_ne _ hid.1]

/-- Each listed request is in the registry after the sync. -/
theorem syncSessions_get? {requests : List (Option ActiveRequest)}
    (hnodup : ((stored requests).map (·.requestId)).Nodup) {r : ActiveRequest}
    (hr : r ∈ stored requests) :
    (d.syncSessions requests).activeSessions.get? r.requestId = some r.session := by
  induction requests generalizing d with
  | nil => cases hr
  | cons r' rs ih =>
    cases r' with
    | none => cases hr
    | some r' =>
      rw [stored, List.map_cons, List.nodup_cons] at hnodup
      rw [stored, List.mem_cons] at hr
      rw [NodeDaemon.syncSessions]
      rcases hr with rfl | hr
      · rw [syncSessions_get?_ne hnodup.1, Dict.get?_set_self]
      · exact ih hnodup.2 hr

/-- A token is flushed, and is in the history. -/
theorem Carries.updateSessionToken (h : d.Carries) {requestId : String} {tokenId : ℤ}
    {tokenStr : PyStr} {sequenceId : ℤ} (hseq : ∀ s, d.activeSessions.get? requestId = some s →
      sequenceId = s.lastFlushedSequenceId + 1) :
    (d.updateSessionToken requestId tokenId tokenStr sequenceId).Carries := by
  unfold NodeDaemon.updateSessionToken
  split
  · rename_i s hs
    have hc := h requestId s hs
    have hflushed := hc.flushed
    have htext := hc.text
    have htotal := hc.total
    rw [hseq s hs]
    refine h.set requestId ⟨?_, ?_, ?_⟩
    · rw [List.length_append, List.length_singleton]
      push_cast
      omega
    · rw [List.length_append, List.length_append, htext]
      rfl
    · rw [List.length_append, List.length_singleton]
      push_cast
      omega
  · exact h

theorem Carries.completeSession (h : d.Carries) (requestId : String) :
    (d.completeSession requestId).Carries := by
  intro id s hs
  rw [NodeDaemon.completeSession, Dict.get?_pop] at hs
  split at hs
  · cases hs
  · exact h id s hs

end NodeDaemon

/-! ### Runs -/

namespace DaemonSystem

/-- What the callers promise: registered sessions carry what they claim, the
sequence ids of a session are consecutive, and no request is listed twice. -/
def Promised (p : DaemonSystem) : DaemonLabel → Prop
  | .registerSession s | .standbySession s => s.Carries
  | .updateSessionToken requestId _ _ sequenceId => ∀ s,
      p.daemon.activeSessions.get? requestId = some s → sequenceId = s.lastFlushedSequenceId + 1
  | .resume _ wake => ∀ requests, wake.reply = .body requests →
      ((NodeDaemon.stored requests).map (·.requestId)).Nodup
  | _ => True

/-- Nothing has been flushed of the requests that a sync stores. -/
def Unflushed (p : DaemonSystem) : DaemonLabel → Prop
  | .resume t wake => ∀ event requests, p.tasks t = .readingSync event →
      wake.reply = .body requests →
      ∀ r ∈ NodeDaemon.stored requests, r.lastFlushedSequenceId.getD (-1) < 0
  | _ => True

/-- Every session of the registry carries what it claims, and so does every
session that is streamed to the standby. -/
structure Carries (p : DaemonSystem) : Prop where
  registry : p.daemon.Carries
  streamed : ∀ t sessions event, p.tasks t = .sending sessions event → ∀ s ∈ sessions, s.Carries

variable {p q : DaemonSystem} {t : ℕ} {l : DaemonLabel}

theorem Carries.put (h : p.Carries) {x : NodeDaemon × PreemptionPoint} (hx : x.1.Carries)
    (hsend : ∀ sessions event, x.2 = .sending sessions event → ∀ s ∈ sessions, s.Carries) :
    (p.put t x).Carries where
  registry := hx
  streamed := by
    intro t' sessions event ht'
    by_cases htt : t' = t
    · rw [htt, put_tasks_self] at ht'
      exact hsend sessions event ht'
    · rw [put_tasks_ne p htt] at ht'
      exact h.streamed t' sessions event ht'

theorem Carries.follows (h : p.Carries) {x : NodeDaemon × PreemptionPoint}
    {news : List NodeLifecycleState} (hx : p.daemon.Follows news x) : (p.put t x).Carries := by
  refine h.put ?_ fun sessions event hsend s hs => ?_
  · unfold NodeDaemon.Carries
    rw [hx.extends_.registry]
    exact h.registry
  · rw [hx.sending sessions event hsend] at hs
    obtain ⟨id, hid⟩ := (Dict.mem_values _ _).mp hs
    exact h.registry id s hid

theorem Carries.step (h : p.Carries) (hd : p.Driven) (hs : p.step l = some q)
    (hprom : p.Promised l) (hun : p.Unflushed l) : q.Carries := by
  cases l with
  | trigger t event =>
    simp only [DaemonSystem.step] at hs
    split at hs
    · obtain rfl := Option.some.inj hs
      exact h.put h.registry fun _ _ he => by cases he
    · cases hs
  | resume t wake =>
    obtain ⟨x, hx, rfl⟩ := Option.map_eq_some_iff.mp hs
    rcases NodeDaemon.resume_cases (hd.not_acquiring t) hx with
      ⟨sessions, event, ack, hpt, hreply, rfl⟩ | ⟨event, requests, hpt, hreply, rfl⟩ | hfollow
    · have hlog : p.daemon.Extends [.handoverComplete, .terminated] (p.daemon.log (.acked ack)) :=
        p.daemon.extends_log fun _ _ he => by cases he
      exact h.follows (hlog.follows NodeDaemon.enterHandoverComplete_follows)
    · refine h.put (h.registry.syncSessions fun r hr => ?_) fun _ _ he => by cases he
      exact r.session_carries.mpr (hun event requests hpt hreply r hr)
    · exact h.follows hfollow
  | cancel t =>
    obtain ⟨point, hc, rfl⟩ := Option.map_eq_some_iff.mp hs
    refine h.put h.registry fun sessions event he => ?_
    rw [show point = .sending sessions event from he] at hc
    cases hpt : p.tasks t <;> rw [hpt] at hc <;> simp [PreemptionPoint.cancel] at hc
  | registerSession s | standbySession s =>
    obtain rfl := Option.some.inj hs
    exact ⟨h.registry.set s.requestId hprom, h.streamed⟩
  | updateSessionToken requestId tokenId tokenStr sequenceId =>
    obtain rfl := Option.some.inj hs
    exact ⟨h.registry.updateSessionToken hprom, h.streamed⟩
  | completeSession requestId =>
    obtain rfl := Option.some.inj hs
    exact ⟨h.registry.completeSession requestId, h.streamed⟩

/-- A sync that stores a request of which something has been flushed. -/
theorem Carries.unflushed (hq : q.Carries) (hs : p.step l = some q) (hprom : p.Promised l) :
    p.Unflushed l := by
  cases l with
  | resume t wake =>
    intro event requests hpt hreply r hr
    obtain ⟨x, hx, rfl⟩ := Option.map_eq_some_iff.mp hs
    have hsync : x = (p.daemon.syncSessions requests, .leavingSync event) := by
      rw [hpt] at hx
      unfold NodeDaemon.resume at hx
      rw [hreply] at hx
      exact (Option.some.inj hx).symm
    have hget : (p.daemon.syncSessions requests).activeSessions.get? r.requestId = some r.session :=
      NodeDaemon.syncSessions_get? (hprom requests hreply) hr
    exact r.session_carries.mp (hq.registry r.requestId r.session (hsync ▸ hget))
  | _ => trivial

theorem carries_new (nodeId proxyUrl : String) : (new nodeId proxyUrl).Carries where
  registry := fun _ _ h => by cases h
  streamed := fun _ _ _ h => by cases h

/-- In a run as promised, every state carries the history it claims just in
case no sync stores a request of which something has been flushed. -/
theorem registry_carries_iff {nodeId proxyUrl : String} {ls : List DaemonLabel}
    (hprom : Machine.Along step (fun p l _ => p.Promised l) (new nodeId proxyUrl) ls) :
    (∀ bs cs p, ls = bs ++ cs → Machine.run step (new nodeId proxyUrl) bs = some p → p.Carries) ↔
      Machine.Along step (fun p l _ => p.Unflushed l) (new nodeId proxyUrl) ls := by
  constructor
  · intro h
    refine Machine.Along.of_splits fun bs l cs p q' hls hp hs => ?_
    have hq' : q'.Carries := h (bs ++ [l]) cs q' (by rw [hls]; simp)
      (Machine.run_concat_eq_some.mpr ⟨p, hp, hs⟩)
    rw [hls] at hprom
    have hl := hprom.append_right hp
    exact hq'.unflushed hs (hl q' hs).1
  · intro hun bs cs p hls hp
    rw [hls] at hprom hun
    have hstep : ∀ p l q, p.Driven ∧ p.Carries → step p l = some q → p.Promised l ∧ p.Unflushed l →
        q.Driven ∧ q.Carries :=
      fun p l q h hs hl => ⟨h.1.step hs, h.2.step h.1 hs hl.1 hl.2⟩
    have hnew := And.intro (driven_new nodeId proxyUrl) (carries_new nodeId proxyUrl)
    exact (Machine.run_inv_along hstep hnew (hprom.append_left.and hun.append_left) hp).2

/-! ### Nothing flushed, and something -/

/-- The registry is empty, and the proxy lists one request. -/
def syncRun (lastFlushed : ℤ) : List DaemonLabel :=
  [.trigger 0 { provider := "aws" }, .resume 0 {}, .resume 0 { reply := .status 200 },
    .resume 0 { reply := .body [some { requestId := "r", lastFlushedSequenceId := some lastFlushed }] }]

/-- A condition that holds of each of its labels, wherever. -/
theorem syncRun_along {Q : DaemonSystem → DaemonLabel → Prop} {lastFlushed : ℤ}
    (h : ∀ p, ∀ l ∈ syncRun lastFlushed, Q p l) :
    Machine.Along step (fun p l _ => Q p l) (new "node" "http://proxy") (syncRun lastFlushed) :=
  (Machine.Along.of_labels fun _ hl => hl).mono fun p l _ hl => h p l hl

theorem syncRun_promised (lastFlushed : ℤ) :
    Machine.Along step (fun p l _ => p.Promised l) (new "node" "http://proxy")
      (syncRun lastFlushed) := by
  refine syncRun_along fun p l hl => ?_
  simp only [syncRun, List.mem_cons, List.not_mem_nil, or_false] at hl
  rcases hl with rfl | rfl | rfl | rfl
  · trivial
  · intro requests hreply
    cases hreply
  · intro requests hreply
    cases hreply
  · intro requests hreply
    obtain rfl := Awaited.body.inj hreply
    exact List.nodup_singleton _

/-- Nothing has been flushed of the request: the registry carries what it claims. -/
theorem registry_carries_unflushed : ∃ p,
    Machine.run step (new "node" "http://proxy") (syncRun (-1)) = some p ∧
      p.daemon.activeSessions.keys = ["r"] ∧ p.Carries := by
  obtain ⟨p, hp, hkeys⟩ : ∃ p, Machine.run step (new "node" "http://proxy") (syncRun (-1)) = some p ∧
      p.daemon.activeSessions.keys = ["r"] := ⟨_, rfl, rfl⟩
  refine ⟨p, hp, hkeys, ?_⟩
  refine (registry_carries_iff (syncRun_promised (-1))).mpr ?_ (syncRun (-1)) [] p rfl hp
  refine syncRun_along fun p l hl => ?_
  simp only [syncRun, List.mem_cons, List.not_mem_nil, or_false] at hl
  rcases hl with rfl | rfl | rfl | rfl
  · trivial
  · intro _ _ _ hreply
    cases hreply
  · intro _ _ _ hreply
    cases hreply
  · intro _ requests _ hreply r hr
    obtain rfl := Awaited.body.inj hreply
    obtain rfl := List.mem_singleton.mp hr
    decide

/-- The proxy has flushed one token of the request: the session that is synced
claims it, and does not carry it. -/
theorem not_carries_flushed : ∃ p,
    Machine.Along step (fun p l _ => p.Promised l) (new "node" "http://proxy") (syncRun 0) ∧
    Machine.run step (new "node" "http://proxy") (syncRun 0) = some p ∧ ¬ p.Carries := by
  obtain ⟨p, hp, s, hs, hflushed, htext⟩ : ∃ p,
      Machine.run step (new "node" "http://proxy") (syncRun 0) = some p ∧
      ∃ s, p.daemon.activeSessions.get? "r" = some s ∧ s.lastFlushedSequenceId = 0 ∧
        s.generatedText = [] := ⟨_, rfl, _, rfl, rfl, rfl⟩
  refine ⟨p, syncRun_promised 0, hp, fun h => ?_⟩
  have hf := (h.registry "r" s hs).flushed
  rw [hflushed, htext] at hf
  simp at hf

end DaemonSystem
end Sgm
