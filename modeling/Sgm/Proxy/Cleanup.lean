/-
# What is left in the tables of the proxy

A request enters the table of the proxy with its body, its session and its
last flushed id enter the tables of the multiplexer with its generator. Each
generator takes its entries out however it ends. The table of the proxy is
cleaned up in the `finally` clause of the relay loop only: a handler that never
gets there, because the request does not stream or the response cannot be
prepared, leaves its request behind, and the node daemon is told of it.

Key definitions: `handleGetActiveRequests`, `Running`, `InLoop`, `Clear`.
Key theorems: `listed_run`, `tables_run`, `tables_clear`.
-/
import Sgm.Proxy.Alerts

namespace Sgm

open StreamMultiplexer

/-! ### The buffers of the deduplicator -/

/-- A request with a buffer has a last flushed id. -/
def TokenDeduplicator.Backed (d : TokenDeduplicator) : Prop :=
  ∀ rid, d.buffers.get? rid ≠ none → d.lastFlushed.get? rid ≠ none

theorem TokenDeduplicator.backed_resetRequest {d : TokenDeduplicator} (hd : d.Backed) (r : String) :
    (d.resetRequest r).Backed := by
  intro rid hb
  by_cases h : rid = r
  · subst h
    exact absurd (Dict.get?_pop_self _ _) hb
  · have he := sameElsewhere_resetRequest d r rid h
    rw [he.2] at hb
    rw [he.1]
    exact hd rid hb

/-- An accepted chunk is stored, and its id is the last flushed one. -/
theorem TokenDeduplicator.backed_accept {d d' : TokenDeduplicator} {r : String} {n : ℤ}
    (hd : d.Backed) (hf : d'.lastFlushed.get? r = some n) (he : SameElsewhere r d d') : d'.Backed := by
  intro rid hb
  by_cases h : rid = r
  · subst h
    simp [hf]
  · rw [(he rid h).2] at hb
    rw [(he rid h).1]
    exact hd rid hb

section

variable (now : ℕ) (m : StreamMultiplexer) (g : Generator)

theorem deduplicator_raise (e : Exc) :
    (m.raise g e).1.deduplicator = m.deduplicator.resetRequest g.requestId := by
  unfold StreamMultiplexer.raise
  split <;> rfl

theorem deduplicator_afterActive : (m.afterActive now g).1.deduplicator = m.deduplicator := by
  rcases afterActive_spec now m g with ⟨-, hb⟩ | ⟨-, h⟩
  · exact hb.deduplicator
  · rw [h]
    rfl

theorem deduplicator_checkCutoff (c : TokenChunk) :
    (m.checkCutoff now g c).1.deduplicator = m.deduplicator := by
  rcases checkCutoff_spec now m g c with ⟨-, hb⟩ | h
  · exact hb.deduplicator
  · rw [h]

end

theorem Resumed.backed {now i : ℕ} {m : StreamMultiplexer} {g : Generator}
    {r : StreamMultiplexer × Generator} (h : Resumed now i m g r) (hm : m.deduplicator.Backed) :
    r.1.deduplicator.Backed := by
  cases h with
  | start hp =>
    show (m.getOrCreateSession g.requestId i).1.deduplicator.Backed
    rw [(getOrCreateSession_spec m g.requestId i).1]
    exact hm
  | acceptActive c rest d hp hc hs hd he => exact TokenDeduplicator.backed_accept hm hd he
  | acceptStandby c rest d hp hc hs hd he => exact TokenDeduplicator.backed_accept hm hd he
  | dropActive | resumeActive =>
    rw [deduplicator_checkCutoff]
    exact hm
  | endActive =>
    rw [deduplicator_afterActive]
    exact hm
  | wake =>
    rw [(buffered_bufferingLoop now m g).deduplicator]
    exact hm
  | gapActive | raiseActive | failStandby | gapStandby | raiseStandby =>
    rw [deduplicator_raise]
    exact TokenDeduplicator.backed_resetRequest hm _
  | finish hp => exact TokenDeduplicator.backed_resetRequest hm _
  | _ => exact hm

theorem backed_close {m : StreamMultiplexer} {g : Generator} {r : StreamMultiplexer × Generator}
    (h : m.close g = some r) (hm : m.deduplicator.Backed) : r.1.deduplicator.Backed := by
  unfold StreamMultiplexer.close at h
  split at h
  · cases h
  · cases h
  · obtain rfl := Option.some.inj h
    exact hm
  · obtain rfl := Option.some.inj h
    exact TokenDeduplicator.backed_resetRequest hm _

theorem backed_step {s t : System} {l : Label} (hs : s.mux.deduplicator.Backed)
    (h : s.step l = some t) : t.mux.deduplicator.Backed := by
  cases l with
  | resume i =>
    obtain ⟨r, hr, rfl⟩ := Option.map_eq_some_iff.mp h
    exact (Resumed.of_eq hr).backed hs
  | close i =>
    obtain ⟨r, hr, rfl⟩ := Option.map_eq_some_iff.mp h
    exact backed_close hr hs
  | call i rid a b =>
    rcases step_cases h with ⟨j, _, _, _, -, -, rfl⟩ | ⟨j, r, hl | hl, -⟩ | ⟨ref, f, dt, -, rfl⟩
    · exact hs
    · cases hl
    · cases hl
    · exact hs
  | triggerPreemption rid c =>
    obtain rfl := Option.some.inj h
    show (s.mux.triggerPreemption rid c).deduplicator.Backed
    unfold StreamMultiplexer.triggerPreemption
    split <;> exact hs
  | triggerHandoverReady rid =>
    obtain rfl := Option.some.inj h
    show (s.mux.triggerHandoverReady rid).deduplicator.Backed
    unfold StreamMultiplexer.triggerHandoverReady
    split <;> exact hs
  | elapse dt =>
    obtain rfl := Option.some.inj h
    exact hs

/-- Without a live generator the tables of the multiplexer are empty. -/
theorem empty_of_tables {s : System} (ht : Tables s) (hb : s.mux.deduplicator.Backed)
    (hl : ∀ j, ¬ (s.generators j).Live) : s.mux.activeSessions = Dict.empty ∧
      s.mux.deduplicator.lastFlushed = Dict.empty ∧ s.mux.deduplicator.buffers = Dict.empty := by
  have hflushed : ∀ rid, s.mux.deduplicator.lastFlushed.get? rid = none := by
    intro rid
    by_contra hf
    obtain ⟨j, hj, -⟩ := ht.flushed rid hf
    exact hl j hj
  refine ⟨Dict.eq_empty _ fun rid => ?_, Dict.eq_empty _ hflushed, Dict.eq_empty _ fun rid => ?_⟩
  · by_contra hs
    obtain ⟨k, hk⟩ := Option.ne_none_iff_exists'.mp hs
    obtain ⟨j, hj, -⟩ := (ht.sessions rid k hk).2.2
    exact hl j hj
  · by_contra hs
    exact hb rid hs (hflushed rid)

namespace IngressProxy

/-! ### What the node daemon is told -/

/-- `str(v)`. -/
def str (env : Env) : Json → Json
  | .str s => .str s
  | j => .text (env.show_ j)

/-- An item of the response of `/internal/active-requests`. -/
structure ActiveRequest where
  requestId : String
  prompt : Json
  lastFlushedSequenceId : ℤ
  model : Json

/-- `handle_get_active_requests`. -/
def handleGetActiveRequests (env : Env) (p : IngressProxy) : List ActiveRequest :=
  p.inFlightRequests.items.map fun (reqId, body) =>
    let lastSeq := p.system.mux.deduplicator.getLastFlushed reqId
    let prompt := (Json.field? body "prompt".toList).getD .null
    { requestId := reqId
      prompt := if prompt.truthy then prompt
        else str env ((Json.field? body "messages".toList).getD (.str []))
      lastFlushedSequenceId := lastSeq
      model := (Json.field? body "model".toList).getD (.text "mock-llm".toList) }

variable {env : Env} {p q : IngressProxy} {l : ProxyLabel}

theorem get?_of_active {r : ActiveRequest} (hr : r ∈ handleGetActiveRequests env p) :
    p.inFlightRequests.get? r.requestId ≠ none := by
  obtain ⟨x, hx, rfl⟩ := List.mem_map.mp hr
  rw [Ne, Dict.get?_eq_none, not_not]
  exact Dict.mem_keys_of_mem hx

/-! ### A request in the table -/

/-- Handler `h` has its request in the table, and has not returned. -/
def Running (p : IngressProxy) (h : ℕ) : Prop :=
  (p.handlers h).point = .preparing ∨ (p.handlers h).point = .relaying ∨
    (p.handlers h).point = .forwarding

/-- Every request of the table has a running handler. -/
def Listed (p : IngressProxy) : Prop :=
  ∀ rid, p.inFlightRequests.get? rid ≠ none → ∃ h, p.Running h ∧ (p.handlers h).requestId = rid

/-- A move that does not end a running handler outside its relay loop. -/
def InLoop (p : IngressProxy) : ProxyLabel → Prop
  | .prepareFails _ | .forwarded _ => False
  | .cancel h => (p.handlers h).point ≠ .preparing ∧ (p.handlers h).point ≠ .forwarding
  | _ => True

theorem listed_new (a b : String) : Listed (new a b) := fun _ h => absurd rfl h

theorem Running.ne {h j : ℕ} (hr : p.Running h) (hp : ¬ p.Running j) : h ≠ j := by
  rintro rfl
  exact hp hr

/-- The table as it was, and all running handlers still there. -/
theorem Listed.of_running (hp : Listed p) (ht : q.inFlightRequests = p.inFlightRequests)
    (hr : ∀ h, p.Running h → q.Running h ∧ (q.handlers h).requestId = (p.handlers h).requestId) :
    Listed q := by
  intro rid hin
  rw [ht] at hin
  obtain ⟨h, hrun, hrid⟩ := hp rid hin
  exact ⟨h, (hr h hrun).1, (hr h hrun).2.trans hrid⟩

theorem running_of_eq {h : ℕ} (he : q.handlers h = p.handlers h) (hr : p.Running h) :
    q.Running h ∧ (q.handlers h).requestId = (p.handlers h).requestId := by
  unfold Running
  rw [he]
  exact ⟨hr, rfl⟩

/-- A handler that is not in the table moves on. -/
theorem Listed.goto (hp : Listed p) {h : ℕ} (hr : ¬ p.Running h) (point : HandlerPoint) :
    Listed (p.goto h point) :=
  hp.of_running rfl fun _ hj => running_of_eq (goto_handlers_of_ne p (hj.ne hr) _) hj

theorem Listed.accept (hp : Listed p) {h : ℕ} (hr : ¬ p.Running h)
    (body : List (List Char × Json)) : Listed (p.accept env h body) := by
  intro rid hin
  by_cases hrid : rid = requestIdOf env h body
  · refine ⟨h, ?_, ?_⟩
    · rcases accept_point env p h body with ha | ha
      · exact Or.inl ha
      · exact Or.inr (Or.inr ha)
    · rw [accept_handlers_self]
      exact hrid.symm
  · have hold : p.inFlightRequests.get? rid ≠ none := by
      rwa [show (p.accept env h body).inFlightRequests.get? rid = p.inFlightRequests.get? rid from
        Dict.get?_set_ne _ hrid _] at hin
    obtain ⟨j, hj, hjrid⟩ := hp rid hold
    obtain ⟨hrun, hsame⟩ := running_of_eq (accept_handlers_of_ne env p (hj.ne hr) body) hj
    exact ⟨j, hrun, hsame.trans hjrid⟩

/-- The `finally` clause of the relay loop takes the request out. -/
theorem Listed.leave (hp : Listed p) (h : ℕ) : Listed (p.leave h) := by
  intro rid hin
  by_cases hrid : rid = (p.handlers h).requestId
  · subst hrid
    exact absurd (Dict.get?_pop_self _ _) hin
  · have hold : p.inFlightRequests.get? rid ≠ none := by
      rwa [show (p.leave h).inFlightRequests.get? rid = p.inFlightRequests.get? rid from
        Dict.get?_pop_ne _ hrid] at hin
    obtain ⟨j, hj, hjrid⟩ := hp rid hold
    have hne : j ≠ h := by
      rintro rfl
      exact hrid hjrid.symm
    obtain ⟨hrun, hsame⟩ := running_of_eq (leave_handlers_of_ne p hne) hj
    exact ⟨j, hrun, hsame.trans hjrid⟩

theorem Listed.system (hp : Listed p) (s : System) : Listed { p with system := s } := hp

theorem Listed.prepared (hp : Listed p) {h : ℕ} (hr : (p.handlers h).point = .preparing) (url : String) :
    Listed (p.put h { p.handlers h with point := .relaying, initialUrl := url }) := by
  refine hp.of_running rfl fun j hj => ?_
  by_cases hjh : j = h
  · subst hjh
    unfold Running
    rw [put_handlers_self]
    exact ⟨Or.inr (Or.inl rfl), rfl⟩
  · exact running_of_eq (put_handlers_of_ne p hjh _) hj

theorem reading_of_body {h : ℕ} {data : Option Json}
    (hq : IngressProxy.step env p (.body h data) = some q) : (p.handlers h).point = .reading := by
  simp only [IngressProxy.step] at hq
  split_ifs at hq with hr
  exact hr

theorem listed_step (hp : Listed p) (hq : IngressProxy.step env p l = some q) (hl : p.InLoop l) :
    Listed q := by
  have hstep := hq
  cases Stepped.of_step hq with
  | request h hr => exact hp.goto (by simp [Running, hr]) _
  | accepted h body hr => exact hp.accept (by simp [Running, hr]) body
  | returned h l hr hl' =>
    refine hp.goto ?_ _
    -- only the reading of the body ends outside the relay loop
    rcases hl' with ⟨data, rfl, -⟩ | rfl | rfl | ⟨rfl, -⟩
    · simp [Running, reading_of_body hstep]
    · exact hl.elim
    · have hread := hr.resolve_right fun hr => hr.elim hl.1 hl.2
      simp [Running, hread]
    · exact hl.elim
  | prepared h s hr hs => exact (hp.system s).prepared hr _
  | finished h s hr hs he => exact (hp.system s).leave h
  | failed h l hr hw hl' => exact hp.leave h
  | aborted h s hr hw hs => exact (hp.system s).leave h
  | resumed | finalized | alerted | signaled => exact hp

theorem listed_run {a b : String} {ls : List ProxyLabel}
    (hl : Machine.Along (IngressProxy.step env) (fun p l _ => p.InLoop l) (new a b) ls)
    (hr : Machine.run (IngressProxy.step env) (new a b) ls = some p) : Listed p :=
  Machine.run_inv_along (fun _ _ _ hp hq hl => listed_step hp hq hl) (listed_new a b) hl hr

/-! ### The tables of the multiplexer -/

theorem system_run {I : System → Prop} (h : ∀ s x t, I s → s.step x = some t → I t) {a b : String}
    {ls : List ProxyLabel} (hnew : I (new a b).system)
    (hr : Machine.run (IngressProxy.step env) (new a b) ls = some p) : I p.system :=
  Machine.run_inv (I := fun p => I p.system)
    (fun _ _ _ hp hq => Machine.run_inv h hp (Stepped.of_step hq).run) hnew hr

theorem tables_run {a b : String} {ls : List ProxyLabel}
    (hr : Machine.run (IngressProxy.step env) (new a b) ls = some p) :
    Tables p.system ∧ p.system.mux.deduplicator.Backed :=
  ⟨system_run (fun _ _ _ hs ht => tables_step hs ht) (tables_init 1024 (by decide) 800000000) hr,
    system_run (I := fun s => s.mux.deduplicator.Backed) (fun _ _ _ hs ht => backed_step hs ht)
      (fun _ h => absurd rfl h) hr⟩

/-! ### The tables return to empty -/

/-- All handlers have returned, and their generators are finalised. -/
def AtRest (p : IngressProxy) : Prop :=
  ∀ h, ((p.handlers h).point = .absent ∨ (p.handlers h).point = .returned) ∧
    ¬ (p.system.generators h).Live

/-- A request is in the table of the proxy, or reported to the node daemon,
only while its handler is running, and when all is at rest the tables are
empty. -/
structure Clear (env : Env) (p : IngressProxy) : Prop where
  listed : ∀ rid, p.inFlightRequests.get? rid ≠ none → ∃ h, p.Running h ∧ (p.handlers h).requestId = rid
  reported : ∀ r ∈ handleGetActiveRequests env p,
    ∃ h, p.Running h ∧ (p.handlers h).requestId = r.requestId
  empty : p.AtRest → p.inFlightRequests = Dict.empty ∧
    p.system.mux.activeSessions = Dict.empty ∧ p.system.mux.deduplicator.lastFlushed = Dict.empty ∧
    p.system.mux.deduplicator.buffers = Dict.empty

theorem AtRest.not_running (hp : p.AtRest) (h : ℕ) : ¬ p.Running h := by
  unfold Running
  rcases (hp h).1 with hr | hr <;> simp [hr]

/-- **The tables return to empty**, in every run in which no running handler
ends outside its relay loop. -/
theorem tables_clear (env : Env) (a b : String) (ls : List ProxyLabel)
    (hl : Machine.Along (IngressProxy.step env) (fun p l _ => p.InLoop l) (new a b) ls)
    (p : IngressProxy) (hr : Machine.run (IngressProxy.step env) (new a b) ls = some p) :
    Clear env p := by
  have hlisted := listed_run hl hr
  refine ⟨hlisted, fun r hin => hlisted _ (get?_of_active hin), fun hrest => ⟨?_, ?_⟩⟩
  · refine Dict.eq_empty _ fun rid => ?_
    by_contra hin
    obtain ⟨h, hrun, -⟩ := hlisted rid hin
    exact hrest.not_running h hrun
  · obtain ⟨htables, hbacked⟩ := tables_run hr
    exact empty_of_tables htables hbacked fun j => (hrest j).2

/-- A stream that runs to its end. -/
def servedRun : List ProxyLabel :=
  [.request 0, .body 0 (some (.obj [])), .prepared 0, .resume 0, .resume 0]

theorem tables_clear_served : ∃ p, Machine.run (IngressProxy.step refusingEnv)
    (new "http://a" "http://b") servedRun = some p ∧ Clear refusingEnv p := by
  obtain ⟨p, hp⟩ : ∃ p, Machine.run (IngressProxy.step refusingEnv)
    (new "http://a" "http://b") servedRun = some p := ⟨_, rfl⟩
  refine ⟨p, hp, tables_clear refusingEnv "http://a" "http://b" servedRun ?_ p hp⟩
  apply Machine.Along.of_splits
  intro bs l cs t u hls _ _
  have hl : l ∈ servedRun := by simp [hls]
  simp only [servedRun, List.mem_cons, List.not_mem_nil, or_false] at hl
  rcases hl with rfl | rfl | rfl | rfl | rfl <;> trivial

theorem alone_run {h : ℕ} {a b : String} {ls : List ProxyLabel} (hl : ∀ l ∈ ls, About h l)
    (hr : Machine.run (IngressProxy.step env) (new a b) ls = some p) : Alone h p := by
  have halong : Machine.Along (IngressProxy.step env) (fun _ l _ => About h l) (new a b) ls :=
    Machine.Along.of_labels hl
  exact Machine.run_inv_along (I := Alone h)
    (fun _ _ _ hp hq hl => alone_step (.of_step hq) hl hp) (fun _ _ => ⟨rfl, rfl⟩) halong hr

theorem atRest_of_alone {h : ℕ} (ha : Alone h p) (hp : (p.handlers h).point = .returned)
    (hg : ¬ (p.system.generators h).Live) : p.AtRest := by
  intro j
  by_cases hj : j = h
  · subst hj
    exact ⟨Or.inr hp, hg⟩
  · exact ⟨Or.inl (ha j hj).1, fun hlive => hlive.started.1 (ha j hj).2⟩

/-- A request that does not stream, served to its end. -/
def forwardedRun : List ProxyLabel :=
  [.request 0, .body 0 (some (.obj [("stream".toList, .bool false)])), .forwarded 0]

/-- Its handler has returned, and its request is still reported. -/
theorem not_clear_forwarded : ∃ p, Machine.run (IngressProxy.step refusingEnv)
    (new "http://a" "http://b") forwardedRun = some p ∧ p.AtRest ∧
      (handleGetActiveRequests refusingEnv p).length = 1 ∧ ¬ Clear refusingEnv p := by
  obtain ⟨p, hp, hpoint, hpoint', hlen⟩ : ∃ p, Machine.run (IngressProxy.step refusingEnv)
    (new "http://a" "http://b") forwardedRun = some p ∧ (p.handlers 0).point = .returned ∧
      (p.system.generators 0).point = .absent ∧ (handleGetActiveRequests refusingEnv p).length = 1 :=
    ⟨_, rfl, rfl, rfl, rfl⟩
  have habout : ∀ l ∈ forwardedRun, About 0 l := by
    intro l hl
    simp only [forwardedRun, List.mem_cons, List.not_mem_nil, or_false] at hl
    rcases hl with rfl | rfl | rfl <;> rfl
  have hrest := atRest_of_alone (alone_run habout hp) hpoint fun hl => hl.started.1 hpoint'
  refine ⟨p, hp, hrest, hlen, fun hclear => ?_⟩
  rw [handleGetActiveRequests, (hclear.empty hrest).1] at hlen
  cases hlen

end IngressProxy
end Sgm
