/-
# The course of one request through the proxy

A client sends its request and reads the response to the end; other requests,
the signals and the clock interleave in any way. What the multiplexer tracks of
the generator of such a request (`Tracked`) is carried through the moves of the
proxy, together with what the handler and the tables know of it (`Course`). An
alert that finds the stream reading its active upstream reaches its session;
one that comes before the upstream is chosen sends the request to the standby
in the first place, and then nothing signals it any more (`Straight`).

Key definitions: `ProxyLabel.Reads`, `Course`, `Straight`.
Key theorems: `course_step`, `course_alert_early`, `course_alert`, `straight_step`,
`course_completes`.
-/
import Sgm.Proxy.Ingress
import Sgm.Proxy.Swap

namespace Sgm

open StreamMultiplexer

/-! ### A generator that no signal reaches -/

/-- The generator reads its active upstream alone. -/
def Generator.Direct (A : Upstream) (g : Generator) : Prop :=
  match g.point with
  | .yieldedDone | .ended .completed => g.pulled = A.chunks
  | .yieldedKeepAlive _ | .waitReady _ | .callStandby | .pullStandby | .yieldedStandby => False
  | _ => True

/-- Generator `i` reads its active upstream alone, and has no signal. -/
structure Straight (A : Upstream) (i : ℕ) (s : System) : Prop where
  unsignaled : (s.generators i).Live →
    (s.mux.heap (s.generators i).session).preemptionSignaled = false
  direct : (s.generators i).Direct A

theorem straight_of_absent {A : Upstream} {i : ℕ} {s : System}
    (h : (s.generators i).point = .absent) : Straight A i s :=
  ⟨fun hl => absurd h hl.started.1, by simp [Generator.Direct, h]⟩

section
variable {A : Upstream} {F : ℤ → Except Exc Upstream} {At : ℕ → Prop} {direct : Prop} {i : ℕ}
  {rid : String} {m : StreamMultiplexer} {g : Generator}

theorem direct_checkCutoff (now : ℕ) (c : TokenChunk)
    (hns : (m.heap g.session).preemptionSignaled = false) : (m.checkCutoff now g c).2.Direct A := by
  rcases checkCutoff_spec now m g c with ⟨hs, -⟩ | he
  · simp [hns] at hs
  · rw [he]
    trivial

theorem direct_raise (e : Exc) : (m.raise g e).2.Direct A := by
  obtain ⟨⟨e', he⟩, -⟩ := raise_spec m g e
  simp [Generator.Direct, he]

/-- A resumption with no signal goes on reading the active upstream, up to its
end. -/
theorem direct_resumed {now : ℕ} {r : StreamMultiplexer × Generator} (h : Resumed now i m g r)
    (hd : g.Direct A) (hs : Stage A F At direct g)
    (hns : g.Live → (m.heap g.session).preemptionSignaled = false) : r.2.Direct A := by
  cases h with
  | start hp => trivial
  | dropActive c rest hp hc hle =>
    exact direct_checkCutoff now c (hns (by simp [Generator.Live, hp]))
  | acceptActive c rest d hp hc hs hd he => trivial
  | gapActive c rest msg hp hc hlt => exact direct_raise _
  | endActive hp hc he =>
    rcases afterActive_spec now m (g.record (.upstreamEnded g.active.ending)) with
      ⟨hsig, -⟩ | ⟨-, heq⟩
    · exact absurd hsig (by simp [Generator.record, hns (by simp [Generator.Live, hp])])
    · simp only [Stage, hp] at hs
      obtain ⟨-, d, hd, hpull, hact⟩ := hs
      have hall : A.chunks.drop d = [] := by rw [← hc, hact]
      rw [List.take_of_length_le (List.drop_eq_nil_iff.mp hall)] at hpull
      rw [heq]
      show (m.endOfStream (g.record (.upstreamEnded g.active.ending))).2.pulled = A.chunks
      rw [← hpull]
      simp [Generator.pulled, endOfStream, Generator.emit, Generator.record, Generator.at_]
  | raiseActive e hp hc he => exact direct_raise e
  | resumeActive c hp => exact direct_checkCutoff now c (hns (by simp [Generator.Live, hp]))
  | finish hp =>
    simp only [Generator.Direct, hp] at hd
    exact hd
  | resumeKeepAlive _ hp | wake _ hp _ | connectStandby _ hp _ | failStandby _ hp _
  | dropStandby _ _ hp _ _ | acceptStandby _ _ _ hp _ _ _ _ | gapStandby _ _ _ hp _ _
  | endStandby hp _ _ | raiseStandby _ hp _ _ | resumeStandby hp =>
    simp [Generator.Direct, hp] at hd

/-- A turn of one generator leaves what the sessions of others are told. -/
theorem Turn.signals {j : ℕ} {r : StreamMultiplexer × Generator} (h : Turn j m g r) {k : ℕ}
    (hk : k ≠ j) : (r.1.heap k).signals = (m.heap k).signals := by
  cases h with
  | starts hp hm hr hs hl =>
    rw [hm, (getOrCreateSession_spec m g.requestId j).2.2.2.1 k hk]
  | dies hp hr =>
    subst hr
    rfl
  | moves hl h =>
    by_cases hks : k = g.session
    · subst hks
      exact h.signals
    · rw [h.heap k hks]

theorem signaled_of_signals {s s' : StreamSessionState} (h : s'.signals = s.signals) :
    s'.preemptionSignaled = s.preemptionSignaled := congrArg (fun x => x.2.1) h

theorem straight_resumed {s : System} {r : StreamMultiplexer × Generator}
    (hs : Tracked i rid A F At direct s) (hst : Straight A i s)
    (hr : s.mux.streamWithHandover s.clock i (s.generators i) = some r)
    (ha : Apart i (s.put i r)) : Straight A i (s.put i r) := by
  have hres := Resumed.of_eq hr
  constructor
  · rw [System.put_self, System.put_mux]
    intro hl
    rcases hres.live_or_created with hlive | hp
    · have hm := hres.moved hlive
      rw [hm.session, signaled_of_signals hm.signals]
      exact hst.unsignaled hlive
    · -- the session of a generator that starts is a new one
      cases turn_of_resume hr with
      | starts _ hm hrid hsess _ =>
        have hfresh := (fresh_of_starts hs.owned.tables hp hrid hl ha).2
        obtain ⟨-, -, -, -, hcase⟩ :=
          getOrCreateSession_spec s.mux (s.generators i).requestId i
        rcases hcase with ⟨hold, -⟩ | ⟨-, href, hheap⟩
        · rw [hfresh] at hold
          cases hold
        · rw [hsess, href, hm, hheap]
      | dies _ hr' =>
        subst hr'
        exact hl.elim
      | moves hlive _ => exact absurd hp hlive.started.2
  · rw [System.put_self]
    exact direct_resumed hres hst.direct hs.stage hst.unsignaled

/-- Any step but a preemption signal. -/
theorem straight_step {s t : System} {l : Label} (hs : Tracked i rid A F At direct s)
    (hst : Straight A i s) (h : s.step l = some t) (ha : Apart i t) (hl : l ≠ .close i)
    (hp : ∀ rid' c, l ≠ .triggerPreemption rid' c) : Straight A i t := by
  have hsame : t.generators i = s.generators i → ((s.generators i).Live →
      (t.mux.heap i).preemptionSignaled = (s.mux.heap i).preemptionSignaled) →
      Straight A i t := by
    intro hg hheap
    refine ⟨fun hlive => ?_, by rw [hg]; exact hst.direct⟩
    rw [hg] at hlive ⊢
    have hsess := (hs.owned.session hlive).1
    rw [hsess, hheap hlive, ← hsess]
    exact hst.unsignaled hlive
  have hother : ∀ (j : ℕ) (r : StreamMultiplexer × Generator), i ≠ j →
      Turn j s.mux (s.generators j) r → t = s.put j r → Straight A i t := by
    rintro j r hj hr rfl
    exact hsame (s.put_of_ne hj r) fun _ => signaled_of_signals (hr.signals hj)
  cases l with
  | call j rid' a b =>
    simp only [System.step] at h
    split at h
    · obtain rfl := Option.some.inj h
      by_cases hj : i = j
      · subst hj
        refine ⟨fun hl => ?_, ?_⟩
        · rw [System.put_self] at hl
          exact hl.elim
        · rw [System.put_self]
          trivial
      · exact hsame (s.put_of_ne hj _) fun _ => rfl
    · cases h
  | resume j =>
    obtain ⟨r, hr, rfl⟩ := Option.map_eq_some_iff.mp h
    by_cases hj : i = j
    · subst hj
      exact straight_resumed hs hst hr ha
    · exact hother j r hj (turn_of_resume hr) rfl
  | close j =>
    obtain ⟨r, hr, rfl⟩ := Option.map_eq_some_iff.mp h
    have hj : i ≠ j := by
      rintro rfl
      exact hl rfl
    exact hother j r hj (turn_of_close hr) rfl
  | triggerPreemption rid' c => exact absurd rfl (hp rid' c)
  | triggerHandoverReady rid' =>
    obtain rfl := Option.some.inj h
    refine hsame rfl fun _ => ?_
    unfold StreamMultiplexer.triggerHandoverReady
    split
    · rename_i ref _
      by_cases href : i = ref
      · subst href
        simp [modifySession]
      · simp [modifySession, Function.update_of_ne href]
    · rfl
  | elapse dt =>
    obtain rfl := Option.some.inj h
    exact hsame rfl fun _ => rfl

/-- Before the generator is called, nothing depends on its upstreams. -/
theorem Tracked.rebase {A' : Upstream} {s : System} (hs : Tracked i rid A F At direct s)
    (hp : (s.generators i).point = .absent) (hfree : ∀ d, AtSwap A' d → At d) :
    Tracked i rid A' F At direct s where
  owned := hs.owned
  recorded := hs.recorded
  stage := by
    simp only [Stage, hp]
    exact hfree
  timed := hs.timed
  arguments := hs.arguments
  signaled := hs.signaled

theorem tracked_direct_completed {s : System} (hs : Tracked i rid A F At direct s)
    (hA : Smooth A F) (hst : Straight A i s) (hp : (s.generators i).point = .ended .completed) :
    (s.generators i).delivered = A.chunks := by
  have hpull : (s.generators i).pulled = A.chunks := by
    have := hst.direct
    simpa only [Generator.Direct, hp] using this
  have hdel : (s.generators i).delivered =
      InOrder.accepted TokenChunk.sequenceId (s.generators i).pulled := hs.recorded.kept.delivered
  rw [hdel, hpull, InOrder.accepted_of_numbered hA.numbered]

end

/-! ### What an upstream carries -/

/-- The upstream ends, and its chunks are these tokens, numbered from `start`. -/
structure Upstream.Carries (u : Upstream) (start : ℕ) (tokens : List PyStr) : Prop where
  ending : u.ending = .done ∨ u.ending = .closed
  numbered : InOrder.Numbered TokenChunk.sequenceId start u.chunks
  tokens : u.chunks.map TokenChunk.token = tokens

namespace Upstream.Carries

variable {A u : Upstream} {start : ℕ} {T tokens : List PyStr} {F : ℤ → Except Exc Upstream}

theorem not_raised (h : u.Carries start tokens) (e : Exc) : u.ending ≠ .raised e := by
  intro he
  have := h.ending
  rw [he] at this
  simp at this

theorem smooth (hA : A.Carries 0 T) (hF : ∀ d, AtSwap A d → ∃ start u tokens, start ≤ d ∧
    F ((d : ℤ) - 1) = .ok u ∧ u.Carries start tokens) : Smooth A F where
  ending := hA.not_raised
  numbered := hA.numbered
  standby d hd := by
    obtain ⟨start, u, tokens, hle, hu, hc⟩ := hF d hd
    refine ⟨u, hu, hc.not_raised, ?_⟩
    refine InOrder.contiguous_append_of_numbered (hA.numbered.take d) hc.numbered ?_
    rw [List.length_take, Nat.min_eq_left hd.1]
    exact_mod_cast hle

/-- The tokens taken from the first `d` chunks of one and then the other. -/
theorem accepted_tokens (hA : A.Carries 0 T) (hu : u.Carries start tokens) {d : ℕ}
    (hd : d ≤ A.chunks.length) (hle : start ≤ d) :
    (InOrder.accepted TokenChunk.sequenceId (A.chunks.take d ++ u.chunks)).map TokenChunk.token =
      T.take d ++ tokens.drop (d - start) := by
  have htake : (A.chunks.take d).length = d := by rw [List.length_take, Nat.min_eq_left hd]
  rw [InOrder.accepted_append_of_numbered (hA.numbered.take d) hu.numbered
    (by rw [htake]; exact_mod_cast hle), htake, List.map_append, List.map_take, List.map_drop,
    hA.tokens, hu.tokens]
  congr 2
  omega

end Upstream.Carries

/-! ### The handler around the generator -/

/-- The client of handler `h` sends this body and reads the response to its
end. -/
def ProxyLabel.Reads (h : ℕ) (body : List (List Char × Json)) : ProxyLabel → Prop
  | .body h' data => h' = h → data = some (.obj body)
  | .prepareFails h' | .writeFails h' | .cancel h' => h' ≠ h
  | _ => True

namespace IngressProxy

section
variable (env : Env) (h : ℕ) (body : List (List Char × Json))

/-- The active upstream of a request that is sent to `url`. -/
def clientActive (url : String) : Upstream :=
  activeGen env h url (withRequestId body (requestIdOf env h body)) (requestIdOf env h body)

/-- The standby of the request, at `url`. -/
def clientStandby (url : String) : ℤ → Except Exc Upstream :=
  standbyFactory env h url (withRequestId body (requestIdOf env h body)) (requestIdOf env h body)

/-- What the handler and the table have of the request, at each point. -/
def Handles (p : IngressProxy) : Prop :=
  match (p.handlers h).point with
  | .preparing => (p.handlers h).requestId = requestIdOf env h body ∧
      (p.handlers h).body = withRequestId body (requestIdOf env h body) ∧
      p.inFlightRequests.get? (requestIdOf env h body) ≠ none
  | .relaying => (p.handlers h).requestId = requestIdOf env h body ∧
      p.inFlightRequests.get? (requestIdOf env h body) ≠ none
  | .forwarding => False
  | .returned => ∃ o, (p.system.generators h).point = .ended o
  | _ => True

/-- All that is known of handler `h` of a client that sends `body` along a run.
The upstream urls are `a` and `b`. -/
structure Course (a b : String) (A : Upstream) (At : ℕ → Prop) (direct : Prop) (p : IngressProxy) :
    Prop where
  linked : Linked p
  sole : Sole h p
  activeUrl : p.activeUpstreamUrl = a
  standbyUrl : p.standbyUpstreamUrl = b
  tracked : Tracked h (requestIdOf env h body) A (clientStandby env h body b) At direct p.system
  source : (p.system.generators h).point = .absent → A = clientActive env h body p.routeUrl
  handler : Handles env h body p

end

section
variable {env : Env} {h : ℕ} {body : List (List Char × Json)} {a b : String} {A : Upstream}
  {At : ℕ → Prop} {direct : Prop} {p q : IngressProxy} {l : ProxyLabel}

theorem course_new (a b : String) :
    Course env h body (rstripSlash a) (rstripSlash b) (clientActive env h body (rstripSlash a))
      (fun _ => True) True (new a b) where
  linked := linked_new a b
  sole := sole_new a b h
  activeUrl := rfl
  standbyUrl := rfl
  tracked := tracked_init 1024 (by decide) 800000000 fun _ _ => trivial
  source _ := rfl
  handler := trivial

/-- The moves of the multiplexer serve the generator as the client has it. -/
theorem Course.serves (hp : Course env h body a b A At direct p) (hq : Stepped env p l q)
    (hl : l.Reads h body) : ∀ x ∈ p.moves env l,
      x.Serves h (requestIdOf env h body) A (clientStandby env h body b) := by
  intro x hx
  cases hq with
  | request h' hr => simp [moves] at hx
  | accepted h' body' hr => simp [moves] at hx
  | returned h' l hr hl' =>
    rcases hl' with ⟨data, rfl, -⟩ | rfl | rfl | ⟨rfl, -⟩
    · simp [moves] at hx
    · simp [moves] at hx
    · have : p.moves env (.cancel h') = [] := by rcases hr with hr | hr | hr <;> simp [moves, hr]
      rw [this] at hx
      simp at hx
    · simp [moves] at hx
  | prepared h' s hr hs =>
    simp only [moves, List.mem_cons, List.not_mem_nil, or_false] at hx
    rcases hx with rfl | rfl
    · rintro rfl
      have habs : (p.system.generators h').point = .absent :=
        hp.linked.absent (by simp [hr]) (by simp [hr])
      have hh := hp.handler
      simp only [Handles, hr] at hh
      obtain ⟨hid, hbody, -⟩ := hh
      rw [hid, hbody, hp.source habs, hp.standbyUrl]
      exact ⟨rfl, rfl, rfl⟩
    · trivial
  | resumed h' s hr hs he =>
    obtain rfl := List.mem_singleton.mp hx
    trivial
  | finished h' s hr hs he =>
    obtain rfl := List.mem_singleton.mp hx
    trivial
  | failed h' l hr hw hl' =>
    rcases hl' with rfl | rfl <;> simp [moves, hw] at hx
  | aborted h' s hr hw hs =>
    have : p.moves env (.cancel h') = [.close h'] := by simp [moves, hr, hw]
    rw [this] at hx
    obtain rfl := List.mem_singleton.mp hx
    exact hl
  | finalized h' s hr hs =>
    obtain rfl := List.mem_singleton.mp hx
    rintro rfl
    have hh := hp.handler
    simp only [Handles, hr] at hh
    obtain ⟨o, ho⟩ := hh
    simp [System.step, StreamMultiplexer.close, ho] at hs
  | alerted data s hs =>
    simp only [moves] at hx
    split at hx
    · obtain ⟨rid, -, rfl⟩ := List.mem_map.mp hx
      trivial
    · simp at hx
  | signaled l s hs hl' =>
    rcases hl' with ⟨data, rfl⟩ | ⟨dt, rfl⟩
    · simp only [moves] at hx
      split at hx
      · obtain rfl := List.mem_singleton.mp hx
        trivial
      · simp at hx
    · obtain rfl := List.mem_singleton.mp hx
      trivial

theorem Course.tracked_after (hA : Smooth A (clientStandby env h body b))
    (hp : Course env h body a b A At direct p) (hq : Stepped env p l q) (hl : l.Reads h body)
    (hs : Sole h q) :
    Tracked h (requestIdOf env h body) A (clientStandby env h body b) At direct q.system :=
  tracked_run hA hp.tracked hq.run (hq.along_apart hp.linked hp.sole hs) (hp.serves hq hl)

/-- A generator that is not there after a move was not there before. -/
theorem Stepped.absent_of_absent (hq : Stepped env p l q)
    (habs : (q.system.generators h).point = .absent) :
    (p.system.generators h).point = .absent := by
  rcases hq.generator h with hg | ⟨-, -, hs⟩ | ⟨-, hs⟩ | ⟨-, hs⟩
  · rwa [← hg]
  · obtain ⟨r, hr, hsys⟩ := Option.map_eq_some_iff.mp hs
    rw [System.put_self] at hr
    rw [← hsys, System.put_self] at habs
    exact absurd habs ((Resumed.of_eq hr).live_of_created rfl).1.started.1
  · obtain ⟨r, hr, hsys⟩ := Option.map_eq_some_iff.mp hs
    rw [← hsys, System.put_self] at habs
    have hres := Resumed.of_eq hr
    rcases hres.live_or_created with hl | hc
    · exact absurd habs (hres.moved hl).started.1
    · exact absurd habs (hres.live_of_created hc).1.started.1
  · rw [close_eq hs] at habs
    cases habs

/-- A request id stays in the table while its handler works, if no other handler
at work has it. -/
theorem Stepped.inFlight (hq : Stepped env p l q) (hp : Linked p) (hs : Sole h p)
    (hb : p.Busy h) (hgo : (q.handlers h).point ≠ .returned)
    (hin : p.inFlightRequests.get? (p.handlers h).requestId ≠ none) :
    q.inFlightRequests.get? (p.handlers h).requestId ≠ none := by
  have hleave : ∀ (j : ℕ) (s : System), (p.handlers j).point = .relaying →
      ((({ p with system := s } : IngressProxy).leave j).handlers h).point ≠ .returned →
      (p.inFlightRequests.pop (p.handlers j).requestId).get? (p.handlers h).requestId ≠ none := by
    intro j s hr hgo
    have hj : j ≠ h := by
      rintro rfl
      rw [leave_handlers_self] at hgo
      exact hgo rfl
    have hne := hs hb j hj (Or.inr (hp.relaying hr).1)
    rwa [Dict.get?_pop_ne _ (Ne.symm hne)]
  cases hq with
  | accepted j body hr =>
    show (p.inFlightRequests.set (requestIdOf env j body)
      (withRequestId body (requestIdOf env j body))).get? (p.handlers h).requestId ≠ none
    rw [Dict.get?_set]
    split
    · simp
    · exact hin
  | finished j s hr hs he => exact hleave j s hr hgo
  | failed j l hr hw hl => exact hleave j p.system hr hgo
  | aborted j s hr hw hs => exact hleave j s hr hgo
  | request | returned | prepared | resumed | finalized | alerted | signaled => exact hin

theorem Stepped.routeUrl (hq : Stepped env p l q) (hna : ∀ data, l ≠ .preemptionAlert data) :
    q.routeUrl = p.routeUrl ∧ q.activeUpstreamUrl = p.activeUpstreamUrl ∧
      q.standbyUpstreamUrl = p.standbyUpstreamUrl := by
  cases hq with
  | alerted data s hs => exact absurd rfl (hna data)
  | _ => exact ⟨rfl, rfl, rfl⟩

/-- A move about another handler. -/
theorem Course.handles_other (hp : Course env h body a b A At direct p) (hq : Stepped env p l q)
    (hh : q.handlers h = p.handlers h)
    (hg : q.system.generators h = p.system.generators h) : Handles env h body q := by
  have hhandler := hp.handler
  have hin := @Stepped.inFlight env h p q l hq hp.linked hp.sole
  rw [hh] at hin
  unfold Handles at hhandler ⊢
  rw [hh, hg]
  split at hhandler
  · rename_i hr
    obtain ⟨hid, hbody, hflight⟩ := hhandler
    rw [hid] at hin
    exact ⟨hid, hbody, hin (Or.inl hr) (by simp [hr]) hflight⟩
  · rename_i hr
    obtain ⟨hid, hflight⟩ := hhandler
    rw [hid] at hin
    exact ⟨hid, hin (Or.inr (hp.linked.relaying hr).1) (by simp [hr]) hflight⟩
  · exact hhandler
  · exact hhandler
  · trivial

/-- The handler itself moves on. -/
theorem Course.handles (hp : Course env h body a b A At direct p) (hq : Stepped env p l q)
    (hl : l.Reads h body) (hstream : ((Json.field? body "stream".toList).getD (.bool true)).truthy) :
    Handles env h body q := by
  have hhandler := hp.handler
  cases hq with
  | request j hr =>
    by_cases hj : h = j
    · subst hj
      simp [Handles]
    · exact hp.handles_other (.request j hr) (goto_handlers_of_ne p hj _) rfl
  | accepted j body' hr =>
    by_cases hj : h = j
    · subst hj
      obtain ⟨rfl⟩ := hl rfl
      simp only [Handles, accept_handlers_self, if_pos hstream]
      refine ⟨trivial, trivial, ?_⟩
      show (p.inFlightRequests.set (requestIdOf env h body) _).get? (requestIdOf env h body) ≠ none
      rw [Dict.get?_set_self]
      exact Option.some_ne_none _
    · exact hp.handles_other (.accepted j body' hr) (accept_handlers_of_ne env p hj body') rfl
  | returned j l hr hl' =>
    by_cases hj : h = j
    · subst hj
      exfalso
      rcases hl' with ⟨data, rfl, hne⟩ | rfl | rfl | ⟨rfl, hf⟩
      · exact hne body (hl rfl)
      · exact hl rfl
      · exact hl rfl
      · simp [Handles, hf] at hhandler
    · exact hp.handles_other (.returned j l hr hl') (goto_handlers_of_ne p hj _) rfl
  | prepared j s hr hs =>
    obtain ⟨-, -, -, -, hother⟩ := startRelay_spec hs
    by_cases hj : h = j
    · subst hj
      simp only [Handles, hr] at hhandler
      simp only [Handles, put_handlers_self]
      exact ⟨hhandler.1, hhandler.2.2⟩
    · exact hp.handles_other (.prepared j s hr hs) (put_handlers_of_ne _ hj _) (hother h hj)
  | resumed j s hr hs he =>
    by_cases hj : h = j
    · subst hj
      simp only [Handles, hr] at hhandler ⊢
      exact hhandler
    · exact hp.handles_other (.resumed j s hr hs he) rfl (step_other hs rfl hj)
  | finished j s hr hs he =>
    by_cases hj : h = j
    · subst hj
      simp only [Handles, leave_handlers_self]
      exact he
    · exact hp.handles_other (.finished j s hr hs he) (leave_handlers_of_ne _ hj)
        (step_other hs rfl hj)
  | failed j l hr hw hl' =>
    have hj : h ≠ j := by
      rintro rfl
      rcases hl' with rfl | rfl
      · exact hl rfl
      · exact hl rfl
    exact hp.handles_other (.failed j l hr hw hl') (leave_handlers_of_ne _ hj) rfl
  | aborted j s hr hw hs =>
    have hj : h ≠ j := by
      rintro rfl
      exact hl rfl
    exact hp.handles_other (.aborted j s hr hw hs) (leave_handlers_of_ne _ hj) (step_other hs rfl hj)
  | finalized j s hr hs =>
    have hj : h ≠ j := by
      rintro rfl
      simp only [Handles, hr] at hhandler
      obtain ⟨o, ho⟩ := hhandler
      simp [System.step, StreamMultiplexer.close, ho] at hs
    exact hp.handles_other (.finalized j s hr hs) rfl (step_other hs rfl hj)
  | alerted data s hs =>
    exact hp.handles_other (.alerted data s hs) rfl
      (congrFun (run_tells (moves_tells (Or.inl ⟨data, rfl⟩)) hs) h)
  | signaled l s hs hl' =>
    exact hp.handles_other (.signaled l s hs hl') rfl
      (congrFun (run_tells (moves_tells (Or.inr hl')) hs) h)

/-- Any move but an alert. -/
theorem course_step (hA : Smooth A (clientStandby env h body b))
    (hp : Course env h body a b A At direct p) (hq : Stepped env p l q) (hl : l.Reads h body)
    (hstream : ((Json.field? body "stream".toList).getD (.bool true)).truthy)
    (hna : ∀ data, l ≠ .preemptionAlert data) (hs : Sole h q) :
    Course env h body a b A At direct q where
  linked := hq.linked hp.linked
  sole := hs
  activeUrl := (hq.routeUrl hna).2.1.trans hp.activeUrl
  standbyUrl := (hq.routeUrl hna).2.2.trans hp.standbyUrl
  tracked := hp.tracked_after hA hq hl hs
  source habs := by
    rw [(hq.routeUrl hna).1]
    exact hp.source (hq.absent_of_absent habs)
  handler := hp.handles hq hl hstream

theorem Course.relaying (hp : Course env h body a b A At direct p)
    (hl : (p.system.generators h).Live) : (p.handlers h).point = .relaying := by
  have hh := hp.handler
  by_contra hne
  by_cases hret : (p.handlers h).point = .returned
  · simp only [Handles, hret] at hh
    obtain ⟨o, ho⟩ := hh
    simp [Generator.Live, ho] at hl
  · exact hl.started.1 (hp.linked.absent hne hret)

/-! ### Alerts -/

/-- An alert that comes before the upstream is chosen: the request goes to the
standby url. -/
theorem course_alert_early {data : Json} (hA : Smooth A (clientStandby env h body b))
    (hp : Course env h body a b A At direct p) (hq : Stepped env p (.preemptionAlert data) q)
    (hs : Sole h q) (habs : (p.system.generators h).point = .absent)
    (hfree : ∀ d, AtSwap (clientActive env h body b) d → At d)
    (hstream : ((Json.field? body "stream".toList).getD (.bool true)).truthy) :
    Course env h body a b (clientActive env h body b) At direct q := by
  have ht := hp.tracked_after hA hq trivial hs
  have hhandler := hp.handles hq trivial hstream
  obtain ⟨s, hr, rfl⟩ := hq.alert_inv
  have hg := run_tells (moves_tells (Or.inl ⟨data, rfl⟩)) hr
  refine ⟨hq.linked hp.linked, hs, hp.activeUrl, hp.standbyUrl, ht.rebase ?_ hfree, fun _ => ?_,
    hhandler⟩
  · show (s.generators h).point = .absent
    rw [hg, habs]
  · show _ = clientActive env h body p.standbyUpstreamUrl
    rw [hp.standbyUrl]

/-- An alert that comes after the upstream has been chosen. -/
theorem course_alert_late {data : Json} (hA : Smooth A (clientStandby env h body b))
    (hp : Course env h body a b A At direct p) (hq : Stepped env p (.preemptionAlert data) q)
    (hs : Sole h q) (hpres : (p.system.generators h).point ≠ .absent)
    (hstream : ((Json.field? body "stream".toList).getD (.bool true)).truthy) :
    Course env h body a b A At direct q := by
  have ht := hp.tracked_after hA hq trivial hs
  have hhandler := hp.handles hq trivial hstream
  have hpres' : (q.system.generators h).point ≠ .absent := fun habs => hpres (hq.absent_of_absent habs)
  obtain ⟨s, hr, rfl⟩ := hq.alert_inv
  exact ⟨hq.linked hp.linked, hs, hp.activeUrl, hp.standbyUrl, ht, fun habs => absurd habs hpres',
    hhandler⟩

/-- An alert that comes while the stream reads the active upstream. -/
theorem course_alert {data : Json} {cutoff : ℤ} (hA : Smooth A (clientStandby env h body b))
    (hp : Course env h body a b A At direct p) (hq : Stepped env p (.preemptionAlert data) q)
    (hs : Sole h q) (hphase : (p.system.generators h).InPhase1) (hc : cutoffOf data = some cutoff)
    (hstream : ((Json.field? body "stream".toList).getD (.bool true)).truthy) :
    Course env h body a b A At False q := by
  have hhandler := hp.handles hq trivial hstream
  have halong := hq.along_apart hp.linked hp.sole hs
  have hrun := hq.run
  have hlinked := hq.linked hp.linked
  -- the request is in the table, so the alert is passed on to its session
  have hin : requestIdOf env h body ∈ p.inFlightRequests.keys := by
    have hh := hp.handler
    simp only [Handles, hp.relaying hphase.live] at hh
    rw [Dict.mem_keys, Option.isSome_iff_ne_none]
    exact hh.2
  obtain ⟨ks, ks', hks⟩ := List.append_of_mem hin
  have hmoves : p.moves env (.preemptionAlert data) =
      ks.map (.triggerPreemption · cutoff) ++
        .triggerPreemption (requestIdOf env h body) cutoff ::
          ks'.map (.triggerPreemption · cutoff) := by
    simp only [moves, hc, hks, List.map_append, List.map_cons]
  have htells : ∀ (ks : List String), ∀ x ∈ ks.map (Label.triggerPreemption · cutoff),
      (∀ j, x.About j) ∧ x.Serves h (requestIdOf env h body) A (clientStandby env h body b) := by
    intro ks x hx
    obtain ⟨rid, -, rfl⟩ := List.mem_map.mp hx
    exact ⟨fun _ => trivial, trivial⟩
  rw [hmoves] at hrun halong
  obtain ⟨s₁, hr₁, hr₂⟩ := Machine.run_append_eq_some.mp hrun
  obtain ⟨s₂, hstep, hr₂⟩ := Machine.run_cons_eq_some.mp hr₂
  obtain rfl := Option.some.inj hstep
  have ht₁ := tracked_run hA hp.tracked hr₁ halong.append_left fun x hx => (htells ks x hx).2
  have hphase₁ : (s₁.generators h).InPhase1 := by
    rw [run_tells (fun x hx => (htells ks x hx).1) hr₁]
    exact hphase
  have ht₂ := tracked_signal ht₁ hphase₁ cutoff
  have halong₂ := ((halong.append_right hr₁) _ hstep).2
  have ht := tracked_run hA ht₂ hr₂ halong₂ fun x hx => (htells ks' x hx).2
  obtain ⟨s, hr, rfl⟩ := hq.alert_inv
  refine ⟨hlinked, hs, hp.activeUrl, hp.standbyUrl, ht, fun habs => ?_, hhandler⟩
  have hg := run_tells (moves_tells (Or.inl ⟨data, rfl⟩)) hr
  have habs : (s.generators h).point = .absent := habs
  rw [hg] at habs
  exact absurd habs hphase.live.started.1

theorem moves_untriggered (hna : ∀ data, l ≠ .preemptionAlert data) :
    ∀ x ∈ p.moves env l, ∀ rid c, x ≠ .triggerPreemption rid c := by
  rintro x hx rid c rfl
  cases l with
  | preemptionAlert data => exact hna data rfl
  | handoverReady data =>
    simp only [moves] at hx
    split at hx <;> simp at hx
  | cancel j =>
    simp only [moves] at hx
    split at hx <;> simp at hx
  | _ => simp [moves] at hx

/-- Without an alert, a request goes on as it was sent. -/
theorem Course.straight_after (hA : Smooth A (clientStandby env h body b))
    (hp : Course env h body a b A At direct p) (hst : Straight A h p.system)
    (hq : Stepped env p l q) (hl : l.Reads h body) (hna : ∀ data, l ≠ .preemptionAlert data)
    (hs : Sole h q) : Straight A h q.system := by
  have hserves := hp.serves hq hl
  have hlabels : Machine.Along System.step (fun _ x _ =>
      x.Serves h (requestIdOf env h body) A (clientStandby env h body b) ∧
        ∀ rid c, x ≠ .triggerPreemption rid c) p.system (p.moves env l) :=
    Machine.Along.of_labels fun x hx => ⟨hserves x hx, moves_untriggered hna x hx⟩
  refine (Machine.run_inv_along (I := fun s => Tracked h (requestIdOf env h body) A
    (clientStandby env h body b) At direct s ∧ Straight A h s) ?_ ⟨hp.tracked, hst⟩
    ((hq.along_apart hp.linked hp.sole hs).and hlabels) hq.run).2
  rintro s x t ⟨hs, hst⟩ ht ⟨ha, hx, hne⟩
  refine ⟨tracked_step hA hs ht ha hx, straight_step hs hst ht ha ?_ hne⟩
  rintro rfl
  exact hx rfl

/-! ### Runs -/

/-- The client of handler `h` reads on, and no alert comes. -/
def Quiet (h : ℕ) (body : List (List Char × Json)) (l : ProxyLabel) : Prop :=
  l.Reads h body ∧ ∀ data, l ≠ .preemptionAlert data

theorem course_run {ls : List ProxyLabel} (hA : Smooth A (clientStandby env h body b))
    (hstream : ((Json.field? body "stream".toList).getD (.bool true)).truthy)
    (hp : Course env h body a b A At direct p) (hr : Machine.run (step env) p ls = some q)
    (hs : Machine.Along (step env) (fun _ _ q => Sole h q) p ls) (hl : ∀ l ∈ ls, Quiet h body l) :
    Course env h body a b A At direct q := by
  have hquiet : Machine.Along (step env) (fun _ l _ => Quiet h body l) p ls :=
    Machine.Along.of_labels hl
  exact Machine.run_inv_along (fun p l q hp hq hc =>
    course_step hA hp (.of_step hq) hc.2.1 hstream hc.2.2 hc.1) hp (hs.and hquiet) hr

theorem course_run_straight {ls : List ProxyLabel} (hA : Smooth A (clientStandby env h body b))
    (hstream : ((Json.field? body "stream".toList).getD (.bool true)).truthy)
    (hp : Course env h body a b A At direct p) (hst : Straight A h p.system)
    (hr : Machine.run (step env) p ls = some q)
    (hs : Machine.Along (step env) (fun _ _ q => Sole h q) p ls) (hl : ∀ l ∈ ls, Quiet h body l) :
    Course env h body a b A At direct q ∧ Straight A h q.system := by
  have hquiet : Machine.Along (step env) (fun _ l _ => Quiet h body l) p ls :=
    Machine.Along.of_labels hl
  exact Machine.run_inv_along
    (I := fun p => Course env h body a b A At direct p ∧ Straight A h p.system)
    (fun p l q hp hq hc => ⟨course_step hA hp.1 (.of_step hq) hc.2.1 hstream hc.2.2 hc.1,
      hp.1.straight_after hA hp.2 (.of_step hq) hc.2.1 hc.2.2 hc.1⟩) ⟨hp, hst⟩ (hs.and hquiet) hr

/-- Alerts included, once the upstream has been chosen. -/
theorem course_run_started {ls : List ProxyLabel} (hA : Smooth A (clientStandby env h body b))
    (hstream : ((Json.field? body "stream".toList).getD (.bool true)).truthy)
    (hp : Course env h body a b A At direct p) (hpres : (p.system.generators h).point ≠ .absent)
    (hr : Machine.run (step env) p ls = some q)
    (hs : Machine.Along (step env) (fun _ _ q => Sole h q) p ls)
    (hl : ∀ l ∈ ls, l.Reads h body) : Course env h body a b A At direct q := by
  have hreads : Machine.Along (step env) (fun _ l _ => l.Reads h body) p ls :=
    Machine.Along.of_labels hl
  refine (Machine.run_inv_along (I := fun p => Course env h body a b A At direct p ∧
    (p.system.generators h).point ≠ .absent) ?_ ⟨hp, hpres⟩ (hs.and hreads) hr).1
  rintro p l q ⟨hp, hpres⟩ hq ⟨hs, hl⟩
  have hq := Stepped.of_step hq
  refine ⟨?_, fun habs => hpres (hq.absent_of_absent habs)⟩
  by_cases hna : ∀ data, l ≠ .preemptionAlert data
  · exact course_step hA hp hq hl hstream hna hs
  · obtain ⟨data, hdata⟩ := not_forall_not.mp hna
    subst hdata
    exact course_alert_late hA hp hq hs hpres hstream

/-- Any run: the active upstream is at one of the two urls. -/
theorem course_any {ls : List ProxyLabel}
    (hA : ∀ url, Smooth (clientActive env h body url) (clientStandby env h body (rstripSlash b)))
    (hstream : ((Json.field? body "stream".toList).getD (.bool true)).truthy)
    (hr : Machine.run (step env) (new a b) ls = some q)
    (hs : Machine.Along (step env) (fun _ _ q => Sole h q) (new a b) ls)
    (hl : ∀ l ∈ ls, l.Reads h body) :
    ∃ url, Course env h body (rstripSlash a) (rstripSlash b) (clientActive env h body url)
      (fun _ => True) True q := by
  have hreads : Machine.Along (step env) (fun _ l _ => l.Reads h body) (new a b) ls :=
    Machine.Along.of_labels hl
  refine Machine.run_inv_along (I := fun p => ∃ url, Course env h body (rstripSlash a)
    (rstripSlash b) (clientActive env h body url) (fun _ => True) True p) ?_
    ⟨_, course_new a b⟩ (hs.and hreads) hr
  rintro p l q ⟨url, hp⟩ hq ⟨hs, hl⟩
  have hq := Stepped.of_step hq
  by_cases hna : ∀ data, l ≠ .preemptionAlert data
  · exact ⟨url, course_step (hA url) hp hq hl hstream hna hs⟩
  · obtain ⟨data, hdata⟩ := not_forall_not.mp hna
    subst hdata
    by_cases hpres : (p.system.generators h).point = .absent
    · exact ⟨_, course_alert_early (hA url) hp hq hs hpres (fun _ _ => trivial) hstream⟩
    · exact ⟨url, course_alert_late (hA url) hp hq hs hpres hstream⟩

/-- A timeout tick, then a resumption of the relay loop. -/
def relayTick (h : ℕ) : List ProxyLabel := [.elapse waitTick, .resume h]

theorem sole_of_own (hs : Sole h p) (hb : p.Busy h)
    (hid : (q.handlers h).requestId = (p.handlers h).requestId)
    (hh : ∀ j, j ≠ h → q.handlers j = p.handlers j)
    (hg : ∀ j, j ≠ h → q.system.generators j = p.system.generators j) : Sole h q := by
  intro _ j hj hbj
  unfold Busy at hbj
  rw [hh j hj, hg j hj] at hbj
  rw [hh j hj, hid]
  exact hs hb j hj hbj

/-- The relay loop is never stuck: after a tick it moves, at the cost of
effort. -/
theorem course_tick {n : ℕ} (hA : Smooth A (clientStandby env h body b))
    (hstream : ((Json.field? body "stream".toList).getD (.bool true)).truthy)
    (hn : Bounded A (clientStandby env h body b) n) (hp : Course env h body a b A At direct p)
    (hr : (p.handlers h).point = .relaying) :
    ∃ q, Machine.run (step env) p (relayTick h) = some q ∧
      Machine.Along (step env) (fun _ _ q => Sole h q) p (relayTick h) ∧
      Course env h body a b A At direct q ∧
      ((q.handlers h).point = .relaying ∨ (q.handlers h).point = .returned) ∧
      (q.system.generators h).effort n < (p.system.generators h).effort n := by
  obtain ⟨hlive, -⟩ := hp.linked.relaying hr
  obtain ⟨t, ht, -, -, hlt⟩ := tracked_tick hA hp.tracked hn hlive
  obtain ⟨s, hs, ht⟩ := Machine.run_cons_eq_some.mp ht
  rw [run_singleton] at ht
  have hstep₁ : step env p (.elapse waitTick) = some { p with system := s } := by
    simp only [step, drive, Machine.run_cons, hs, Option.bind_some, Machine.run_nil, Option.map_some]
  have hsole₁ : Sole h ({ p with system := s } : IngressProxy) := by
    obtain rfl := Option.some.inj hs
    exact hp.sole
  have hp₁ := course_step hA hp (.of_step hstep₁) trivial hstream (by simp) hsole₁
  have hrun : drive ({ p with system := s } : IngressProxy) [.resume h] =
      some { p with system := t } := by
    simp only [drive, Machine.run_cons, ht, Option.bind_some, Machine.run_nil, Option.map_some]
  have hgen : ∀ j, j ≠ h → t.generators j = p.system.generators j := by
    intro j hj
    rw [step_other ht (h := h) rfl hj]
    exact step_other hs (h := h) trivial hj
  obtain ⟨q, hstep₂, hsys, hpoint, hid, hh⟩ : ∃ q,
      step env ({ p with system := s } : IngressProxy) (.resume h) = some q ∧ q.system = t ∧
        ((q.handlers h).point = .relaying ∨ (q.handlers h).point = .returned) ∧
        (q.handlers h).requestId = (p.handlers h).requestId ∧
        ∀ j, j ≠ h → q.handlers j = p.handlers j := by
    by_cases hend : ({ p with system := t } : IngressProxy).ended h = true
    · refine ⟨({ p with system := t } : IngressProxy).leave h, ?_, rfl, ?_, ?_, ?_⟩
      · simp only [step, hr, if_true, relay, hrun, Option.map_some, if_pos hend]
      · simp
      · simp
      · exact fun j hj => leave_handlers_of_ne _ hj
    · refine ⟨{ p with system := t }, ?_, rfl, Or.inl hr, rfl, fun _ _ => rfl⟩
      simp only [step, hr, if_true, relay, hrun, Option.map_some, if_neg hend]
  have hsole₂ : Sole h q :=
    sole_of_own hp.sole (Or.inr hlive) hid hh fun j hj => by rw [hsys, hgen j hj]
  refine ⟨q, ?_, ?_, course_step hA hp₁ (.of_step hstep₂) trivial hstream (by simp) hsole₂, hpoint,
    by rw [hsys]; exact hlt⟩
  · exact Machine.run_cons_eq_some.mpr ⟨_, hstep₁, Machine.run_cons_eq_some.mpr ⟨_, hstep₂, rfl⟩⟩
  · intro p' hp'
    obtain rfl := Option.some.inj (hstep₁.symm.trans hp')
    refine ⟨hsole₁, fun q' hq' => ?_⟩
    obtain rfl := Option.some.inj (hstep₂.symm.trans hq')
    exact ⟨hsole₂, trivial⟩

/-- Left to itself, with time passing, the handler comes to its end. -/
theorem course_completes {n : ℕ} (hA : Smooth A (clientStandby env h body b))
    (hstream : ((Json.field? body "stream".toList).getD (.bool true)).truthy)
    (hn : Bounded A (clientStandby env h body b) n) : ∀ p, Course env h body a b A At direct p →
    (p.handlers h).point = .relaying →
    ∃ k q, Machine.run (step env) p (List.replicate k (relayTick h)).flatten = some q ∧
      Machine.Along (step env) (fun _ _ q => Sole h q) p (List.replicate k (relayTick h)).flatten ∧
      Course env h body a b A At direct q ∧ (q.handlers h).point = .returned := by
  intro p hp hr
  obtain ⟨q, hq, hs, hcq, hpoint, hlt⟩ := course_tick hA hstream hn hp hr
  rcases hpoint with hrq | hret
  · obtain ⟨k, u, hu, hsu, hcu, hret⟩ := course_completes hA hstream hn q hcq hrq
    refine ⟨k + 1, u, ?_, ?_, hcu, hret⟩
    · rw [List.replicate_succ, List.flatten_cons]
      exact Machine.run_append_eq_some.mpr ⟨q, hq, hu⟩
    · rw [List.replicate_succ, List.flatten_cons]
      refine hs.append fun q' hq' => ?_
      obtain rfl := Option.some.inj (hq.symm.trans hq')
      exact hsu
  · exact ⟨1, q, by simpa using hq, by simpa using hs, hcq, hret⟩
  termination_by p => (p.system.generators h).effort n

theorem mem_ticks {h k : ℕ} (hl : l ∈ (List.replicate k (relayTick h)).flatten) : l ∈ relayTick h := by
  obtain ⟨ls, hls, hl⟩ := List.mem_flatten.mp hl
  rwa [List.eq_of_mem_replicate hls] at hl

theorem quiet_ticks (h : ℕ) (body : List (List Char × Json)) (k : ℕ) :
    ∀ l ∈ (List.replicate k (relayTick h)).flatten, Quiet h body l := by
  intro l hl
  rcases List.mem_pair.mp (mem_ticks hl) with rfl | rfl
  · exact ⟨trivial, nofun⟩
  · exact ⟨trivial, nofun⟩

/-- A handler that has returned has completed its stream. -/
theorem Course.returned (hp : Course env h body a b A At direct p)
    (hr : (p.handlers h).point = .returned) : (p.system.generators h).point = .ended .completed := by
  have hh := hp.handler
  simp only [Handles, hr] at hh
  obtain ⟨o, ho⟩ := hh
  rw [ho, (tracked_ended hp.tracked ho).1]

/-- Where the course of the request leads. -/
theorem course_outcome {tokens : List PyStr} (hA : Smooth A (clientStandby env h body b))
    (hstream : ((Json.field? body "stream".toList).getD (.bool true)).truthy)
    (hp : Course env h body a b A At direct p)
    (htok : (p.system.generators h).point = .ended .completed →
      (p.system.generators h).delivered.map TokenChunk.token = tokens) :
    (∀ o, (p.system.generators h).point = .ended o → o = .completed ∧
      (p.system.generators h).delivered.map TokenChunk.token = tokens ∧
      (p.system.generators h).items.filter (· ≠ .keepAlive) =
        (p.system.generators h).delivered.map .data ++ [.done]) ∧
    ((p.handlers h).point = .relaying → ∃ k q,
      Machine.run (step env) p (List.replicate k (relayTick h)).flatten = some q ∧
        (q.system.generators h).point = .ended .completed) := by
  constructor
  · intro o ho
    obtain ⟨rfl, -, -, hshape⟩ := tracked_ended hp.tracked ho
    exact ⟨rfl, htok ho, hshape⟩
  · intro hr
    obtain ⟨n, hn⟩ := exists_bounded A (clientStandby env h body b)
    obtain ⟨k, q, hq, -, hc, hret⟩ := course_completes hA hstream hn p hp hr
    exact ⟨k, q, hq, hc.returned hret⟩

/-! ### To the relay loop -/

theorem acceptBody_obj {q : IngressProxy}
    (hid : hasTextId body) :
    q.acceptBody env h (some (.obj body)) = some (q.accept env h body) := by
  simp only [acceptBody, if_pos hid]

theorem startRelay_absent {q : IngressProxy} (hq : (q.system.generators h).point = .absent) :
    ∃ q', q.startRelay env h = some q' ∧ (q'.handlers h).point = .relaying ∧
      (q'.system.generators h).point = .pullActive := by
  have hcall : q.system.step (.call h (q.called env h).requestId (q.called env h).active
      (q.called env h).standbyFactory) = some (q.system.put h (q.system.mux, q.called env h)) := by
    simp only [System.step, hq]
    rfl
  obtain ⟨s, hs, hpoint⟩ : ∃ s,
      (q.system.put h (q.system.mux, q.called env h)).step (.resume h) = some s ∧
        (s.generators h).point = .pullActive := by
    simp only [System.step, System.put_self]
    exact ⟨_, rfl, by simp⟩
  have hrun : q.drive [.call h (q.called env h).requestId (q.called env h).active
      (q.called env h).standbyFactory, .resume h] = some { q with system := s } :=
    drive_eq_some.mpr ⟨s, Machine.run_cons_eq_some.mpr ⟨_, hcall, run_singleton.mpr hs⟩, rfl⟩
  exact ⟨_, congrArg (Option.map _) hrun, by rw [put_handlers_self], hpoint⟩

theorem run_to_relay (env : Env) (h : ℕ) (a b : String)
    (hid : hasTextId body)
    (hstream : ((Json.field? body "stream".toList).getD (.bool true)).truthy) :
    ∃ p, Machine.run (step env) (new a b)
        [.request h, .body h (some (.obj body)), .prepared h] = some p ∧
      (p.handlers h).point = .relaying ∧ (p.system.generators h).point = .pullActive := by
  obtain ⟨p, hp, hr⟩ := @startRelay_absent env h
    (((new a b).goto h .reading).accept env h body) rfl
  refine ⟨p, ?_, hr⟩
  have h1 : step env (new a b) (.request h) = some ((new a b).goto h .reading) := rfl
  have h2 : step env ((new a b).goto h .reading) (.body h (some (.obj body))) =
      some (((new a b).goto h .reading).accept env h body) := by
    simp only [step, goto_handlers_self, if_true]
    exact acceptBody_obj hid
  have h3 : step env (((new a b).goto h .reading).accept env h body) (.prepared h) = some p := by
    simp only [step, accept_handlers_self, if_pos hstream, if_true]
    exact hp
  simp only [Machine.run_cons, h1, h2, h3, Option.bind_some, Machine.run_nil]

/-- Alerts are always handled. -/
theorem alert_enabled (env : Env) (p : IngressProxy) (data : Json) :
    ∃ q, step env p (.preemptionAlert data) = some q ∧ q.handlers = p.handlers := by
  have hrun : ∀ (cutoff : ℤ) (ks : List String) (s : System), ∃ t,
      Machine.run System.step s (ks.map (.triggerPreemption · cutoff)) = some t := by
    intro cutoff ks
    induction ks with
    | nil => exact fun s => ⟨s, rfl⟩
    | cons k ks ih =>
      intro s
      obtain ⟨t, ht⟩ := ih { s with mux := s.mux.triggerPreemption k cutoff }
      exact ⟨t, Machine.run_cons_eq_some.mpr ⟨_, rfl, ht⟩⟩
  simp only [step, handlePreemptionAlert]
  cases cutoffOf data with
  | none => exact ⟨_, rfl, rfl⟩
  | some cutoff =>
    obtain ⟨t, ht⟩ := hrun cutoff p.inFlightRequests.keys p.system
    exact ⟨_, drive_eq_some.mpr ⟨t, ht, rfl⟩, rfl⟩

theorem about_ticks (h k : ℕ) : ∀ l ∈ (List.replicate k (relayTick h)).flatten, About h l := by
  intro l hl
  rcases List.mem_pair.mp (mem_ticks hl) with rfl | rfl
  · trivial
  · rfl

end

end IngressProxy
end Sgm
