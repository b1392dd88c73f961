/-
# What the proxy reports of a request

`handle_get_active_requests` tells a node daemon the last flushed id of each
request. For a request whose id is in use by one handler alone that is the
number of the chunks its client has been sent, less one, at the end of its
stream too; and what the client has been sent only grows.

Key definitions: `Counted`, `IngressProxy.Reserved`, `IngressProxy.Reporting`.
Key theorems: `counted_step`, `Counted.delivered_grows`, `IngressProxy.Reporting.reported`.
-/
import Sgm.Proxy.Cleanup

namespace Sgm

open InOrder Event StreamMultiplexer

/-! ### One resumption -/

section
variable {now i : ℕ} {m : StreamMultiplexer} {g : Generator} {r : StreamMultiplexer × Generator}

theorem Buffered.log_grows {m' : StreamMultiplexer} (h : Buffered m' g r) : g.log <+: r.2.log := by
  rcases h.log with hl | hl
  · rw [hl]
  · rw [hl]
    exact List.prefix_append _ _

theorem log_grows_checkCutoff (c : TokenChunk) : g.log <+: (m.checkCutoff now g c).2.log := by
  rcases checkCutoff_spec now m g c with ⟨-, hb⟩ | he
  · exact hb.log_grows
  · rw [he]
    exact List.prefix_rfl

theorem log_grows_afterActive : g.log <+: (m.afterActive now g).2.log := by
  rcases afterActive_spec now m g with ⟨-, hb⟩ | ⟨-, he⟩
  · exact hb.log_grows
  · rw [he]
    exact List.prefix_append _ _

theorem log_grows_raise (e : Exc) : g.log <+: (m.raise g e).2.log := by
  rw [(raise_spec m g e).2]

/-- A resumption adds to the log. -/
theorem Resumed.log_grows (h : Resumed now i m g r) : g.log <+: r.2.log := by
  have hrecord {g' : Generator} (hg : g'.log <+: r.2.log) (e : Event) (he : g'.log = g.log ++ [e]) :
      g.log <+: r.2.log := (List.prefix_append g.log [e]).trans (he ▸ hg)
  cases h with
  | start => exact List.prefix_append _ _
  | dropActive c rest _ _ _ => exact hrecord (log_grows_checkCutoff c) (.pulled c) rfl
  | acceptActive c rest d _ _ _ _ _ =>
    exact hrecord (show (g.record (.pulled c)).log <+: _ from List.prefix_append _ _) (.pulled c) rfl
  | gapActive c rest msg _ _ _ => exact hrecord (log_grows_raise _) (.pulled c) rfl
  | endActive => exact hrecord log_grows_afterActive (.upstreamEnded g.active.ending) rfl
  | raiseActive e => exact hrecord (log_grows_raise e) (.upstreamEnded g.active.ending) rfl
  | resumeActive c => exact log_grows_checkCutoff (g := { g with lastActivityTime := now }) c
  | resumeKeepAlive => exact List.prefix_rfl
  | wake => exact (buffered_bufferingLoop now m g).log_grows
  | connectStandby => exact List.prefix_append _ _
  | failStandby e => exact log_grows_raise e
  | dropStandby => exact List.prefix_append _ _
  | acceptStandby c rest d _ _ _ _ _ =>
    exact hrecord (show (g.record (.pulled c)).log <+: _ from List.prefix_append _ _) (.pulled c) rfl
  | gapStandby c rest msg _ _ _ => exact hrecord (log_grows_raise _) (.pulled c) rfl
  | endStandby =>
    exact hrecord (show (g.record (.upstreamEnded g.standby.ending)).log <+: _ from List.prefix_append _ _)
      (.upstreamEnded g.standby.ending) rfl
  | raiseStandby e => exact hrecord (log_grows_raise e) (.upstreamEnded g.standby.ending) rfl
  | resumeStandby => exact List.prefix_rfl
  | finish => exact List.prefix_rfl

theorem Buffered.not_done {m' : StreamMultiplexer} (h : Buffered m' g r) :
    r.2.point ≠ .yieldedDone := by
  intro hd
  have hb := h.buffering
  simp [Generator.Buffering, hd] at hb

theorem raise_not_done (e : Exc) : (m.raise g e).2.point ≠ .yieldedDone := by
  obtain ⟨⟨e', he⟩, -⟩ := raise_spec m g e
  rw [he]
  exact nofun

theorem delivered_endOfStream (e : UpstreamEnd) :
    (m.endOfStream (g.record (.upstreamEnded e))).2.delivered = g.delivered := by
  show SseItem.chunks (sentIn (g.log ++ [.upstreamEnded e] ++ [.sent .done])) =
    SseItem.chunks (sentIn g.log)
  simp

/-- Where the end of the stream is yielded, nothing is delivered, and the
deduplicator is as it was. -/
theorem Resumed.of_done (h : Resumed now i m g r) (hd : r.2.point = .yieldedDone) :
    g.Live ∧ r.1.deduplicator = m.deduplicator ∧ r.2.requestId = g.requestId ∧
      r.2.delivered = g.delivered := by
  have hcutoff {g' : Generator} (c : TokenChunk) : (m.checkCutoff now g' c).2.point ≠ .yieldedDone := by
    rcases checkCutoff_spec now m g' c with ⟨-, hb⟩ | he
    · exact hb.not_done
    · rw [he]
      exact nofun
  cases h with
  | endActive hp _ _ =>
    have hl : g.Live := by simp [Generator.Live, hp]
    rcases afterActive_spec now m (g.record (.upstreamEnded g.active.ending)) with ⟨-, hb⟩ | ⟨-, he⟩
    · exact absurd hd hb.not_done
    · rw [he]
      exact ⟨hl, rfl, rfl, delivered_endOfStream _⟩
  | endStandby hp _ _ =>
    exact ⟨by simp [Generator.Live, hp], rfl, rfl, delivered_endOfStream _⟩
  | dropActive c => exact absurd hd (hcutoff c)
  | resumeActive c => exact absurd hd (hcutoff c)
  | gapActive | raiseActive | failStandby | gapStandby | raiseStandby =>
    exact absurd hd (raise_not_done _)
  | wake => exact absurd hd (buffered_bufferingLoop now m g).not_done
  | dropStandby c rest hp _ _ =>
    have hsame : g.point = .yieldedDone := hd
    rw [hp] at hsame
    cases hsame
  | _ => cases hd

end

/-! ### Runs of the multiplexer -/

/-- Generator `i` has its request for itself, and while it runs the last flushed
id counts what it has delivered. -/
structure Counted (i : ℕ) (s : System) : Prop where
  owned : Owned i s
  recorded : Recorded s.mux.deduplicator (s.generators i)
  flushed : (s.generators i).Live →
    s.mux.deduplicator.getLastFlushed (s.generators i).requestId + 1 =
      (s.generators i).delivered.length

theorem counted_init (c : ℕ) (hc : 0 < c) (ka i : ℕ) : Counted i (System.init c hc ka) :=
  ⟨owned_init c hc ka i, ⟨fun _ => rfl, fun hl => hl.elim, kept_nil⟩, fun hl => hl.elim⟩

theorem counted_step {s t : System} {l : Label} {i : ℕ} (hs : Counted i s) (ht : s.step l = some t)
    (ha : Apart i t) : Counted i t := by
  obtain ⟨howned, hmove⟩ := owned_step hs.owned ht ha
  have hrec := recorded_step hs.owned hs.recorded ht ha
  refine ⟨howned, hrec, fun hlive => ?_⟩
  by_cases hd : (t.generators i).point = .yieldedDone
  · -- the end of the stream: the count is that of the state before
    rcases hmove with (rfl | rfl) | ⟨rid, a, b, rfl, hp⟩ | he
    · obtain ⟨r, hr, rfl⟩ := Option.map_eq_some_iff.mp ht
      rw [System.put_self] at hd ⊢
      obtain ⟨hl, hdedup, hid, hdel⟩ := (Resumed.of_eq hr).of_done hd
      show r.1.deduplicator.getLastFlushed r.2.requestId + 1 = r.2.delivered.length
      rw [hdedup, hid, hdel]
      exact hs.flushed hl
    · rw [IngressProxy.close_eq ht] at hd
      cases hd
    · simp only [System.step, hp] at ht
      obtain rfl := Option.some.inj ht
      rw [System.put_self] at hd
      cases hd
    · rw [he.generator] at hlive ⊢
      rw [he.flushed hlive]
      exact hs.flushed hlive
  · exact (hrec.running hlive hd).flushed

/-- What has been delivered stays so. -/
theorem Counted.delivered_grows {s t : System} {l : Label} {i : ℕ} (hs : Counted i s)
    (ht : s.step l = some t) (ha : Apart i t) :
    (s.generators i).delivered <+: (t.generators i).delivered := by
  have hlog : (s.generators i).log <+: (t.generators i).log := by
    rcases (owned_step hs.owned ht ha).2 with (rfl | rfl) | ⟨rid, a, b, rfl, hp⟩ | he
    · obtain ⟨r, hr, rfl⟩ := Option.map_eq_some_iff.mp ht
      rw [System.put_self]
      exact (Resumed.of_eq hr).log_grows
    · rw [IngressProxy.close_eq ht]
      exact List.prefix_rfl
    · rw [hs.recorded.idle fun hstarted => hstarted.1 hp]
      exact List.nil_prefix
    · rw [he.generator]
  obtain ⟨new, hnew⟩ := hlog
  refine ⟨SseItem.chunks (sentIn new), ?_⟩
  rw [Generator.delivered, Generator.delivered, Generator.items, Generator.items, ← hnew,
    sentIn_append, SseItem.chunks_append]

theorem counted_run {i : ℕ} {ls : List Label} {s t : System} (hs : Counted i s)
    (ha : Machine.Along System.step (fun _ _ t => Apart i t) s ls)
    (hr : Machine.run System.step s ls = some t) :
    Counted i t ∧ (s.generators i).delivered <+: (t.generators i).delivered :=
  Machine.run_inv_along
    (I := fun t => Counted i t ∧ (s.generators i).delivered <+: (t.generators i).delivered)
    (fun _ _ _ h ht ha => ⟨counted_step h.1 ht ha, h.2.trans (h.1.delivered_grows ht ha)⟩)
    ⟨hs, List.prefix_rfl⟩ ha hr

/-! ### Runs of the proxy -/

namespace IngressProxy

/-- Request id `rid` is in use by handler `h` alone, if at all. -/
structure Reserved (h : ℕ) (rid : String) (p : IngressProxy) : Prop where
  sole : Sole h p
  own : ∀ j, p.Busy j → (p.handlers j).requestId = rid → j = h

/-- What is known of handler `h` in a run in which `rid` is reserved for it. -/
structure Reporting (h : ℕ) (rid : String) (p : IngressProxy) : Prop where
  linked : Linked p
  reserved : Reserved h rid p
  counted : Counted h p.system

variable {env : Env} {p q : IngressProxy} {l : ProxyLabel} {h : ℕ} {rid : String}

theorem reserved_new (a b : String) : Reserved h rid (new a b) where
  sole := sole_new a b h
  own j hb := by
    rcases hb with hb | hb
    · cases hb
    · exact hb.elim

theorem reporting_new (a b : String) : Reporting h rid (new a b) :=
  ⟨linked_new a b, reserved_new a b, counted_init 1024 (by decide) 800000000 h⟩

theorem Reporting.step (hp : Reporting h rid p) (hq : Stepped env p l q) (hr : Reserved h rid q) :
    Reporting h rid q ∧
      (p.system.generators h).delivered <+: (q.system.generators h).delivered := by
  have halong := hq.along_apart hp.linked hp.reserved.sole hr.sole
  obtain ⟨hcounted, hgrows⟩ := counted_run hp.counted halong hq.run
  exact ⟨⟨hq.linked hp.linked, hr, hcounted⟩, hgrows⟩

/-- The last flushed id counts what the handler has delivered, or is that of a
request of which nothing is kept. -/
theorem Reporting.flushed (hp : Reporting h rid p) :
    p.system.mux.deduplicator.getLastFlushed rid + 1 = (p.system.generators h).delivered.length ∨
      p.system.mux.deduplicator.getLastFlushed rid = -1 := by
  cases hf : p.system.mux.deduplicator.lastFlushed.get? rid with
  | none =>
    right
    rw [TokenDeduplicator.getLastFlushed, hf]
    rfl
  | some n =>
    left
    obtain ⟨j, hlive, hid⟩ := hp.counted.owned.tables.flushed rid (by rw [hf]; exact fun he => by cases he)
    have hj : (p.handlers j).requestId = rid := (hp.linked.requestId hlive).symm.trans hid
    obtain rfl : j = h := hp.reserved.own j (Or.inr hlive) hj
    rw [← hid]
    exact hp.counted.flushed hlive

/-- So is what a node daemon is told of it. -/
theorem Reporting.reported (hp : Reporting h rid p) {r : ActiveRequest}
    (hr : r ∈ handleGetActiveRequests env p) (hid : r.requestId = rid) :
    0 ≤ r.lastFlushedSequenceId + 1 ∧
      r.lastFlushedSequenceId + 1 ≤ (p.system.generators h).delivered.length := by
  obtain ⟨x, -, rfl⟩ := List.mem_map.mp hr
  subst hid
  rcases hp.flushed with hf | hf <;> constructor <;> dsimp only at hf ⊢ <;> omega

end IngressProxy
end Sgm
