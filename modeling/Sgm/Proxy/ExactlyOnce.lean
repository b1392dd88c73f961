/-
# Exactly-once prefix delivery

Whatever the upstreams send, and whenever signals come in, what a generator
has yielded so far is the chunks that an in-order receiver takes from what it
has pulled so far. While the loops run, the deduplicator's last flushed id is
the number of chunks yielded, less one, and nothing pulled has skipped ahead
(`Exact`); a chunk that does is the last one pulled, since it raises.

Key definitions: `Exact`, `Kept`, `Recorded`.
Key theorems: `recorded_resumed`, `recorded_run`, `streamWithHandover_exactly_once`.
-/
import Sgm.Lib.InOrder
import Sgm.Proxy.Moves

namespace Sgm

open InOrder Event StreamMultiplexer

/-! ### What a log satisfies -/

/-- In the loops, with the last flushed id `lf`. -/
structure Exact (lf : ℤ) (log : List Event) : Prop where
  delivered : SseItem.chunks (sentIn log) = accepted TokenChunk.sequenceId (pulledIn log)
  flushed : lf + 1 = (SseItem.chunks (sentIn log)).length
  contiguous : Contiguous TokenChunk.sequenceId (pulledIn log)
  undone : SseItem.done ∉ sentIn log

/-- At any time, and at the end. -/
structure Kept (log : List Event) : Prop where
  delivered : SseItem.chunks (sentIn log) = accepted TokenChunk.sequenceId (pulledIn log)
  contiguous : Contiguous TokenChunk.sequenceId (pulledIn log).dropLast
  done : ∀ pre post, sentIn log = pre ++ .done :: post → post = []

theorem kept_nil : Kept [] where
  delivered := rfl
  contiguous := Contiguous.nil _
  done pre post h := by simp [sentIn] at h

namespace Exact

variable {lf : ℤ} {log : List Event}

theorem start : Exact (-1) [.connected] where
  delivered := rfl
  flushed := rfl
  contiguous := Contiguous.nil _
  undone := by simp

theorem kept (h : Exact lf log) : Kept log where
  delivered := h.delivered
  contiguous p c q hpq := by
    rcases List.eq_nil_or_concat (pulledIn log) with hnil | ⟨l, d, hl⟩
    · simp [hnil] at hpq
    · rw [hl, List.concat_eq_append, List.dropLast_concat] at hpq
      exact h.contiguous p c (q ++ [d]) (by simp [hl, hpq])
  done pre post hpost := absurd (by simp [hpost]) h.undone

/-- An event that pulls nothing, and yields nothing but a keep-alive comment. -/
theorem quiet (h : Exact lf log) {e : Event} (hp : pulledIn [e] = [])
    (hs : sentIn [e] = [] ∨ sentIn [e] = [.keepAlive]) : Exact lf (log ++ [e]) := by
  rcases hs with hs | hs <;>
    exact ⟨by simp [hp, hs, h.delivered], by simp [hs, h.flushed], by simpa [hp] using h.contiguous,
      by simpa [hs] using h.undone⟩

theorem drop (h : Exact lf log) {c : TokenChunk} (hc : c.sequenceId ≤ lf) :
    Exact lf (log ++ [.pulled c]) := by
  have hlen : lf + 1 = (accepted TokenChunk.sequenceId (pulledIn log)).length := by
    rw [h.flushed, h.delivered]
  refine ⟨?_, by simpa using h.flushed, ?_, by simpa using h.undone⟩
  · rw [pulledIn_append, pulledIn_pulled, pulledIn_nil, accepted_concat_of_ne _ (by omega)]
    simpa using h.delivered
  · rw [pulledIn_append, pulledIn_pulled, pulledIn_nil]
    exact h.contiguous.concat (by omega)

theorem accept (h : Exact lf log) {c : TokenChunk} (hc : c.sequenceId = lf + 1) :
    Exact c.sequenceId (log ++ [.pulled c, .sent (.data c)]) := by
  have hlen : lf + 1 = (accepted TokenChunk.sequenceId (pulledIn log)).length := by
    rw [h.flushed, h.delivered]
  refine ⟨?_, ?_, ?_, by simpa using h.undone⟩
  · simp [accepted_concat_of_eq _ (hc.trans hlen), h.delivered]
  · have := h.flushed
    simp
    omega
  · simpa using h.contiguous.concat (hc.trans hlen).le

/-- The chunk that skips ahead is never yielded. -/
theorem gap (h : Exact lf log) {c : TokenChunk} (hc : lf + 1 < c.sequenceId) :
    Kept (log ++ [.pulled c]) where
  delivered := by
    have hlen : lf + 1 = (accepted TokenChunk.sequenceId (pulledIn log)).length := by
      rw [h.flushed, h.delivered]
    rw [pulledIn_append, pulledIn_pulled, pulledIn_nil, accepted_concat_of_ne _ (by omega)]
    simpa using h.delivered
  contiguous := by
    rw [pulledIn_append, pulledIn_pulled, pulledIn_nil, List.dropLast_concat]
    exact h.contiguous
  done pre post hpost := by
    refine absurd ?_ h.undone
    simp only [sentIn_append, sentIn_pulled, sentIn_nil, List.append_nil] at hpost
    simp [hpost]

theorem finish (h : Exact lf log) : Kept (log ++ [.sent .done]) where
  delivered := by simpa using h.delivered
  contiguous := by simpa using h.kept.contiguous
  done pre post hpost := by
    rcases List.eq_nil_or_concat post with rfl | ⟨post', x, rfl⟩
    · rfl
    · -- the done item of the split would be one before the last
      have hsplit : sentIn log ++ [.done] = (pre ++ .done :: post') ++ [x] := by
        simpa using hpost
      exact absurd (by simp [(List.append_inj' hsplit rfl).1]) h.undone

end Exact

/-! ### One resumption -/

/-- What holds of a generator's log at each of its points. -/
structure Recorded (d : TokenDeduplicator) (g : Generator) : Prop where
  idle : ¬ g.Started → g.log = []
  running : g.Live → g.point ≠ .yieldedDone → Exact (d.getLastFlushed g.requestId) g.log
  kept : Kept g.log

theorem Recorded.of_exact {d : TokenDeduplicator} {g : Generator} (hs : g.Started)
    (h : Exact (d.getLastFlushed g.requestId) g.log) : Recorded d g :=
  ⟨fun hn => absurd hs hn, fun _ _ => h, h.kept⟩

theorem Recorded.of_ended {d : TokenDeduplicator} {g : Generator} {o : Outcome}
    (hp : g.point = .ended o) (h : Kept g.log) : Recorded d g where
  idle hn := absurd ⟨by simp [hp], by simp [hp]⟩ hn
  running hl := by simp [Generator.Live, hp] at hl
  kept := h

section
variable {m : StreamMultiplexer} {g : Generator}

theorem recorded_buffered {r : StreamMultiplexer × Generator} (hb : Buffered m g r)
    (h : Exact (m.deduplicator.getLastFlushed g.requestId) g.log) :
    Recorded r.1.deduplicator r.2 := by
  refine Recorded.of_exact hb.buffering.live.started ?_
  rw [hb.deduplicator, hb.requestId]
  rcases hb.log with hl | hl
  · rwa [hl]
  · rw [hl]
    exact h.quiet rfl (Or.inr rfl)

theorem recorded_endOfStream (h : Exact (m.deduplicator.getLastFlushed g.requestId) g.log) :
    Recorded (m.endOfStream g).1.deduplicator (m.endOfStream g).2 where
  idle hn := absurd ⟨by simp [endOfStream, Generator.emit, Generator.at_],
    by simp [endOfStream, Generator.emit, Generator.at_]⟩ hn
  running _ hp := absurd rfl hp
  kept := h.finish

theorem recorded_afterActive (now : ℕ)
    (h : Exact (m.deduplicator.getLastFlushed g.requestId) g.log) :
    Recorded (m.afterActive now g).1.deduplicator (m.afterActive now g).2 := by
  rcases afterActive_spec now m g with ⟨-, hb⟩ | ⟨-, he⟩
  · exact recorded_buffered hb h
  · rw [he]
    exact recorded_endOfStream h

theorem recorded_checkCutoff (now : ℕ) (c : TokenChunk)
    (h : Exact (m.deduplicator.getLastFlushed g.requestId) g.log) :
    Recorded (m.checkCutoff now g c).1.deduplicator (m.checkCutoff now g c).2 := by
  rcases checkCutoff_spec now m g c with ⟨-, hb⟩ | he
  · exact recorded_buffered hb h
  · rw [he]
    exact Recorded.of_exact (g := g.at_ .pullActive) (Generator.Live.started trivial) h

theorem recorded_raise (e : Exc) (h : Kept g.log) (d : TokenDeduplicator) :
    Recorded d (m.raise g e).2 := by
  obtain ⟨⟨e', he⟩, hl⟩ := raise_spec m g e
  exact Recorded.of_ended he (hl ▸ h)

/-- A resumption keeps the record, if a starting generator finds no last
flushed id of its request. -/
theorem recorded_resumed {now i : ℕ} {r : StreamMultiplexer × Generator}
    (h : Resumed now i m g r) (hrec : Recorded m.deduplicator g)
    (hfresh : g.point = .created → m.deduplicator.lastFlushed.get? g.requestId = none) :
    Recorded r.1.deduplicator r.2 := by
  have hrun : g.Live → g.point ≠ .yieldedDone →
      Exact (m.deduplicator.getLastFlushed g.requestId) g.log := hrec.running
  cases h with
  | start hp =>
    have hlog : g.log = [] := hrec.idle fun hs => hs.2 hp
    refine Recorded.of_exact (Generator.Live.started trivial) ?_
    have hlf : m.deduplicator.getLastFlushed g.requestId = -1 := by
      rw [TokenDeduplicator.getLastFlushed, hfresh hp]
      rfl
    simp only [(getOrCreateSession_spec m g.requestId i).1, Generator.record, hlog, hlf]
    exact Exact.start
  | dropActive c rest hp hc hs =>
    exact recorded_checkCutoff now c
      ((hrun (by simp [Generator.Live, hp]) (by simp [hp])).drop hs)
  | acceptActive c rest d hp hc hs hd he =>
    refine Recorded.of_exact (Generator.Live.started trivial) ?_
    have := (hrun (by simp [Generator.Live, hp]) (by simp [hp])).accept hs
    simpa [TokenDeduplicator.getLastFlushed, Generator.emit, Generator.record, Generator.at_, hd]
      using this
  | gapActive c rest msg hp hc hs =>
    exact recorded_raise _ ((hrun (by simp [Generator.Live, hp]) (by simp [hp])).gap hs) _
  | endActive hp hc he =>
    exact recorded_afterActive now
      ((hrun (by simp [Generator.Live, hp]) (by simp [hp])).quiet rfl (Or.inl rfl))
  | raiseActive e hp hc he =>
    exact recorded_raise e
      ((hrun (by simp [Generator.Live, hp]) (by simp [hp])).quiet rfl (Or.inl rfl)).kept _
  | resumeActive c hp =>
    exact recorded_checkCutoff now c (hrun (by simp [Generator.Live, hp]) (by simp [hp]))
  | resumeKeepAlive t hp =>
    exact Recorded.of_exact (Generator.Live.started trivial)
      (hrun (by simp [Generator.Live, hp]) (by simp [hp]))
  | wake since hp hw =>
    exact recorded_buffered (buffered_bufferingLoop now m g)
      (hrun (by simp [Generator.Live, hp]) (by simp [hp]))
  | connectStandby u hp hu =>
    exact Recorded.of_exact (Generator.Live.started trivial)
      ((hrun (by simp [Generator.Live, hp]) (by simp [hp])).quiet rfl (Or.inl rfl))
  | failStandby e hp hu =>
    exact recorded_raise e (hrun (by simp [Generator.Live, hp]) (by simp [hp])).kept _
  | dropStandby c rest hp hc hs =>
    have hl : g.Live := by simp [Generator.Live, hp]
    exact Recorded.of_exact hl.started ((hrun hl (by simp [hp])).drop hs)
  | acceptStandby c rest d hp hc hs hd he =>
    refine Recorded.of_exact (Generator.Live.started trivial) ?_
    have := (hrun (by simp [Generator.Live, hp]) (by simp [hp])).accept hs
    simpa [TokenDeduplicator.getLastFlushed, Generator.emit, Generator.record, Generator.at_, hd]
      using this
  | gapStandby c rest msg hp hc hs =>
    exact recorded_raise _ ((hrun (by simp [Generator.Live, hp]) (by simp [hp])).gap hs) _
  | endStandby hp hc he =>
    exact recorded_endOfStream
      ((hrun (by simp [Generator.Live, hp]) (by simp [hp])).quiet rfl (Or.inl rfl))
  | raiseStandby e hp hc he =>
    exact recorded_raise e
      ((hrun (by simp [Generator.Live, hp]) (by simp [hp])).quiet rfl (Or.inl rfl)).kept _
  | resumeStandby hp =>
    exact Recorded.of_exact (Generator.Live.started trivial)
      (hrun (by simp [Generator.Live, hp]) (by simp [hp]))
  | finish hp => exact Recorded.of_ended rfl hrec.kept

end

/-! ### Runs -/

/-- Closing a generator leaves its log. -/
theorem recorded_close {m : StreamMultiplexer} {g : Generator} {r : StreamMultiplexer × Generator}
    (h : m.close g = some r) (hrec : Recorded m.deduplicator g) :
    Recorded r.1.deduplicator r.2 := by
  have hr : ∃ m' o, r = (m', g.at_ (.ended o)) := by
    unfold StreamMultiplexer.close at h
    split at h
    · cases h
    · cases h
    · exact ⟨_, _, (Option.some.inj h).symm⟩
    · exact ⟨_, _, (Option.some.inj h).symm⟩
  obtain ⟨m', o, rfl⟩ := hr
  exact Recorded.of_ended rfl hrec.kept

theorem recorded_step {s t : System} {l : Label} {i : ℕ} (ho : Owned i s)
    (hrec : Recorded s.mux.deduplicator (s.generators i)) (h : s.step l = some t) (ha : Apart i t) :
    Recorded t.mux.deduplicator (t.generators i) := by
  rcases (owned_step ho h ha).2 with (rfl | rfl) | ⟨rid, a, b, rfl, hp⟩ | he
  · obtain ⟨r, hr, rfl⟩ := Option.map_eq_some_iff.mp h
    rw [System.put_self]
    refine recorded_resumed (Resumed.of_eq hr) hrec fun hp => ?_
    obtain ⟨hl, hrid⟩ := (Resumed.of_eq hr).live_of_created hp
    exact (fresh_of_starts ho.tables hp hrid hl ha).1
  · obtain ⟨r, hr, rfl⟩ := Option.map_eq_some_iff.mp h
    rw [System.put_self]
    exact recorded_close hr hrec
  · simp only [System.step, hp] at h
    obtain rfl := Option.some.inj h
    rw [System.put_self]
    exact ⟨fun _ => rfl, fun hl => hl.elim, kept_nil⟩
  · rw [he.generator]
    refine ⟨hrec.idle, fun hl hp => ?_, hrec.kept⟩
    rw [he.flushed hl]
    exact hrec.running hl hp

/-- Along every run in which the request of generator `i` is not concurrently
in use. -/
theorem recorded_run {c ka i : ℕ} {hc : 0 < c} {ls : List Label} {s : System}
    (h : Machine.run System.step (System.init c hc ka) ls = some s)
    (ha : Machine.Along System.step (fun _ _ t => Apart i t) (System.init c hc ka) ls) :
    Owned i s ∧ Recorded s.mux.deduplicator (s.generators i) :=
  Machine.run_inv_along (I := fun s => Owned i s ∧ Recorded s.mux.deduplicator (s.generators i))
    (fun _ _ _ hs ht hat => ⟨(owned_step hs.1 ht hat).1, recorded_step hs.1 hs.2 ht hat⟩)
    ⟨owned_init c hc ka i, fun _ => rfl, fun hl => hl.elim, kept_nil⟩ ha h

/-- The items are data events, keep-alive comments, and at most one end of
stream signal, at the end. -/
theorem Kept.shape {log : List Event} (h : Kept log) :
    (sentIn log).filter (· ≠ .keepAlive) = (SseItem.chunks (sentIn log)).map .data ∨
    (sentIn log).filter (· ≠ .keepAlive) = (SseItem.chunks (sentIn log)).map .data ++ [.done] := by
  by_cases hd : SseItem.done ∈ sentIn log
  · obtain ⟨pre, post, hpre⟩ := List.append_of_mem hd
    obtain rfl := h.done pre post hpre
    have hpre' : SseItem.done ∉ pre := by
      intro hmem
      obtain ⟨a, b, rfl⟩ := List.append_of_mem hmem
      have := h.done a (b ++ [.done]) (by simpa using hpre)
      simp at this
    refine Or.inr ?_
    rw [hpre, List.filter_append, SseItem.filter_ne_keepAlive hpre', SseItem.chunks_append]
    simp
  · exact Or.inl (SseItem.filter_ne_keepAlive hd)

/-- Exactly-once prefix delivery: at any moment of any run in which no other
live generator has its request, the data events of a generator have the ids
0, 1, 2, ..., event `k` is the first pulled chunk with id `k`, and besides data
events there are keep-alive comments and at most one end of stream signal,
which is the last item. -/
theorem streamWithHandover_exactly_once {c ka i : ℕ} {hc : 0 < c} {ls : List Label} {s : System}
    (h : Machine.run System.step (System.init c hc ka) ls = some s)
    (ha : Machine.Along System.step (fun _ _ t => Apart i t) (System.init c hc ka) ls) :
    (∃ n : ℕ, (s.generators i).delivered.map TokenChunk.sequenceId =
      (List.range n).map Int.ofNat) ∧
    (∀ (k : ℕ) (d : TokenChunk), (s.generators i).delivered[k]? = some d →
      (s.generators i).pulled.find? (fun p => p.sequenceId = (k : ℤ)) = some d) ∧
    ((s.generators i).items.filter (· ≠ .keepAlive) = (s.generators i).delivered.map .data ∨
      (s.generators i).items.filter (· ≠ .keepAlive) =
        (s.generators i).delivered.map .data ++ [.done]) ∧
    (∀ pre post, (s.generators i).items = pre ++ .done :: post → post = []) := by
  have hk := (recorded_run h ha).2.kept
  have hdel : (s.generators i).delivered =
      accepted TokenChunk.sequenceId (s.generators i).pulled := hk.delivered
  refine ⟨⟨(s.generators i).delivered.length, ?_⟩, fun k d hd => ?_, hk.shape, hk.done⟩
  · rw [hdel]
    exact map_seq_accepted TokenChunk.sequenceId _
  · rw [hdel] at hd
    exact find?_of_accepted hk.contiguous hd

/-- A run with a repeated chunk, a swap at the cutoff, a replayed chunk and a
gap, which raises. -/
def gapRun : List Label :=
  [.call 0 "r" ⟨[⟨"r", 0, "a", 0, false, []⟩, ⟨"r", 0, "x", 0, false, []⟩,
      ⟨"r", 1, "b", 0, false, []⟩], .closed⟩ fun _ =>
      .ok ⟨[⟨"r", 1, "y", 0, false, []⟩, ⟨"r", 2, "c", 0, false, []⟩,
        ⟨"r", 4, "e", 0, false, []⟩], .done⟩,
    .resume 0, .resume 0, .resume 0, .resume 0, .triggerPreemption "r" 1, .resume 0, .resume 0,
    .triggerHandoverReady "r", .resume 0, .resume 0, .resume 0, .resume 0, .resume 0, .resume 0]

theorem streamWithHandover_exactly_once_gapRun :
    ∃ s, Machine.run System.step (System.init 8 (by decide) 800000000) gapRun = some s ∧
      (∃ n : ℕ, (s.generators 0).delivered.map TokenChunk.sequenceId =
        (List.range n).map Int.ofNat) ∧
      (∀ (k : ℕ) (d : TokenChunk), (s.generators 0).delivered[k]? = some d →
        (s.generators 0).pulled.find? (fun p => p.sequenceId = (k : ℤ)) = some d) ∧
      ((s.generators 0).items.filter (· ≠ .keepAlive) = (s.generators 0).delivered.map .data ∨
        (s.generators 0).items.filter (· ≠ .keepAlive) =
          (s.generators 0).delivered.map .data ++ [.done]) ∧
      (∀ pre post, (s.generators 0).items = pre ++ .done :: post → post = []) := by
  obtain ⟨s, hs⟩ : ∃ s, Machine.run System.step (System.init 8 (by decide) 800000000) gapRun =
      some s := ⟨_, rfl⟩
  exact ⟨s, hs, streamWithHandover_exactly_once hs
    (apart_of_about (by simp [gapRun, Label.About]))⟩

end Sgm
