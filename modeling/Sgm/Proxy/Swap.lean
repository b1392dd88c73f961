/-
# The swap of the upstream

A generator whose active upstream is numbered from 0, and whose standby does
not skip ahead of what has been delivered when it is called, never raises. It
takes the active upstream up to some point, then all of the standby; and if it
is told of the preemption while it reads the active upstream, it does call the
standby. Its resumptions are bounded in number, whatever else happens, and
after a timeout tick it can always be resumed.

Key definitions: `Smooth`, `Route`, `Stage`, `Tracked`, `Generator.effort`.
Key theorems: `stage_resumed`, `tracked_step`, `effort_resumed`, `tracked_completes`.
-/
import Sgm.Proxy.ExactlyOnce

namespace Sgm

open InOrder Event StreamMultiplexer

/-! ### The course of a generator -/

/-- The active upstream may be left after `d` chunks: not before the first, if
there is one. -/
def AtSwap (A : Upstream) (d : ℕ) : Prop := d ≤ A.chunks.length ∧ (d = 0 → A.chunks = [])

/-- Upstreams without failures and gaps: the active one is numbered from 0, and
the standby, called after `d` chunks, does not skip ahead of them. -/
structure Smooth (A : Upstream) (F : ℤ → Except Exc Upstream) : Prop where
  ending : ∀ e, A.ending ≠ .raised e
  numbered : Numbered TokenChunk.sequenceId 0 A.chunks
  standby : ∀ d : ℕ, AtSwap A d → ∃ u, F ((d : ℤ) - 1) = .ok u ∧ (∀ e, u.ending ≠ .raised e) ∧
    Contiguous TokenChunk.sequenceId (A.chunks.take d ++ u.chunks)

/-- What a generator has pulled when it is done: the active upstream up to the
swap, at one of the counts `At`, and then the standby, or, if it may go the
direct way, the active upstream. -/
def Route (A : Upstream) (F : ℤ → Except Exc Upstream) (At : ℕ → Prop) (direct : Prop)
    (pulled : List TokenChunk) : Prop :=
  (∃ d u, At d ∧ AtSwap A d ∧ F ((d : ℤ) - 1) = .ok u ∧ pulled = A.chunks.take d ++ u.chunks) ∨
    (direct ∧ pulled = A.chunks)

/-- Where the generator stands, at each of its points. -/
def Stage (A : Upstream) (F : ℤ → Except Exc Upstream) (At : ℕ → Prop) (direct : Prop)
    (g : Generator) : Prop :=
  match g.point with
  | .absent => ∀ d, AtSwap A d → At d
  | .created => (∀ d, AtSwap A d → At d) ∧ g.active = A
  | .pullActive =>
    (∀ d, AtSwap A d → At d) ∧ ∃ d ≤ A.chunks.length,
      g.pulled = A.chunks.take d ∧ g.active = ⟨A.chunks.drop d, A.ending⟩
  | .yieldedActive _ =>
    (∀ d, AtSwap A d → At d) ∧ ∃ d ≤ A.chunks.length,
      g.pulled = A.chunks.take d ∧ g.active = ⟨A.chunks.drop d, A.ending⟩ ∧ 0 < d
  | .yieldedKeepAlive _ | .waitReady _ | .callStandby =>
    ∃ d, At d ∧ AtSwap A d ∧ g.pulled = A.chunks.take d
  | .pullStandby | .yieldedStandby =>
    ∃ d u k, At d ∧ AtSwap A d ∧ F ((d : ℤ) - 1) = .ok u ∧ k ≤ u.chunks.length ∧
      g.pulled = A.chunks.take d ++ u.chunks.take k ∧ g.standby = ⟨u.chunks.drop k, u.ending⟩
  | .yieldedDone | .ended .completed => Route A F At direct g.pulled ∧ SseItem.done ∈ g.items
  | .ended _ => False

section
variable {A : Upstream} {F : ℤ → Except Exc Upstream} {At : ℕ → Prop} {direct : Prop}
  {m : StreamMultiplexer} {g : Generator} {d : ℕ}

/-- In the buffering phase only what was pulled matters. -/
theorem stage_buffered {r : StreamMultiplexer × Generator} (hb : Buffered m g r)
    (hat : At d) (hd : AtSwap A d) (hp : g.pulled = A.chunks.take d) : Stage A F At direct r.2 := by
  have hp' : r.2.pulled = A.chunks.take d := by
    rw [← hp]
    unfold Generator.pulled
    rcases hb.log with hl | hl <;> simp [hl]
  have hbuf := hb.buffering
  unfold Generator.Buffering at hbuf
  unfold Stage
  split at hbuf
  · rename_i since h
    simp only [h]
    exact ⟨d, hat, hd, hp'⟩
  · rename_i t h
    simp only [h]
    exact ⟨d, hat, hd, hp'⟩
  · rename_i h
    simp only [h]
    exact ⟨d, hat, hd, hp'⟩
  · exact hbuf.elim

/-- In the loop over the active upstream, all that was pulled has been
delivered. -/
theorem flushed_of_take {lf : ℤ} (hn : Numbered TokenChunk.sequenceId 0 A.chunks)
    (hd : d ≤ A.chunks.length) (hp : g.pulled = A.chunks.take d) (he : Exact lf g.log) :
    lf + 1 = d := by
  have hlen : lf + 1 = (accepted TokenChunk.sequenceId g.pulled).length := by
    rw [he.flushed, he.delivered]
    rfl
  rw [hp, accepted_of_numbered (hn.take d), List.length_take, Nat.min_eq_left hd] at hlen
  exact hlen

/-- The next chunk of an upstream of which `k` have been pulled. -/
theorem next_of_drop {l rest : List TokenChunk} {c : TokenChunk} {k : ℕ}
    (h : l.drop k = c :: rest) :
    l[k]? = some c ∧ k + 1 ≤ l.length ∧ l.take (k + 1) = l.take k ++ [c] ∧ l.drop (k + 1) = rest := by
  have hget : l[k]? = some c := by
    rw [← List.head?_drop, h]
    rfl
  have hlt : k < l.length := (List.getElem?_eq_some_iff.mp hget).1
  refine ⟨hget, hlt, ?_, ?_⟩
  · rw [List.take_add_one, hget]
    rfl
  · rw [← List.tail_drop, h]
    rfl

/-- In the loop over the active upstream, the next chunk is the next expected. -/
theorem sequenceId_of_active {lf : ℤ} {c : TokenChunk} {rest : List TokenChunk}
    (hn : Numbered TokenChunk.sequenceId 0 A.chunks) (hd : d ≤ A.chunks.length)
    (hp : g.pulled = A.chunks.take d) (ha : g.active = ⟨A.chunks.drop d, A.ending⟩)
    (hc : g.active.chunks = c :: rest) (he : Exact lf g.log) : c.sequenceId = lf + 1 := by
  have hget := (@next_of_drop A.chunks rest c d (by rw [← hc, ha])).1
  have hseq := numbered_iff_getElem?.mp hn d c hget
  have hlf := flushed_of_take hn hd hp he
  omega

/-- In the loop over the standby, the next chunk leaves no gap. -/
theorem sequenceId_of_standby {lf : ℤ} {c : TokenChunk} {rest : List TokenChunk} {u : Upstream}
    {k : ℕ} (hA : Smooth A F) (hd : AtSwap A d) (hu : F ((d : ℤ) - 1) = .ok u)
    (hp : g.pulled = A.chunks.take d ++ u.chunks.take k) (hst : g.standby = ⟨u.chunks.drop k, u.ending⟩)
    (hc : g.standby.chunks = c :: rest) (he : Exact lf g.log) : c.sequenceId ≤ lf + 1 := by
  obtain ⟨u', hu', -, hcont⟩ := hA.standby d hd
  obtain rfl : u = u' := by simpa [hu] using hu'
  have hdrop : u.chunks.drop k = c :: rest := by rw [← hc, hst]
  have hall : A.chunks.take d ++ u.chunks = g.pulled ++ c :: rest := by
    rw [hp, ← hdrop, List.append_assoc, List.take_append_drop]
  have hle := hcont g.pulled c rest hall
  have hlf : lf + 1 = (accepted TokenChunk.sequenceId g.pulled).length := by
    rw [he.flushed, he.delivered]
    rfl
  omega

/-- The standby does not raise. -/
theorem ending_of_standby {u : Upstream} (hA : Smooth A F) (hd : AtSwap A d)
    (hu : F ((d : ℤ) - 1) = .ok u) (e : Exc) : u.ending ≠ .raised e := by
  obtain ⟨u', hu', hend, -⟩ := hA.standby d hd
  obtain rfl : u = u' := by simpa [hu] using hu'
  exact hend e

/-- After a chunk of the active upstream. -/
theorem stage_checkCutoff (now : ℕ) (c : TokenChunk) (hfree : ∀ d, AtSwap A d → At d)
    (hd : d ≤ A.chunks.length) (h0 : 0 < d)
    (hp : g.pulled = A.chunks.take d) (ha : g.active = ⟨A.chunks.drop d, A.ending⟩) :
    Stage A F At direct (m.checkCutoff now g c).2 := by
  rcases checkCutoff_spec now m g c with ⟨-, hb⟩ | he
  · have hswap : AtSwap A d := ⟨hd, fun h => by omega⟩
    exact stage_buffered hb (hfree d hswap) hswap hp
  · rw [he]
    exact ⟨hfree, d, hd, hp, ha⟩

/-- At the end of the active upstream: without a signal, the direct way. -/
theorem stage_afterActive (now : ℕ) (hfree : ∀ d, AtSwap A d → At d) (hp : g.pulled = A.chunks)
    (hs : direct ∨ (m.heap g.session).preemptionSignaled = true) :
    Stage A F At direct (m.afterActive now g).2 := by
  rcases afterActive_spec now m g with ⟨-, hb⟩ | ⟨hns, he⟩
  · have hswap : AtSwap A A.chunks.length := ⟨le_rfl, fun h => List.length_eq_zero_iff.mp h⟩
    exact stage_buffered hb (hfree _ hswap) hswap (by simpa using hp)
  · rw [he]
    refine ⟨Or.inr ⟨hs.resolve_right (by simp [hns]), ?_⟩, ?_⟩
    · rw [← hp]
      simp [Generator.pulled, endOfStream, Generator.emit, Generator.record, Generator.at_]
    · simp [Generator.items, endOfStream, Generator.emit, Generator.record, Generator.at_]

/-- A resumption keeps the stage. The direct way is only for a generator whose
session has no signal yet. -/
theorem stage_resumed {now i : ℕ} {r : StreamMultiplexer × Generator} (h : Resumed now i m g r)
    (hA : Smooth A F) (hF : g.standbyFactory = F) (hg : Stage A F At direct g)
    (hrec : Recorded m.deduplicator g)
    (hs : g.InPhase1 → direct ∨ (m.heap g.session).preemptionSignaled = true) :
    Stage A F At direct r.2 := by
  have hrun : g.Live → g.point ≠ .yieldedDone →
      Exact (m.deduplicator.getLastFlushed g.requestId) g.log := hrec.running
  cases h with
  | start hp =>
    simp only [Stage, hp] at hg
    have hlog : g.log = [] := hrec.idle fun hs => hs.2 hp
    refine ⟨hg.1, 0, Nat.zero_le _, ?_, by simp [hg.2, Generator.record]⟩
    simp [Generator.pulled, Generator.record, hlog]
  | dropActive c rest hp hc hle =>
    simp only [Stage, hp] at hg
    obtain ⟨hfree, d, hd, hpull, hact⟩ := hg
    have hseq := sequenceId_of_active hA.numbered hd hpull hact hc
      (hrun (by simp [Generator.Live, hp]) (by simp [hp]))
    omega
  | acceptActive c rest D hp hc hs hd he =>
    simp only [Stage, hp] at hg
    obtain ⟨hfree, d, hd, hpull, hact⟩ := hg
    obtain ⟨-, hlt, htake, hdrop⟩ := @next_of_drop A.chunks rest c d (by rw [← hc, hact])
    refine ⟨hfree, d + 1, hlt, ?_, ?_, Nat.succ_pos d⟩
    · rw [htake, ← hpull]
      simp [Generator.pulled, Generator.emit, Generator.record, Generator.at_]
    · simp [Generator.emit, Generator.record, Generator.at_, hdrop, hact]
  | gapActive c rest msg hp hc hlt =>
    simp only [Stage, hp] at hg
    obtain ⟨hfree, d, hd, hpull, hact⟩ := hg
    have hseq := sequenceId_of_active hA.numbered hd hpull hact hc
      (hrun (by simp [Generator.Live, hp]) (by simp [hp]))
    omega
  | endActive hp hc he =>
    simp only [Stage, hp] at hg
    obtain ⟨hfree, d, hd, hpull, hact⟩ := hg
    refine stage_afterActive now hfree ?_ (hs (by simp [Generator.InPhase1, hp]))
    have hall : A.chunks.drop d = [] := by rw [← hc, hact]
    rw [List.take_of_length_le (List.drop_eq_nil_iff.mp hall)] at hpull
    rw [← hpull]
    simp [Generator.pulled, Generator.record]
  | raiseActive e hp hc he =>
    simp only [Stage, hp] at hg
    obtain ⟨hfree, d, hd, hpull, hact⟩ := hg
    rw [hact] at he
    exact absurd he (hA.ending e)
  | resumeActive c hp =>
    simp only [Stage, hp] at hg
    obtain ⟨hfree, d, hd, hpull, hact, h0⟩ := hg
    exact stage_checkCutoff now c hfree hd h0 hpull hact
  | resumeKeepAlive t hp =>
    simp only [Stage, hp] at hg
    exact hg
  | wake since hp hw =>
    simp only [Stage, hp] at hg
    obtain ⟨d, hat, hd, hpull⟩ := hg
    exact stage_buffered (buffered_bufferingLoop now m g) hat hd hpull
  | connectStandby u hp hu =>
    simp only [Stage, hp] at hg
    obtain ⟨d, hat, hd, hpull⟩ := hg
    have hlf := flushed_of_take hA.numbered hd.1 hpull (hrun (by simp [Generator.Live, hp]) (by simp [hp]))
    refine ⟨d, u, 0, hat, hd, ?_, Nat.zero_le _, ?_, by simp⟩
    · rw [← hF, ← hu]
      congr 1
      omega
    · rw [List.take_zero, List.append_nil, ← hpull]
      simp [Generator.pulled, Generator.record]
  | failStandby e hp hu =>
    simp only [Stage, hp] at hg
    obtain ⟨d, hat, hd, hpull⟩ := hg
    have hlf := flushed_of_take hA.numbered hd.1 hpull (hrun (by simp [Generator.Live, hp]) (by simp [hp]))
    obtain ⟨u, hu', -⟩ := hA.standby d hd
    rw [hF, show m.deduplicator.getLastFlushed g.requestId = (d : ℤ) - 1 by omega, hu'] at hu
    cases hu
  | dropStandby c rest hp hc hle =>
    simp only [Stage, hp] at hg
    obtain ⟨d, u, k, hat, hd, hu, hk, hpull, hst⟩ := hg
    obtain ⟨-, hlt, htake, hdrop⟩ := @next_of_drop u.chunks rest c k (by rw [← hc, hst])
    simp only [Stage, Generator.record, hp]
    refine ⟨d, u, k + 1, hat, hd, hu, hlt, ?_, by rw [hdrop, hst]⟩
    rw [htake, ← List.append_assoc, ← hpull]
    simp [Generator.pulled]
  | acceptStandby c rest D hp hc hs hd' he =>
    simp only [Stage, hp] at hg
    obtain ⟨d, u, k, hat, hd, hu, hk, hpull, hst⟩ := hg
    obtain ⟨-, hlt, htake, hdrop⟩ := @next_of_drop u.chunks rest c k (by rw [← hc, hst])
    refine ⟨d, u, k + 1, hat, hd, hu, hlt, ?_, ?_⟩
    · rw [htake, ← List.append_assoc, ← hpull]
      simp [Generator.pulled, Generator.emit, Generator.record, Generator.at_]
    · simp [Generator.emit, Generator.record, Generator.at_, hdrop, hst]
  | gapStandby c rest msg hp hc hlt =>
    simp only [Stage, hp] at hg
    obtain ⟨d, u, k, hat, hd, hu, hk, hpull, hst⟩ := hg
    have hle := sequenceId_of_standby hA hd hu hpull hst hc
      (hrun (by simp [Generator.Live, hp]) (by simp [hp]))
    omega
  | endStandby hp hc he =>
    simp only [Stage, hp] at hg
    obtain ⟨d, u, k, hat, hd, hu, hk, hpull, hst⟩ := hg
    have hall : u.chunks.drop k = [] := by rw [← hc, hst]
    rw [List.take_of_length_le (List.drop_eq_nil_iff.mp hall)] at hpull
    refine ⟨Or.inl ⟨d, u, hat, hd, hu, ?_⟩, ?_⟩
    · rw [← hpull]
      simp [Generator.pulled, endOfStream, Generator.emit, Generator.record, Generator.at_]
    · simp [Generator.items, endOfStream, Generator.emit, Generator.record, Generator.at_]
  | raiseStandby e hp hc he =>
    simp only [Stage, hp] at hg
    obtain ⟨d, u, k, hat, hd, hu, hk, hpull, hst⟩ := hg
    rw [hst] at he
    exact absurd he (ending_of_standby hA hd hu e)
  | resumeStandby hp =>
    simp only [Stage, hp] at hg
    exact hg
  | finish hp =>
    simp only [Stage, hp] at hg
    exact hg

end

/-! ### How many resumptions are left -/

namespace Generator

/-- Timeouts left in the buffering phase, after one that began at `since`. -/
def waits (g : Generator) (since : ℕ) : ℕ :=
  (maxBuffering - (since - g.bufferingStart)) / waitTick + 1

/-- A bound on the resumptions to come, for a standby of at most `n` chunks. -/
def effort (n : ℕ) (g : Generator) : ℕ :=
  match g.point with
  | .absent | .ended _ => 0
  | .created => 2 * g.active.chunks.length + 2 * n + 67
  | .yieldedActive _ => 2 * g.active.chunks.length + 2 * n + 66
  | .pullActive => 2 * g.active.chunks.length + 2 * n + 65
  | .yieldedKeepAlive t => 2 * g.waits t + 2 * n + 5
  | .waitReady since => 2 * g.waits since + 2 * n + 4
  | .callStandby => 2 * n + 4
  | .yieldedStandby => 2 * g.standby.chunks.length + 3
  | .pullStandby => 2 * g.standby.chunks.length + 2
  | .yieldedDone => 1

/-- The times a generator remembers are in order. -/
def Timed (now : ℕ) (g : Generator) : Prop :=
  match g.point with
  | .yieldedKeepAlive t => g.bufferingStart ≤ t ∧ t ≤ now
  | .waitReady since => g.bufferingStart ≤ since ∧ since ≤ now
  | _ => True

theorem Timed.mono {now now' : ℕ} {g : Generator} (h : g.Timed now) (hle : now ≤ now') :
    g.Timed now' := by
  unfold Timed at h ⊢
  split at h <;> simp_all <;> omega

theorem waits_le (g : Generator) (since : ℕ) : g.waits since ≤ 26 := by
  unfold waits maxBuffering waitTick
  omega

theorem waits_anti (g : Generator) {t t' : ℕ} (h : t ≤ t') : g.waits t' ≤ g.waits t := by
  unfold waits
  gcongr

/-- One more timeout within the ceiling. -/
theorem waits_lt {g : Generator} {t t' : ℕ} (h : t + waitTick ≤ t') (h0 : g.bufferingStart ≤ t)
    (hm : t' - g.bufferingStart < maxBuffering) : g.waits t' < g.waits t := by
  unfold waits maxBuffering waitTick at *
  omega

end Generator

section
variable {m : StreamMultiplexer} {g : Generator} {now n : ℕ}

theorem effort_bufferingLoop :
    (m.bufferingLoop now g).2.effort n = 2 * n + 4 ∨
    (now - g.bufferingStart < maxBuffering ∧ (m.heap g.session).handoverReady = false ∧
      (m.bufferingLoop now g).2.effort n ≤ 2 * g.waits now + 2 * n + 5) := by
  unfold bufferingLoop
  split_ifs with hr hm hk
  · exact Or.inl rfl
  · exact Or.inl rfl
  · exact Or.inr ⟨by omega, by simpa using hr, le_rfl⟩
  · exact Or.inr ⟨by omega, by simpa using hr, Nat.le_succ _⟩

theorem effort_bufferingLoop_le : (m.bufferingLoop now g).2.effort n ≤ 2 * n + 57 := by
  have hw := g.waits_le now
  rcases @effort_bufferingLoop m g now n with h | ⟨-, -, h⟩ <;> omega

theorem effort_afterActive_le : (m.afterActive now g).2.effort n ≤ 2 * n + 57 := by
  unfold afterActive
  split_ifs
  · exact effort_bufferingLoop_le
  · show 1 ≤ _
    omega

theorem effort_checkCutoff_le (c : TokenChunk) :
    (m.checkCutoff now g c).2.effort n ≤ 2 * g.active.chunks.length + 2 * n + 65 := by
  unfold checkCutoff
  simp only
  split_ifs
  · have := @effort_afterActive_le m g now n
    omega
  · exact le_rfl

theorem effort_raise (e : Exc) : (m.raise g e).2.effort n = 0 := by
  obtain ⟨⟨e', he⟩, -⟩ := raise_spec m g e
  simp [Generator.effort, he]

/-- Each resumption uses up effort. -/
theorem effort_resumed {i : ℕ} {r : StreamMultiplexer × Generator} (h : Resumed now i m g r)
    (ht : g.Timed now)
    (hn : g.point = .callStandby → ∀ u,
      g.standbyFactory (m.deduplicator.getLastFlushed g.requestId) = .ok u → u.chunks.length ≤ n) :
    r.2.effort n < g.effort n := by
  cases h with
  | start hp =>
    simp only [Generator.effort, Generator.record, hp]
    omega
  | dropActive c rest hp hc hs =>
    have := @effort_checkCutoff_le m
      { g.record (.pulled c) with active := ⟨rest, g.active.ending⟩ } now n c
    simp only [Generator.effort, hp, hc, List.length_cons] at this ⊢
    omega
  | acceptActive c rest d hp hc hs hd he =>
    simp only [Generator.effort, Generator.emit, Generator.record, Generator.at_, hp, hc,
      List.length_cons]
    omega
  | gapActive c rest msg hp hc hs =>
    rw [effort_raise]
    simp [Generator.effort, hp]
  | endActive hp hc he =>
    have := @effort_afterActive_le m (g.record (.upstreamEnded g.active.ending)) now n
    have hg : g.effort n = 2 * g.active.chunks.length + 2 * n + 65 := by
      simp only [Generator.effort, hp]
    omega
  | raiseActive e hp hc he =>
    rw [effort_raise]
    simp [Generator.effort, hp]
  | resumeActive c hp =>
    have := @effort_checkCutoff_le m { g with lastActivityTime := now } now n c
    simp only [Generator.effort, hp] at this ⊢
    omega
  | resumeKeepAlive t hp =>
    simp only [Generator.Timed, hp] at ht
    have := g.waits_anti ht.2
    simp only [Generator.effort, hp, Generator.waits] at this ⊢
    omega
  | wake since hp hw =>
    simp only [Generator.Timed, hp] at ht
    have hpos : 0 < g.waits since := Nat.succ_pos _
    have he : g.effort n = 2 * g.waits since + 2 * n + 4 := by simp only [Generator.effort, hp]
    rcases @effort_bufferingLoop m g now n with h | ⟨hm, hr, h⟩
    · omega
    · have hwait := hw.resolve_left (by simp [hr])
      have := Generator.waits_lt hwait ht.1 hm
      omega
  | connectStandby u hp hu =>
    have := hn hp u hu
    simp only [Generator.effort, hp]
    omega
  | failStandby e hp hu =>
    rw [effort_raise]
    simp [Generator.effort, hp]
  | dropStandby c rest hp hc hs =>
    simp only [Generator.effort, Generator.record, hp, hc, List.length_cons]
    omega
  | acceptStandby c rest d hp hc hs hd he =>
    simp only [Generator.effort, Generator.emit, Generator.record, Generator.at_, hp, hc,
      List.length_cons]
    omega
  | gapStandby c rest msg hp hc hs =>
    rw [effort_raise]
    simp [Generator.effort, hp]
  | endStandby hp hc he =>
    simp only [Generator.effort, endOfStream, Generator.emit, Generator.at_, hp]
    omega
  | raiseStandby e hp hc he =>
    rw [effort_raise]
    simp [Generator.effort, hp]
  | resumeStandby hp =>
    simp only [Generator.effort, hp]
    omega
  | finish hp =>
    simp [Generator.effort, Generator.at_, hp]

theorem timed_bufferingLoop (h : g.bufferingStart ≤ now) :
    (m.bufferingLoop now g).2.Timed now := by
  unfold bufferingLoop
  split_ifs
  · trivial
  · trivial
  · exact ⟨h, le_rfl⟩
  · exact ⟨h, le_rfl⟩

theorem timed_afterActive : (m.afterActive now g).2.Timed now := by
  unfold afterActive
  split_ifs
  · exact timed_bufferingLoop (g := { g with bufferingStart := now }) le_rfl
  · trivial

theorem timed_checkCutoff (c : TokenChunk) : (m.checkCutoff now g c).2.Timed now := by
  unfold checkCutoff
  simp only
  split_ifs
  · exact timed_afterActive
  · trivial

theorem timed_raise (e : Exc) : (m.raise g e).2.Timed now := by
  obtain ⟨⟨e', he⟩, -⟩ := raise_spec m g e
  simp [Generator.Timed, he]

theorem timed_resumed {i : ℕ} {r : StreamMultiplexer × Generator} (h : Resumed now i m g r)
    (ht : g.Timed now) : r.2.Timed now := by
  cases h with
  | dropActive c _ _ _ _ => exact timed_checkCutoff c
  | gapActive _ _ _ _ _ _ => exact timed_raise _
  | endActive _ _ _ => exact timed_afterActive
  | raiseActive e _ _ _ => exact timed_raise e
  | resumeActive c _ => exact timed_checkCutoff c
  | resumeKeepAlive t hp =>
    simp only [Generator.Timed, hp] at ht
    exact ⟨ht.1.trans ht.2, le_rfl⟩
  | wake since hp _ =>
    simp only [Generator.Timed, hp] at ht
    exact timed_bufferingLoop (ht.1.trans ht.2)
  | failStandby e _ _ => exact timed_raise e
  | dropStandby c rest hp _ _ => simp only [Generator.Timed, Generator.record, hp]
  | gapStandby _ _ _ _ _ _ => exact timed_raise _
  | raiseStandby e _ _ _ => exact timed_raise e
  | start | acceptActive | connectStandby | acceptStandby | endStandby | resumeStandby | finish =>
    trivial

/-- After a timeout tick a live generator can be resumed. -/
theorem resume_of_live {i : ℕ} (hl : g.Live) (ht : g.Timed now) :
    ∃ r, m.streamWithHandover (now + waitTick) i g = some r := by
  unfold streamWithHandover
  unfold Generator.Live at hl
  unfold Generator.Timed at ht
  cases hp : g.point with
  | absent | created | ended o => simp [hp] at hl
  | waitReady since =>
    simp only [hp] at ht ⊢
    rw [if_pos (Or.inr (by omega))]
    exact ⟨_, rfl⟩
  | pullActive | pullStandby =>
    simp only
    split
    · split <;> exact ⟨_, rfl⟩
    · split <;> exact ⟨_, rfl⟩
  | callStandby =>
    simp only
    split <;> exact ⟨_, rfl⟩
  | yieldedActive | yieldedKeepAlive | yieldedStandby | yieldedDone => exact ⟨_, rfl⟩

end

/-! ### The system around a generator -/

/-- The label creates generator `i` with these arguments only, and its consumer
reads on. -/
def Label.Serves (i : ℕ) (rid : String) (A : Upstream) (F : ℤ → Except Exc Upstream) : Label → Prop
  | .call j rid' A' F' => j = i → rid' = rid ∧ A' = A ∧ F' = F
  | .close j => j ≠ i
  | _ => True

/-- All that is known of generator `i` of request `rid` along a run. -/
structure Tracked (i : ℕ) (rid : String) (A : Upstream) (F : ℤ → Except Exc Upstream)
    (At : ℕ → Prop) (direct : Prop) (s : System) : Prop where
  owned : Owned i s
  recorded : Recorded s.mux.deduplicator (s.generators i)
  stage : Stage A F At direct (s.generators i)
  timed : (s.generators i).Timed s.clock
  arguments : (s.generators i).point ≠ .absent →
    (s.generators i).requestId = rid ∧ (s.generators i).standbyFactory = F
  signaled : direct ∨ (s.generators i).Started ∧
    ((s.generators i).InPhase1 → (s.mux.heap i).preemptionSignaled = true)

section
variable {i : ℕ} {rid : String} {A : Upstream} {F : ℤ → Except Exc Upstream} {At : ℕ → Prop}
  {direct : Prop}

theorem tracked_init (c : ℕ) (hc : 0 < c) (ka : ℕ) (hfree : ∀ d, AtSwap A d → At d) :
    Tracked i rid A F At True (System.init c hc ka) :=
  ⟨owned_init c hc ka i, ⟨fun _ => rfl, fun hl => hl.elim, kept_nil⟩, hfree, trivial,
    fun h => absurd rfl h, Or.inl trivial⟩

theorem Resumed.standbyFactory {now i : ℕ} {m : StreamMultiplexer} {g : Generator}
    {r : StreamMultiplexer × Generator} (h : Resumed now i m g r) :
    r.2.standbyFactory = g.standbyFactory := by
  have hsame : ∀ {g' g'' : Generator}, g''.sources = g'.sources →
      g'.standbyFactory = g.standbyFactory → g''.standbyFactory = g.standbyFactory :=
    fun he hf => (congrArg (fun x => x.2.2) he).trans hf
  cases h with
  | dropActive c _ _ _ _ => exact hsame (sources_checkCutoff now m _ c) rfl
  | gapActive _ _ _ _ _ _ => exact hsame (sources_raise m _ _) rfl
  | endActive _ _ _ => exact hsame (sources_afterActive now m _) rfl
  | raiseActive e _ _ _ => exact hsame (sources_raise m _ e) rfl
  | resumeActive c _ => exact hsame (sources_checkCutoff now m _ c) rfl
  | wake _ _ _ => exact hsame (sources_bufferingLoop now m g) rfl
  | failStandby e _ _ => exact hsame (sources_raise m g e) rfl
  | gapStandby _ _ _ _ _ _ => exact hsame (sources_raise m _ _) rfl
  | raiseStandby e _ _ _ => exact hsame (sources_raise m _ e) rfl
  | start | acceptActive | resumeKeepAlive | connectStandby | dropStandby | acceptStandby
  | endStandby | resumeStandby | finish => rfl

/-- The loop over the active upstream is not entered again. -/
theorem Resumed.inPhase1 {now i : ℕ} {m : StreamMultiplexer} {g : Generator}
    {r : StreamMultiplexer × Generator} (h : Resumed now i m g r) (hl : g.Live)
    (hp : r.2.InPhase1) : g.InPhase1 := by
  have hraise : ∀ (g : Generator) (e : Exc), ¬ (m.raise g e).2.InPhase1 := by
    intro g e hp
    obtain ⟨⟨e', he⟩, -⟩ := raise_spec m g e
    simp [Generator.InPhase1, he] at hp
  cases h with
  | start hc => simp [Generator.Live, hc] at hl
  | dropActive _ _ hc _ _ | acceptActive _ _ _ hc _ _ _ _ | endActive hc _ _ | resumeActive _ hc =>
    simp [Generator.InPhase1, hc]
  | gapActive _ _ _ _ _ _ => exact absurd hp (hraise _ _)
  | raiseActive e _ _ _ => exact absurd hp (hraise _ e)
  | wake _ _ _ =>
    have hb := (buffered_bufferingLoop now m g).buffering
    unfold Generator.Buffering at hb
    unfold Generator.InPhase1 at hp
    split at hb <;> simp_all
  | failStandby e _ _ => exact absurd hp (hraise _ e)
  | dropStandby _ _ hc _ _ => simp [Generator.InPhase1, Generator.record, hc] at hp
  | gapStandby _ _ _ _ _ _ => exact absurd hp (hraise _ _)
  | raiseStandby e _ _ _ => exact absurd hp (hraise _ e)
  | resumeKeepAlive | connectStandby | acceptStandby | endStandby | resumeStandby | finish =>
    exact hp.elim

/-- The generator's own resumption. -/
theorem tracked_resume {s : System} {r : StreamMultiplexer × Generator} (hA : Smooth A F)
    (hs : Tracked i rid A F At direct s)
    (hr : s.mux.streamWithHandover s.clock i (s.generators i) = some r)
    (ha : Apart i (s.put i r)) : Tracked i rid A F At direct (s.put i r) := by
  have h := Resumed.of_eq hr
  have hstep : s.step (.resume i) = some (s.put i r) := by
    simp only [System.step, hr, Option.map_some]
  have habs : (s.generators i).point ≠ .absent := by
    intro hp
    rcases h.live_or_created with hl | hc
    · exact hl.started.1 hp
    · rw [hp] at hc
      cases hc
  obtain ⟨hrid, hF⟩ := hs.arguments habs
  have hown := (owned_step hs.owned hstep ha).1
  have hsig : (s.generators i).InPhase1 →
      direct ∨ (s.mux.heap (s.generators i).session).preemptionSignaled = true := by
    intro hphase
    rw [(hs.owned.session hphase.live).1]
    exact hs.signaled.imp id fun h => h.2 hphase
  refine ⟨hown, recorded_step hs.owned hs.recorded hstep ha, ?_, ?_, fun _ => ?_, ?_⟩
  · rw [System.put_self]
    exact stage_resumed h hA hF hs.stage hs.recorded hsig
  · rw [System.put_self]
    exact timed_resumed h hs.timed
  · rw [System.put_self, h.standbyFactory]
    refine ⟨?_, hF⟩
    rcases h.live_or_created with hl | hp
    · rw [(h.moved hl).requestId, hrid]
    · rw [(h.live_of_created hp).2, hrid]
  · refine hs.signaled.imp id fun hsig => ?_
    obtain ⟨hst, hflag⟩ := hsig
    -- a started generator with a resumption is live
    have hl : (s.generators i).Live := h.live_or_created.resolve_right hst.2
    rw [System.put_self, System.put_mux]
    have hm := h.moved hl
    refine ⟨hm.started, fun hphase => ?_⟩
    have := congrArg (fun x => x.2.1) hm.signals
    rw [(hs.owned.session hl).1] at this
    exact this.trans (hflag (h.inPhase1 hl hphase))

theorem tracked_step {s t : System} {l : Label} (hA : Smooth A F) (hs : Tracked i rid A F At direct s)
    (h : s.step l = some t) (ha : Apart i t) (hl : l.Serves i rid A F) :
    Tracked i rid A F At direct t := by
  obtain ⟨hown, hcase⟩ := owned_step hs.owned h ha
  rcases hcase with (rfl | rfl) | ⟨rid', a, b, rfl, hp⟩ | he
  · obtain ⟨r, hr, rfl⟩ := Option.map_eq_some_iff.mp h
    exact tracked_resume hA hs hr ha
  · exact absurd rfl hl
  · obtain ⟨rfl, rfl, rfl⟩ := hl rfl
    have hrec := recorded_step hs.owned hs.recorded h ha
    simp only [System.step, hp] at h
    obtain rfl := Option.some.inj h
    have hfree := hs.stage
    simp only [Stage, hp] at hfree
    refine ⟨hown, hrec, ?_, ?_, fun _ => ?_, ?_⟩
    · rw [System.put_self]
      exact ⟨hfree, rfl⟩
    · rw [System.put_self]
      trivial
    · rw [System.put_self]
      exact ⟨rfl, rfl⟩
    · exact hs.signaled.imp id fun hst => absurd hp hst.1.1
  · have hrec := recorded_step hs.owned hs.recorded h ha
    refine ⟨hown, hrec, ?_, ?_, ?_, ?_⟩
    · rw [he.generator]
      exact hs.stage
    · rw [he.generator]
      exact hs.timed.mono he.clock
    · rw [he.generator]
      exact hs.arguments
    · rw [he.generator]
      refine hs.signaled.imp id fun hsig => ⟨hsig.1, fun hphase => ?_⟩
      obtain ⟨f, hf, hheap⟩ := he.heap hphase.live
      rw [hheap]
      exact hf.preemptionSignaled _ (hsig.2 hphase)

theorem tracked_run {s t : System} {ls : List Label} (hA : Smooth A F)
    (hs : Tracked i rid A F At direct s) (h : Machine.run System.step s ls = some t)
    (ha : Machine.Along System.step (fun _ _ t => Apart i t) s ls)
    (hl : ∀ l ∈ ls, l.Serves i rid A F) : Tracked i rid A F At direct t := by
  have hserves : Machine.Along System.step (fun _ l _ => l.Serves i rid A F) s ls :=
    Machine.Along.of_labels hl
  exact Machine.run_inv_along (fun _ _ _ hs ht hq => tracked_step hA hs ht hq.1 hq.2) hs
    (ha.and hserves) h

/-- A generator that is done has completed: it has yielded what it took from
the upstreams, and then the end of stream signal. -/
theorem tracked_ended {s : System} (hs : Tracked i rid A F At direct s) {o : Outcome}
    (ho : (s.generators i).point = .ended o) : o = .completed ∧
      Route A F At direct (s.generators i).pulled ∧
      (s.generators i).delivered = accepted TokenChunk.sequenceId (s.generators i).pulled ∧
      (s.generators i).items.filter (· ≠ .keepAlive) =
        (s.generators i).delivered.map .data ++ [.done] := by
  have hst := hs.stage
  cases o with
  | raised e => simp [Stage, ho] at hst
  | closed => simp [Stage, ho] at hst
  | completed =>
    simp only [Stage, ho] at hst
    obtain ⟨hroute, hdone⟩ := hst
    have hkept := hs.recorded.kept
    refine ⟨rfl, hroute, hkept.delivered, hkept.shape.resolve_left fun hno => ?_⟩
    have hmem : SseItem.done ∈ (sentIn (s.generators i).log).filter (· ≠ .keepAlive) :=
      List.mem_filter.mpr ⟨hdone, by decide⟩
    rw [hno] at hmem
    simp at hmem

/-- Told of the preemption while it reads the active upstream, a generator does
not go the direct way. -/
theorem tracked_signal {s : System} (hs : Tracked i rid A F At direct s)
    (hp : (s.generators i).InPhase1) (cutoff : ℤ) :
    Tracked i rid A F At False { s with mux := s.mux.triggerPreemption rid cutoff } := by
  have hl : (s.generators i).Live := hp.live
  have habs : (s.generators i).point ≠ .absent := hl.started.1
  have hsess : s.mux.activeSessions.get? rid = some i := by
    rw [← (hs.arguments habs).1]
    exact (hs.owned.session hl).2
  have hstep : s.step (.triggerPreemption rid cutoff) =
      some { s with mux := s.mux.triggerPreemption rid cutoff } := rfl
  have hmux : (s.mux.triggerPreemption rid cutoff).deduplicator = s.mux.deduplicator := by
    unfold triggerPreemption
    split <;> rfl
  refine ⟨(owned_step hs.owned hstep hs.owned.apart).1, ?_, ?_, hs.timed, hs.arguments,
    Or.inr ⟨hl.started, fun _ => ?_⟩⟩
  · show Recorded (s.mux.triggerPreemption rid cutoff).deduplicator (s.generators i)
    rw [hmux]
    exact hs.recorded
  · have hst := hs.stage
    unfold Generator.InPhase1 at hp
    unfold Stage at hst ⊢
    split at hp <;> simp_all
  · show ((s.mux.triggerPreemption rid cutoff).heap i).preemptionSignaled = true
    simp [triggerPreemption, hsess, modifySession]

/-- When the standby is called, what it takes from the active upstream is
settled. -/
theorem tracked_handover {s : System} (hA : Smooth A F) (hs : Tracked i rid A F At direct s)
    (hp : (s.generators i).point = .callStandby) : ∃ d, AtSwap A d ∧
      (s.generators i).delivered = A.chunks.take d ∧ Tracked i rid A F (· = d) False s := by
  have hst := hs.stage
  simp only [Stage, hp] at hst
  obtain ⟨d, -, hd, hpull⟩ := hst
  have hdel : (s.generators i).delivered =
      accepted TokenChunk.sequenceId (s.generators i).pulled := hs.recorded.kept.delivered
  refine ⟨d, hd, ?_, hs.owned, hs.recorded, ?_, hs.timed, hs.arguments, Or.inr ⟨?_, ?_⟩⟩
  · rw [hdel, hpull, accepted_of_numbered (hA.numbered.take d)]
  · simp only [Stage, hp]
    exact ⟨d, rfl, hd, hpull⟩
  · constructor <;> simp [hp]
  · intro hphase
    simp [Generator.InPhase1, hp] at hphase

/-! ### Done, sooner or later -/

/-- No standby that may be called has more than `n` chunks. -/
def Bounded (A : Upstream) (F : ℤ → Except Exc Upstream) (n : ℕ) : Prop :=
  ∀ (d : ℕ) (u : Upstream), AtSwap A d → F ((d : ℤ) - 1) = .ok u → u.chunks.length ≤ n

theorem exists_bounded (A : Upstream) (F : ℤ → Except Exc Upstream) : ∃ n, Bounded A F n := by
  let size : ℕ → ℕ := fun d =>
    match F ((d : ℤ) - 1) with
    | .ok u => u.chunks.length
    | .error _ => 0
  refine ⟨(Finset.range (A.chunks.length + 1)).sup size, fun d u hd hu => ?_⟩
  have hle : size d ≤ (Finset.range (A.chunks.length + 1)).sup size :=
    Finset.le_sup (Finset.mem_range.mpr (Nat.lt_succ_of_le hd.1))
  simpa only [size, hu] using hle

/-- The standby that is called is among those bounded. -/
theorem tracked_called {s : System} {n : ℕ} (hA : Smooth A F) (hs : Tracked i rid A F At direct s)
    (hn : Bounded A F n) (hp : (s.generators i).point = .callStandby) (u : Upstream)
    (hu : (s.generators i).standbyFactory
      (s.mux.deduplicator.getLastFlushed (s.generators i).requestId) = .ok u) :
    u.chunks.length ≤ n := by
  have hl : (s.generators i).Live := by simp [Generator.Live, hp]
  have hst := hs.stage
  simp only [Stage, hp] at hst
  obtain ⟨d, -, hd, hpull⟩ := hst
  have hlf := flushed_of_take hA.numbered hd.1 hpull (hs.recorded.running hl (by simp [hp]))
  rw [(hs.arguments hl.started.1).2,
    show s.mux.deduplicator.getLastFlushed (s.generators i).requestId = (d : ℤ) - 1 by omega] at hu
  exact hn d u hd hu

def Label.resumes (i : ℕ) : Label → Bool
  | .resume j => j = i
  | _ => false

/-- No run has more resumptions of a started generator than its effort. -/
theorem tracked_resumptions {s t : System} {ls : List Label} {n : ℕ} (hA : Smooth A F)
    (hs : Tracked i rid A F At direct s) (hst : (s.generators i).Started) (hn : Bounded A F n)
    (h : Machine.run System.step s ls = some t)
    (ha : Machine.Along System.step (fun _ _ t => Apart i t) s ls)
    (hl : ∀ l ∈ ls, l.Serves i rid A F) :
    ls.countP (Label.resumes i) ≤ (s.generators i).effort n := by
  have hserves : Machine.Along System.step (fun _ l _ => l.Serves i rid A F) s ls :=
    Machine.Along.of_labels hl
  have hstart : ∀ s l t, (s : System).step l = some t → (s.generators i).Started →
      (t.generators i).Started := by
    intro s l t ht hst
    rcases step_cases ht with ⟨j, _, _, _, -, hp, rfl⟩ | ⟨j, r, -, hr, rfl⟩ | ⟨_, _, _, -, rfl⟩
    · have hji : i ≠ j := by
        rintro rfl
        exact hst.1 hp
      rwa [System.put_of_ne s hji]
    · refine started_put ?_ hst
      cases hr with
      | starts _ _ _ _ hl => exact hl.started
      | dies _ hr =>
        subst hr
        constructor <;> simp [Generator.at_]
      | moves _ h => exact h.started
    · exact hst
  have hbound := Machine.count_le
    (I := fun s => Tracked i rid A F At direct s ∧ (s.generators i).Started)
    (Label.resumes i) (fun s => (s.generators i).effort n)
    (fun s l t hs ht hq => ⟨tracked_step hA hs.1 ht hq.1 hq.2, hstart s l t ht hs.2⟩) ?_
    ⟨hs, hst⟩ (ha.and hserves) h
  · omega
  · rintro s l t ⟨hs, hst⟩ ht ⟨hat, hq⟩
    rcases (owned_step hs.owned ht hat).2 with (rfl | rfl) | ⟨_, _, _, rfl, hp⟩ | he
    · obtain ⟨r, hr, rfl⟩ := Option.map_eq_some_iff.mp ht
      have := effort_resumed (Resumed.of_eq hr) hs.timed (tracked_called hA hs hn)
      rw [System.put_self]
      simp only [Label.resumes, decide_true, if_true]
      omega
    · exact absurd rfl hq
    · exact absurd hp hst.1
    · rw [he.generator]
      cases l with
      | resume j =>
        by_cases hji : j = i
        · subst hji
          obtain ⟨r, hr, rfl⟩ := Option.map_eq_some_iff.mp ht
          have hlt := effort_resumed (Resumed.of_eq hr) hs.timed (tracked_called hA hs hn)
          have := he.generator
          rw [System.put_self] at this
          rw [this] at hlt
          omega
        · simp [Label.resumes, hji]
      | _ => simp [Label.resumes]

/-- A timeout tick, then a resumption. -/
def tick (i : ℕ) : List Label := [.elapse waitTick, .resume i]

theorem apart_of_turn {s : System} {r : StreamMultiplexer × Generator} (ho : Owned i s)
    (hl : (s.generators i).Live) (hm : r.2.requestId = (s.generators i).requestId) :
    Apart i (s.put i r) := by
  intro j hji hj _
  rw [System.put_of_ne s hji] at hj ⊢
  rw [System.put_self, hm]
  exact ho.apart j hji hj hl

/-- A live generator is never stuck: after a tick it moves. -/
theorem run_tick {s : System} (hl : (s.generators i).Live) (ht : (s.generators i).Timed s.clock) :
    ∃ r, s.mux.streamWithHandover (s.clock + waitTick) i (s.generators i) = some r ∧
      Machine.run System.step s (tick i) = some (System.put { s with clock := s.clock + waitTick } i r) := by
  obtain ⟨r, hr⟩ := @resume_of_live s.mux (s.generators i) s.clock i hl ht
  refine ⟨r, hr, ?_⟩
  simp only [tick, Machine.run_cons, Machine.run_nil, System.step, Option.bind_some, hr, Option.map_some]

/-- Its move costs effort. -/
theorem tracked_tick {s : System} {n : ℕ} (hA : Smooth A F) (hs : Tracked i rid A F At direct s)
    (hn : Bounded A F n) (hl : (s.generators i).Live) :
    ∃ t, Machine.run System.step s (tick i) = some t ∧ Tracked i rid A F At direct t ∧
      (t.generators i).Started ∧ (t.generators i).effort n < (s.generators i).effort n := by
  have hs' : Tracked i rid A F At direct { s with clock := s.clock + waitTick } :=
    tracked_step hA hs (l := .elapse waitTick) rfl hs.owned.apart trivial
  obtain ⟨r, hr, hrun⟩ := run_tick hl hs.timed
  have hm := (Resumed.of_eq hr).moved hl
  refine ⟨System.put { s with clock := s.clock + waitTick } i r, hrun, ?_, ?_, ?_⟩
  · exact tracked_resume hA hs' hr (apart_of_turn hs'.owned hl hm.requestId)
  · rw [System.put_self]
    exact hm.started
  · rw [System.put_self]
    exact effort_resumed (Resumed.of_eq hr) hs'.timed (tracked_called hA hs hn)

/-- Left to itself, with time passing, a live generator completes. -/
theorem tracked_completes {n : ℕ} (hA : Smooth A F) (hn : Bounded A F n) : ∀ (s : System),
    Tracked i rid A F At direct s → (s.generators i).Live →
    ∃ k t, Machine.run System.step s (List.replicate k (tick i)).flatten = some t ∧
      Tracked i rid A F At direct t ∧ (t.generators i).point = .ended .completed := by
  intro s hs hl
  obtain ⟨t, ht, hst, hstarted, hlt⟩ := tracked_tick hA hs hn hl
  by_cases hlive : (t.generators i).Live
  · obtain ⟨k, u, hu, hsu, hend⟩ := tracked_completes hA hn t hst hlive
    refine ⟨k + 1, u, ?_, hsu, hend⟩
    rw [List.replicate_succ, List.flatten_cons]
    exact Machine.run_append_eq_some.mpr ⟨t, ht, hu⟩
  · refine ⟨1, t, by simpa using ht, hst, ?_⟩
    obtain ⟨o, ho⟩ := hstarted.live_or_ended.resolve_left hlive
    have hstage := hst.stage
    cases o with
    | completed => exact ho
    | raised e => simp [Stage, ho] at hstage
    | closed => simp [Stage, ho] at hstage
  termination_by s => (s.generators i).effort n

end

end Sgm
