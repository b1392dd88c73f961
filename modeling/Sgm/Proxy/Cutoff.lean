/-
# The preemption cutoff

The loop over the active upstream tests the signal after a chunk has been
pulled and yielded. So a cutoff that comes while the generator is suspended in
the pull, with the stream at or past it, is seen one chunk too late
(`Overruns`). At every other moment the stream stops in time: what the active
upstream delivers stays at or below the cutoff and what was delivered before
(`Held`), as long as no later signal moves the cutoff away.

Key definitions: `Generator.deliveredActive`, `Generator.lastDelivered`, `Phased`, `Held`,
`Overruns`, `KeepsCutoff`.
Key theorems: `phased_resumed`, `held_resumed`, `held_run`, `streamWithHandover_cutoff`.
-/
import Sgm.Proxy.Alerts

namespace Sgm

open InOrder Event StreamMultiplexer

/-! ### What the active upstream delivers -/

namespace Event

/-- The log between the first connection and the next. -/
def activeLog (log : List Event) : List Event := (log.drop 1).takeWhile (· ≠ .connected)

/-- The chunks delivered before the standby is connected to. -/
def activeChunks (log : List Event) : List TokenChunk := SseItem.chunks (sentIn (activeLog log))

variable {log : List Event}

theorem drop_one_concat (h : log ≠ []) (e : Event) : (log ++ [e]).drop 1 = log.drop 1 ++ [e] := by
  apply List.drop_append_of_le_length
  exact List.length_pos_iff.mpr h

theorem mem_drop_one_concat (h : .connected ∈ log.drop 1) (e : Event) :
    .connected ∈ (log ++ [e]).drop 1 := by
  rw [drop_one_concat (by rintro rfl; simp at h)]
  exact List.mem_append_left _ h

theorem not_connected_concat (hne : log ≠ []) {e : Event} (he : e ≠ .connected)
    (h : .connected ∉ log.drop 1) : .connected ∉ (log ++ [e]).drop 1 := by
  rw [drop_one_concat hne]
  intro hm
  rcases List.mem_append.mp hm with hm | hm
  · exact h hm
  · exact he (List.mem_singleton.mp hm).symm

/-- After the second connection the log of the first is complete. -/
theorem activeChunks_of_mem (h : .connected ∈ log.drop 1) (e : Event) :
    activeChunks (log ++ [e]) = activeChunks log := by
  have hne : log ≠ [] := by
    rintro rfl
    simp at h
  have hstop : ((log.drop 1).takeWhile (· ≠ .connected)).length ≠ (log.drop 1).length := by
    intro he
    have hall := (List.takeWhile_prefix (p := (· ≠ Event.connected)) (l := log.drop 1)).eq_of_length he
    have := List.mem_takeWhile_imp (hall.symm ▸ h)
    simp at this
  unfold activeChunks activeLog
  rw [drop_one_concat hne, List.takeWhile_append, if_neg hstop]

theorem activeLog_of_not_mem (h : .connected ∉ log.drop 1) : activeLog log = log.drop 1 := by
  unfold activeLog
  rw [List.takeWhile_eq_self_iff]
  intro x hx
  apply decide_eq_true
  rintro rfl
  exact h hx

/-- Before it the log of the first grows. -/
theorem activeChunks_of_not_mem (hne : log ≠ []) (h : .connected ∉ log.drop 1) (e : Event)
    (he : e ≠ .connected) :
    activeChunks (log ++ [e]) = activeChunks log ++ SseItem.chunks (sentIn [e]) := by
  have hmore : .connected ∉ (log ++ [e]).drop 1 := not_connected_concat hne he h
  unfold activeChunks
  rw [activeLog_of_not_mem hmore, activeLog_of_not_mem h, drop_one_concat hne, sentIn_append,
    SseItem.chunks_append]

/-- An event that delivers nothing. -/
theorem activeChunks_quiet (hne : log ≠ []) {e : Event} (he : SseItem.chunks (sentIn [e]) = []) :
    activeChunks (log ++ [e]) = activeChunks log := by
  by_cases h : .connected ∈ log.drop 1
  · exact activeChunks_of_mem h e
  by_cases hc : e = .connected
  · subst hc
    have hall := activeLog_of_not_mem h
    unfold activeLog at hall
    unfold activeChunks activeLog
    rw [drop_one_concat hne, List.takeWhile_append, if_pos (by rw [hall]), hall]
    simp
  · rw [activeChunks_of_not_mem hne h e hc, he, List.append_nil]

/-- The active upstream delivers a chunk. -/
theorem activeChunks_accept (hne : log ≠ []) (h : .connected ∉ log.drop 1) (c : TokenChunk) :
    activeChunks ((log ++ [.pulled c]) ++ [.sent (.data c)]) = activeChunks log ++ [c] := by
  have hpulled : Event.connected ∉ (log ++ [Event.pulled c]).drop 1 := by
    rw [drop_one_concat hne]
    intro hm
    rcases List.mem_append.mp hm with hm | hm
    · exact h hm
    · cases List.mem_singleton.mp hm
  calc activeChunks ((log ++ [.pulled c]) ++ [.sent (.data c)])
      = activeChunks (log ++ [.pulled c]) ++ [c] :=
        activeChunks_of_not_mem (by simp) hpulled _ (by simp)
    _ = activeChunks log ++ [c] := by rw [activeChunks_quiet hne rfl]

theorem activeChunks_subset (log : List Event) :
    activeChunks log ⊆ SseItem.chunks (sentIn log) := by
  apply List.Sublist.subset
  apply List.Sublist.filterMap
  apply List.Sublist.filterMap
  exact (List.takeWhile_sublist _).trans (List.drop_sublist 1 log)

end Event

namespace Generator

/-- The chunks of the active upstream that have been delivered. -/
def deliveredActive (g : Generator) : List TokenChunk := activeChunks g.log

/-- The last sequence id delivered to the client, -1 before the first. -/
def lastDelivered (g : Generator) : ℤ := (g.delivered.getLast?.map TokenChunk.sequenceId).getD (-1)

theorem lastDelivered_eq {g : Generator} (h : Kept g.log) :
    g.lastDelivered = (g.delivered.length : ℤ) - 1 := by
  have hdel : g.delivered = accepted TokenChunk.sequenceId g.pulled := h.delivered
  unfold lastDelivered
  rcases List.eq_nil_or_concat g.delivered with hnil | ⟨l, c, hl⟩
  · rw [hnil]
    rfl
  · rw [List.concat_eq_append] at hl
    have hc : (accepted TokenChunk.sequenceId g.pulled)[l.length]? = some c := by
      rw [← hdel, hl, List.getElem?_concat_length]
    rw [hl, List.getLast?_concat, Option.map_some, Option.getD_some, seq_accepted _ _ hc,
      List.length_append, List.length_singleton]
    push_cast
    ring

/-- No delivered id is above the last one. -/
theorem le_lastDelivered {g : Generator} (h : Kept g.log) {c : TokenChunk} (hc : c ∈ g.delivered) :
    c.sequenceId ≤ g.lastDelivered := by
  have hdel : g.delivered = accepted TokenChunk.sequenceId g.pulled := h.delivered
  obtain ⟨i, hi⟩ := List.mem_iff_getElem?.mp hc
  have hlt : i < g.delivered.length := (List.getElem?_eq_some_iff.mp hi).1
  rw [hdel] at hi
  rw [lastDelivered_eq h, seq_accepted _ _ hi]
  omega

end Generator

/-! ### The phases of a generator -/

/-- What a generator's log and local state have to do with its phase, when the
last flushed id of its request is `lf` and its active upstream is contiguous. -/
structure Phased (lf : ℤ) (g : Generator) : Prop where
  opened : g.Live → g.log ≠ []
  first : g.InPhase1 → .connected ∉ g.log.drop 1
  second : g.InPhase3 → .connected ∈ g.log.drop 1
  last : ∀ c, g.point = .yieldedActive c → c.sequenceId = lf
  next : g.point = .created ∨ g.InPhase1 →
    ∃ a, Numbered TokenChunk.sequenceId a g.active.chunks ∧ (g.InPhase1 → a = lf + 1 ∨ lf = -1)

/-- In none of the loops over the upstreams. -/
theorem Phased.between {lf : ℤ} {g : Generator} (h1 : ¬ g.InPhase1) (h3 : ¬ g.InPhase3)
    (hc : g.point ≠ .created) (hlog : g.Live → g.log ≠ []) : Phased lf g where
  opened := hlog
  first h := absurd h h1
  second h := absurd h h3
  last c hp := absurd (by simp [Generator.InPhase1, hp]) h1
  next h := (h.elim hc h1).elim

/-- In the loop over the standby. -/
theorem Phased.standby {lf : ℤ} {g : Generator} (h3 : g.InPhase3) (hlog : g.log ≠ [])
    (hmem : .connected ∈ g.log.drop 1) : Phased lf g := by
  have h1 : ¬ g.InPhase1 ∧ g.point ≠ .created ∧ ∀ c, g.point ≠ .yieldedActive c := by
    unfold Generator.InPhase3 at h3
    unfold Generator.InPhase1
    split at h3
    · simp_all
    · simp_all
    · exact h3.elim
  obtain ⟨h1, hc, hy⟩ := h1
  exact ⟨fun _ => hlog, fun h => absurd h h1, fun _ => hmem, fun c hp => absurd hp (hy c),
    fun h => (h.elim hc h1).elim⟩

theorem between_of_buffering {g : Generator} (h : g.Buffering) :
    ¬ g.InPhase1 ∧ ¬ g.InPhase3 ∧ g.point ≠ .created := by
  unfold Generator.Buffering at h
  unfold Generator.InPhase1 Generator.InPhase3
  split at h
  · simp_all
  · simp_all
  · simp_all
  · exact h.elim

theorem between_of_ended {g : Generator} {o : Outcome} (h : g.point = .ended o) :
    ¬ g.InPhase1 ∧ ¬ g.InPhase3 ∧ g.point ≠ .created ∧ ¬ g.Live := by
  simp [Generator.InPhase1, Generator.InPhase3, Generator.Live, h]

section
variable {lf : ℤ} {now i : ℕ} {m : StreamMultiplexer} {g : Generator}
  {r : StreamMultiplexer × Generator}

theorem phased_buffered (hb : Buffered m g r) (hne : g.log ≠ []) : Phased lf r.2 := by
  obtain ⟨h1, h3, hc⟩ := between_of_buffering hb.buffering
  refine Phased.between h1 h3 hc fun _ => ?_
  rcases hb.log with hl | hl
  · rwa [hl]
  · rw [hl]
    simp

theorem phased_raise (e : Exc) : Phased lf (m.raise g e).2 := by
  obtain ⟨⟨e', he⟩, -⟩ := raise_spec m g e
  obtain ⟨h1, h3, hc, hl⟩ := between_of_ended he
  exact Phased.between h1 h3 hc fun h => absurd h hl

theorem phased_endOfStream : Phased lf (m.endOfStream g).2 := by
  have hlog : (m.endOfStream g).2.log = g.log ++ [.sent .done] := rfl
  refine Phased.between id id (fun h => ?_) fun _ => by rw [hlog]; simp
  cases h

theorem phased_afterActive (hne : g.log ≠ []) : Phased lf (m.afterActive now g).2 := by
  rcases afterActive_spec now m g with ⟨-, hb⟩ | ⟨-, he⟩
  · exact phased_buffered hb hne
  · rw [he]
    exact phased_endOfStream

/-- The loop over the active upstream, after a chunk. -/
theorem phased_checkCutoff (c : TokenChunk) (hne : g.log ≠ []) (hfirst : .connected ∉ g.log.drop 1)
    {a : ℤ} (hnum : Numbered TokenChunk.sequenceId a g.active.chunks) (ha : a = lf + 1 ∨ lf = -1) :
    Phased lf (m.checkCutoff now g c).2 := by
  rcases checkCutoff_spec now m g c with ⟨-, hb⟩ | he
  · exact phased_buffered hb hne
  · rw [he]
    refine ⟨fun _ => hne, fun _ => hfirst, fun h => h.elim, ?_, fun _ => ⟨a, hnum, fun _ => ha⟩⟩
    intro c hp
    cases hp

theorem flushed_checkCutoff (c : TokenChunk) :
    (m.checkCutoff now g c).1.deduplicator.getLastFlushed (m.checkCutoff now g c).2.requestId =
      m.deduplicator.getLastFlushed g.requestId := by
  rcases checkCutoff_spec now m g c with ⟨-, hb⟩ | he
  · rw [hb.deduplicator, hb.requestId]
  · rw [he]
    rfl

theorem phased_resumed (h : Resumed now i m g r) (hidle : ¬ g.Started → g.log = [])
    (hfresh : g.point = .created → m.deduplicator.getLastFlushed g.requestId = -1)
    (hp : Phased (m.deduplicator.getLastFlushed g.requestId) g) :
    Phased (r.1.deduplicator.getLastFlushed r.2.requestId) r.2 := by
  have hne : g.Live → g.log ≠ [] := hp.opened
  cases h with
  | start hc =>
    have hlog : g.log = [] := hidle fun hs => hs.2 hc
    obtain ⟨a, hnum, -⟩ := hp.next (Or.inl hc)
    have hfirst : Event.connected ∉ (g.log ++ [Event.connected]).drop 1 := by simp [hlog]
    have hlf : (m.getOrCreateSession g.requestId i).1.deduplicator.getLastFlushed g.requestId = -1 := by
      rw [(getOrCreateSession_spec m g.requestId i).1]
      exact hfresh hc
    refine ⟨fun _ => ?_, fun _ => hfirst, fun h => h.elim, ?_, fun _ => ⟨a, hnum, fun _ => Or.inr hlf⟩⟩
    · simp [Generator.record]
    · intro c hp'
      cases hp'
  | dropActive c rest hpt hc hs =>
    have hphase : g.InPhase1 := by simp [Generator.InPhase1, hpt]
    obtain ⟨a, hnum, ha⟩ := hp.next (Or.inr hphase)
    rw [hc] at hnum
    have hca : c.sequenceId = a := hnum.1
    rw [flushed_checkCutoff]
    refine phased_checkCutoff c (by simp [Generator.record]) ?_ hnum.2 ?_
    · exact not_connected_concat (hne hphase.live) (by simp) (hp.first hphase)
    · -- a chunk of the contiguous rest is a duplicate only below the first id
      rcases ha hphase with ha | ha
      · omega
      · exact Or.inr ha
  | acceptActive c rest d hpt hc hs hd he =>
    have hphase : g.InPhase1 := by simp [Generator.InPhase1, hpt]
    obtain ⟨a, hnum, -⟩ := hp.next (Or.inr hphase)
    rw [hc] at hnum
    have hlf : d.getLastFlushed g.requestId = c.sequenceId := by
      rw [TokenDeduplicator.getLastFlushed, hd]
      rfl
    refine ⟨fun _ => ?_, fun _ => ?_, fun h => h.elim, ?_, fun _ => ⟨a + 1, hnum.2, fun _ => Or.inl ?_⟩⟩
    · simp [Generator.emit, Generator.record, Generator.at_]
    · refine not_connected_concat (by simp [Generator.record]) (by simp) ?_
      exact not_connected_concat (hne hphase.live) (by simp) (hp.first hphase)
    · intro c' hc'
      obtain rfl := Point.yieldedActive.inj hc'
      exact hlf.symm
    · have hca : c.sequenceId = a := hnum.1
      show a + 1 = d.getLastFlushed g.requestId + 1
      rw [hlf, hca]
  | gapActive c rest msg _ _ _ => exact phased_raise _
  | endActive _ _ _ => exact phased_afterActive (by simp [Generator.record])
  | raiseActive e _ _ _ => exact phased_raise e
  | resumeActive c hpt =>
    have hphase : g.InPhase1 := by simp [Generator.InPhase1, hpt]
    obtain ⟨a, hnum, ha⟩ := hp.next (Or.inr hphase)
    rw [flushed_checkCutoff]
    exact phased_checkCutoff c (hne hphase.live) (hp.first hphase) hnum (ha hphase)
  | resumeKeepAlive t hpt =>
    have hl : g.Live := by simp [Generator.Live, hpt]
    exact Phased.between id id (fun h => by cases h) fun _ => hne hl
  | wake since hpt _ =>
    have hl : g.Live := by simp [Generator.Live, hpt]
    exact phased_buffered (buffered_bufferingLoop now m g) (hne hl)
  | connectStandby u hpt _ =>
    have hl : g.Live := by simp [Generator.Live, hpt]
    refine Phased.standby trivial (by simp [Generator.record]) ?_
    show Event.connected ∈ (g.log ++ [Event.connected]).drop 1
    rw [drop_one_concat (hne hl)]
    exact List.mem_append_right _ (List.mem_singleton_self _)
  | failStandby e _ _ => exact phased_raise e
  | dropStandby c rest hpt _ _ =>
    have hphase : g.InPhase3 := by simp [Generator.InPhase3, hpt]
    exact Phased.standby hphase (by simp [Generator.record]) (mem_drop_one_concat (hp.second hphase) _)
  | acceptStandby c rest d hpt _ _ _ _ =>
    have hphase : g.InPhase3 := by simp [Generator.InPhase3, hpt]
    refine Phased.standby trivial ?_ (mem_drop_one_concat (mem_drop_one_concat (hp.second hphase) _) _)
    simp [Generator.emit, Generator.record, Generator.at_]
  | gapStandby c rest msg _ _ _ => exact phased_raise _
  | endStandby _ _ _ => exact phased_endOfStream
  | raiseStandby e _ _ _ => exact phased_raise e
  | resumeStandby hpt =>
    have hphase : g.InPhase3 := by simp [Generator.InPhase3, hpt]
    have hl : g.Live := by simp [Generator.Live, hpt]
    exact Phased.standby trivial (hne hl) (hp.second hphase)
  | finish _ => exact Phased.between id id (fun h => by cases h) fun h => h.elim

/-! ### Once the cutoff is known -/

/-- What is so far and will be delivered by the active upstream is at most `M`:
in its loop the cutoff is known, and the next chunk is not past `M`. -/
structure Held (M : ℤ) (m : StreamMultiplexer) (g : Generator) : Prop where
  cutoff : g.InPhase1 → (m.heap g.session).preemptionSignaled = true ∧
    0 ≤ (m.heap g.session).cutoffSequenceId ∧ (m.heap g.session).cutoffSequenceId ≤ M
  pull : g.point = .pullActive →
    m.deduplicator.getLastFlushed g.requestId < M ∨ g.active.chunks = []
  delivered : ∀ c ∈ g.deliveredActive, c.sequenceId ≤ M

variable {M : ℤ}

/-- The loop over the active upstream is left, or was left before. -/
theorem Held.left {m' : StreamMultiplexer} {g' : Generator} (h : Held M m g) (h1 : ¬ g'.InPhase1)
    (hd : g'.deliveredActive = g.deliveredActive) : Held M m' g' where
  cutoff hp := absurd hp h1
  pull hp := absurd (by simp [Generator.InPhase1, hp]) h1
  delivered := by
    rw [hd]
    exact h.delivered

theorem deliveredActive_buffered (hb : Buffered m g r) (hne : g.log ≠ []) :
    r.2.deliveredActive = g.deliveredActive := by
  unfold Generator.deliveredActive
  rcases hb.log with hl | hl
  · rw [hl]
  · rw [hl]
    exact activeChunks_quiet hne rfl

theorem held_raise (hd : ∀ c ∈ g.deliveredActive, c.sequenceId ≤ M) (e : Exc) :
    Held M (m.raise g e).1 (m.raise g e).2 := by
  obtain ⟨⟨e', he⟩, hlog⟩ := raise_spec m g e
  have h1 := (between_of_ended he).1
  refine ⟨fun hp => absurd hp h1, fun hp => absurd (by simp [Generator.InPhase1, hp]) h1, ?_⟩
  rw [Generator.deliveredActive, hlog]
  exact hd

theorem Held.buffered (h : Held M m g) (hb : Buffered m g r) (hne : g.log ≠ []) : Held M r.1 r.2 :=
  h.left (between_of_buffering hb.buffering).1 (deliveredActive_buffered hb hne)

/-- An event that delivers nothing. -/
theorem Held.record (h : Held M m g) (hne : g.log ≠ []) {e : Event}
    (he : SseItem.chunks (sentIn [e]) = []) : Held M m (g.record e) :=
  ⟨h.cutoff, h.pull, fun c hc => h.delivered c (by
    rwa [Generator.deliveredActive, Generator.record, activeChunks_quiet hne he] at hc)⟩

theorem Held.endOfStream (h : Held M m g) (hne : g.log ≠ []) :
    Held M (m.endOfStream g).1 (m.endOfStream g).2 :=
  h.left id (activeChunks_quiet hne rfl)

/-- The test of the cutoff after chunk `c`: below the cutoff the loop goes on. -/
theorem held_checkCutoff (c : TokenChunk) (hne : g.log ≠ [])
    (hcut : (m.heap g.session).preemptionSignaled = true ∧
      0 ≤ (m.heap g.session).cutoffSequenceId ∧ (m.heap g.session).cutoffSequenceId ≤ M)
    (hlf : c.sequenceId < M → m.deduplicator.getLastFlushed g.requestId < M)
    (hd : ∀ c ∈ g.deliveredActive, c.sequenceId ≤ M) :
    Held M (m.checkCutoff now g c).1 (m.checkCutoff now g c).2 := by
  obtain ⟨hsig, hpos, hle⟩ := hcut
  unfold checkCutoff
  simp only
  split_ifs with hc
  · rcases afterActive_spec now m g with ⟨-, hb⟩ | ⟨hns, -⟩
    · obtain ⟨h1, -, -⟩ := between_of_buffering hb.buffering
      refine ⟨fun hp => absurd hp h1, fun hp => ?_, ?_⟩
      · exact absurd (by simp [Generator.InPhase1, hp]) h1
      · rwa [deliveredActive_buffered hb hne]
    · rw [hsig] at hns
      cases hns
  · have hlt : c.sequenceId < (m.heap g.session).cutoffSequenceId := by
      by_contra hge
      exact hc ⟨hsig, hpos, not_lt.mp hge⟩
    exact ⟨fun _ => ⟨hsig, hpos, hle⟩, fun _ => Or.inl (hlf (lt_of_lt_of_le hlt hle)), hd⟩

/-- One resumption: the active upstream delivers nothing past `M`. -/
theorem held_resumed (h : Resumed now i m g r) (hl : g.Live)
    (hp : Phased (m.deduplicator.getLastFlushed g.requestId) g) (hg : Held M m g) :
    Held M r.1 r.2 := by
  have hne : g.log ≠ [] := hp.opened hl
  cases h with
  | start hc => simp [Generator.Live, hc] at hl
  | dropActive c rest hpt hc hs =>
    have hphase : g.InPhase1 := by simp [Generator.InPhase1, hpt]
    have hrec := hg.record hne (e := .pulled c) rfl
    refine held_checkCutoff c (by simp [Generator.record]) (hg.cutoff hphase) (fun _ => ?_)
      hrec.delivered
    rcases hg.pull hpt with hlt | hnil
    · exact hlt
    · rw [hc] at hnil
      cases hnil
  | acceptActive c rest d hpt hc hs hd he =>
    have hphase : g.InPhase1 := by simp [Generator.InPhase1, hpt]
    have hcM : c.sequenceId ≤ M := by
      rcases hg.pull hpt with hlt | hnil
      · omega
      · rw [hc] at hnil
        cases hnil
    refine ⟨fun _ => hg.cutoff hphase, fun hp' => Point.noConfusion hp', fun c' hc' => ?_⟩
    have hsent : c' ∈ activeChunks ((g.log ++ [.pulled c]) ++ [.sent (.data c)]) := hc'
    rw [activeChunks_accept hne (hp.first hphase)] at hsent
    rcases List.mem_append.mp hsent with hold | hnew
    · exact hg.delivered c' hold
    · obtain rfl := List.mem_singleton.mp hnew
      exact hcM
  | gapActive c rest msg _ _ _ =>
    refine held_raise ?_ _
    exact (hg.record hne (e := .pulled c) rfl).delivered
  | endActive hpt _ _ =>
    have hphase : g.InPhase1 := by simp [Generator.InPhase1, hpt]
    have hrec := hg.record hne (e := .upstreamEnded g.active.ending) rfl
    rcases afterActive_spec now m (g.record (.upstreamEnded g.active.ending)) with ⟨-, hb⟩ | ⟨-, he⟩
    · exact hrec.buffered hb (by simp [Generator.record])
    · rw [he]
      exact hrec.endOfStream (by simp [Generator.record])
  | raiseActive e _ _ _ =>
    exact held_raise (hg.record hne (e := .upstreamEnded g.active.ending) rfl).delivered e
  | resumeActive c hpt =>
    have hphase : g.InPhase1 := by simp [Generator.InPhase1, hpt]
    refine held_checkCutoff c hne (hg.cutoff hphase) (fun hlt => ?_) hg.delivered
    have hlast := hp.last c hpt
    show m.deduplicator.getLastFlushed g.requestId < M
    omega
  | resumeKeepAlive t hpt => exact hg.left id rfl
  | wake since hpt _ => exact hg.buffered (buffered_bufferingLoop now m g) hne
  | connectStandby u hpt _ => exact hg.left id (activeChunks_quiet hne rfl)
  | failStandby e _ _ => exact held_raise hg.delivered e
  | dropStandby c rest hpt _ _ =>
    refine hg.left ?_ (activeChunks_quiet hne rfl)
    simp [Generator.InPhase1, Generator.record, hpt]
  | acceptStandby c rest d hpt _ _ _ _ =>
    have hphase : g.InPhase3 := by simp [Generator.InPhase3, hpt]
    refine hg.left id ?_
    show activeChunks ((g.log ++ [.pulled c]) ++ [.sent (.data c)]) = activeChunks g.log
    rw [activeChunks_of_mem (mem_drop_one_concat (hp.second hphase) _), activeChunks_quiet hne rfl]
  | gapStandby c rest msg _ _ _ =>
    refine held_raise ?_ _
    exact (hg.record hne (e := .pulled c) rfl).delivered
  | endStandby _ _ _ =>
    exact (hg.record hne (e := .upstreamEnded g.standby.ending) rfl).endOfStream
      (by simp [Generator.record])
  | raiseStandby e _ _ _ =>
    exact held_raise (hg.record hne (e := .upstreamEnded g.standby.ending) rfl).delivered e
  | resumeStandby _ => exact hg.left id rfl
  | finish _ => exact hg.left id rfl

end

/-! ### The system around the generator -/

theorem Phased.congr {lf lf' : ℤ} {g : Generator} (h : Phased lf g) (he : g.Live → lf' = lf) :
    Phased lf' g where
  opened := h.opened
  first := h.first
  second := h.second
  last c hp := by
    rw [he (by simp [Generator.Live, hp])]
    exact h.last c hp
  next hp := by
    obtain ⟨a, hnum, ha⟩ := h.next hp
    refine ⟨a, hnum, fun h1 => ?_⟩
    rw [he h1.live]
    exact ha h1

/-- What is known of generator `i` at any time. -/
structure Reading (i : ℕ) (s : System) : Prop where
  owned : Owned i s
  recorded : Recorded s.mux.deduplicator (s.generators i)
  phased : Phased (s.mux.deduplicator.getLastFlushed (s.generators i).requestId) (s.generators i)

/-- If the label creates generator `i`, its active upstream is contiguous. -/
def Label.CallsContiguous (i : ℕ) (l : Label) : Prop :=
  ∀ rid A F, l = .call i rid A F → ∃ a, Numbered TokenChunk.sequenceId a A.chunks

section
variable {i : ℕ} {s t : System} {l : Label} {M : ℤ}

theorem reading_init (c : ℕ) (hc : 0 < c) (ka : ℕ) : Reading i (System.init c hc ka) where
  owned := owned_init c hc ka i
  recorded := ⟨fun _ => rfl, fun hl => hl.elim, kept_nil⟩
  phased := by
    refine Phased.between id id (fun h => ?_) fun h => h.elim
    cases h

theorem reading_step (hs : Reading i s) (ht : s.step l = some t) (ha : Apart i t)
    (hl : l.CallsContiguous i) : Reading i t := by
  obtain ⟨howned, hcase⟩ := owned_step hs.owned ht ha
  refine ⟨howned, recorded_step hs.owned hs.recorded ht ha, ?_⟩
  rcases hcase with (rfl | rfl) | ⟨rid, A, F, rfl, hp⟩ | he
  · obtain ⟨r, hr, rfl⟩ := Option.map_eq_some_iff.mp ht
    rw [System.put_self]
    refine phased_resumed (Resumed.of_eq hr) hs.recorded.idle (fun hc => ?_) hs.phased
    obtain ⟨hlive, hrid⟩ := (Resumed.of_eq hr).live_of_created hc
    have hfresh := (fresh_of_starts hs.owned.tables hc hrid hlive ha).1
    rw [TokenDeduplicator.getLastFlushed, hfresh]
    rfl
  · rw [IngressProxy.close_eq ht]
    exact Phased.between id id (fun h => by cases h) fun h => h.elim
  · simp only [System.step, hp] at ht
    obtain rfl := Option.some.inj ht
    rw [System.put_self]
    obtain ⟨a, hnum⟩ := hl rid A F rfl
    refine ⟨fun h => h.elim, fun h => h.elim, fun h => h.elim, ?_, fun _ => ⟨a, hnum, fun h => h.elim⟩⟩
    intro c hc
    cases hc
  · rw [he.generator]
    exact hs.phased.congr he.flushed

theorem reading_run {c ka : ℕ} {hc : 0 < c} {ls : List Label}
    (h : Machine.run System.step (System.init c hc ka) ls = some s)
    (ha : Machine.Along System.step (fun _ _ t => Apart i t) (System.init c hc ka) ls)
    (hl : ∀ l ∈ ls, l.CallsContiguous i) : Reading i s :=
  Machine.run_inv_along (I := Reading i) (fun _ _ _ hs ht hq => reading_step hs ht hq.1 hq.2)
    (reading_init c hc ka) (ha.and (Machine.Along.of_labels hl)) h

/-- A session is told of a preemption by signals for its own request only. -/
theorem signals_step (ho : Owned i s) (hl : (s.generators i).Live) (ht : s.step l = some t)
    (hK : ∀ K, l ≠ .triggerPreemption (s.generators i).requestId K) :
    (t.mux.heap i).signals = (s.mux.heap i).signals := by
  have hturn : ∀ (j : ℕ) (r : StreamMultiplexer × Generator), Turn j s.mux (s.generators j) r →
      (r.1.heap i).signals = (s.mux.heap i).signals := by
    intro j r hr
    by_cases hj : i = j
    · subst hj
      rcases hr with ⟨hp, -, -, -, -⟩ | ⟨hp, -⟩ | ⟨-, hm⟩
      · exact absurd hp hl.started.2
      · exact absurd hp hl.started.2
      · have hsig := hm.signals
        rwa [(ho.session hl).1] at hsig
    · exact hr.signals hj
  rcases l with ⟨j, rid, A, F⟩ | j | j | ⟨rid, K⟩ | rid | dt
  · simp only [System.step] at ht
    split at ht
    · obtain rfl := Option.some.inj ht
      rfl
    · cases ht
  · obtain ⟨r, hr, rfl⟩ := Option.map_eq_some_iff.mp ht
    exact hturn j r (turn_of_resume hr)
  · obtain ⟨r, hr, rfl⟩ := Option.map_eq_some_iff.mp ht
    exact hturn j r (turn_of_close hr)
  · obtain rfl := Option.some.inj ht
    show ((s.mux.triggerPreemption rid K).heap i).signals = _
    unfold StreamMultiplexer.triggerPreemption
    split
    · rename_i ref href
      -- a session of another request
      have hne : i ≠ ref := by
        rintro rfl
        have hrid : (s.generators i).requestId = rid := by
          rw [← (ho.tables.refs i hl).2, (ho.session hl).1]
          exact (ho.tables.sessions rid i href).2.1
        exact hK K (by rw [hrid])
      simp [modifySession, Function.update_of_ne hne]
    · rfl
  · obtain rfl := Option.some.inj ht
    show ((s.mux.triggerHandoverReady rid).heap i).signals = _
    unfold StreamMultiplexer.triggerHandoverReady
    split
    · rename_i ref _
      by_cases href : i = ref
      · subst href
        simp [modifySession, StreamSessionState.signals]
      · simp [modifySession, Function.update_of_ne href]
    · rfl
  · obtain rfl := Option.some.inj ht
    rfl

/-- While the active upstream of generator `i` is read, no signal for its
request moves the cutoff above `M`, or takes it away. -/
def KeepsCutoff (i : ℕ) (M : ℤ) (s : System) (l : Label) (_ : System) : Prop :=
  ∀ K, l = .triggerPreemption (s.generators i).requestId K → (s.generators i).InPhase1 →
    0 ≤ K ∧ K ≤ M

theorem held_step (hs : Reading i s) (hst : (s.generators i).Started)
    (hh : Held M s.mux (s.generators i)) (ht : s.step l = some t) (ha : Apart i t)
    (hK : KeepsCutoff i M s l t) : (t.generators i).Started ∧ Held M t.mux (t.generators i) := by
  rcases (owned_step hs.owned ht ha).2 with (rfl | rfl) | ⟨rid, A, F, rfl, hp⟩ | he
  · obtain ⟨r, hr, rfl⟩ := Option.map_eq_some_iff.mp ht
    have hres := Resumed.of_eq hr
    rw [System.put_self, System.put_mux]
    have hlive : (s.generators i).Live := by
      rcases hres.live_or_created with hl | hc
      · exact hl
      · exact absurd hc hst.2
    exact ⟨(hres.moved hlive).started, held_resumed hres hlive hs.phased hh⟩
  · rw [IngressProxy.close_eq ht]
    refine ⟨⟨fun h => ?_, fun h => ?_⟩, hh.left id rfl⟩
    · cases h
    · cases h
  · exact absurd hp hst.1
  · rw [he.generator]
    refine ⟨hst, fun h1 => ?_, fun hp => ?_, hh.delivered⟩
    · have hsess := (hs.owned.session h1.live).1
      by_cases htrig : ∃ K, l = .triggerPreemption (s.generators i).requestId K
      · obtain ⟨K, rfl⟩ := htrig
        obtain rfl := Option.some.inj ht
        rw [hsess]
        show ((s.mux.triggerPreemption (s.generators i).requestId K).heap i).preemptionSignaled = true ∧ _
        rw [signaled_of_trigger hs.owned h1.live]
        exact ⟨rfl, hK K rfl h1⟩
      · have hsig := signals_step hs.owned h1.live ht fun K hl => htrig ⟨K, hl⟩
        have hcut := hh.cutoff h1
        rw [hsess] at hcut ⊢
        obtain ⟨-, hrest⟩ := Prod.mk.inj hsig
        obtain ⟨hflag, hcutoff⟩ := Prod.mk.inj hrest
        rw [hflag, hcutoff]
        exact hcut
    · have hlive : (s.generators i).Live := by simp [Generator.Live, hp]
      rw [he.flushed hlive]
      exact hh.pull hp

theorem held_run {ls : List Label} (hs : Reading i s) (hst : (s.generators i).Started)
    (hh : Held M s.mux (s.generators i))
    (ha : Machine.Along System.step (fun _ _ t => Apart i t) s ls)
    (hK : Machine.Along System.step (KeepsCutoff i M) s ls)
    (hr : Machine.run System.step s ls = some t) : Held M t.mux (t.generators i) := by
  refine (Machine.run_inv_along
    (I := fun s => Reading i s ∧ (s.generators i).Started ∧ Held M s.mux (s.generators i))
    (Q := fun s l t => Apart i t ∧ KeepsCutoff i M s l t) ?_ ⟨hs, hst, hh⟩ (ha.and hK) hr).2.2
  rintro s l t ⟨hs, hst, hh⟩ ht ⟨ha, hK⟩
  refine ⟨reading_step hs ht ha ?_, held_step hs hst hh ht ha hK⟩
  rintro rid A F rfl
  simp only [System.step] at ht
  split at ht
  · rename_i habs
    exact absurd habs hst.1
  · cases ht

end

/-! ### A signal at any moment -/

/-- The signal comes while the generator is suspended in the pull of a chunk
still to come, with the stream at or past the cutoff. -/
def Overruns (K : ℤ) (g : Generator) : Prop :=
  g.point = .pullActive ∧ K ≤ g.lastDelivered ∧ g.active.chunks ≠ []

theorem triggerPreemption_deduplicator (m : StreamMultiplexer) (rid : String) (K : ℤ) :
    (m.triggerPreemption rid K).deduplicator = m.deduplicator := by
  unfold triggerPreemption
  split
  · rfl
  · rfl

section
variable {i : ℕ} {s : System} {K : ℤ}

theorem Reading.lastFlushed (hs : Reading i s) (hl : (s.generators i).Live)
    (hd : (s.generators i).point ≠ .yieldedDone) :
    s.mux.deduplicator.getLastFlushed (s.generators i).requestId = (s.generators i).lastDelivered := by
  have hexact := hs.recorded.running hl hd
  rw [Generator.lastDelivered_eq hs.recorded.kept]
  exact eq_sub_of_add_eq hexact.flushed

/-- At every other moment the cutoff holds from the signal on. -/
theorem held_of_trigger (hs : Reading i s) (hK : 0 ≤ K) (ho : ¬ Overruns K (s.generators i)) :
    Held (max K (s.generators i).lastDelivered)
      (s.mux.triggerPreemption (s.generators i).requestId K) (s.generators i) where
  cutoff h1 := by
    rw [(hs.owned.session h1.live).1, signaled_of_trigger hs.owned h1.live]
    exact ⟨rfl, hK, le_max_left _ _⟩
  pull hp := by
    rw [triggerPreemption_deduplicator, hs.lastFlushed (by simp [Generator.Live, hp]) (by simp [hp])]
    by_contra hcon
    obtain ⟨hle, hne⟩ := not_or.mp hcon
    apply ho
    exact ⟨hp, (le_max_left _ _).trans (not_lt.mp hle), hne⟩
  delivered c hc := by
    have hle := Generator.le_lastDelivered hs.recorded.kept (activeChunks_subset _ hc)
    exact hle.trans (le_max_right _ _)

/-- At that moment the next resumption delivers the chunk after it. -/
theorem overrun_resume (hs : Reading i s) (hK : 0 ≤ K) (ho : Overruns K (s.generators i)) :
    ∃ t c, Machine.run System.step
        { s with mux := s.mux.triggerPreemption (s.generators i).requestId K } [.resume i] = some t ∧
      Apart i t ∧
      (t.generators i).deliveredActive = (s.generators i).deliveredActive ++ [c] ∧
      max K (s.generators i).lastDelivered < c.sequenceId := by
  obtain ⟨hp, hle, hne⟩ := ho
  obtain ⟨c, rest, hc⟩ := List.exists_cons_of_ne_nil hne
  have hphase : (s.generators i).InPhase1 := by simp [Generator.InPhase1, hp]
  have hlf := hs.lastFlushed hphase.live (by simp [hp])
  obtain ⟨a, hnum, ha⟩ := hs.phased.next (Or.inr hphase)
  rw [hc] at hnum
  have hseq : c.sequenceId = (s.generators i).lastDelivered + 1 := by
    rcases ha hphase with ha | ha
    · rw [hnum.1, ha, hlf]
    · omega
  let m := s.mux.triggerPreemption (s.generators i).requestId K
  have hnext : c.sequenceId = m.deduplicator.getLastFlushed (s.generators i).requestId + 1 := by
    rw [triggerPreemption_deduplicator, hlf, hseq]
  obtain ⟨r, hr, hrid, hdel⟩ : ∃ r, m.streamWithHandover s.clock i (s.generators i) = some r ∧
      r.2.requestId = (s.generators i).requestId ∧
      r.2.deliveredActive = (s.generators i).deliveredActive ++ [c] := by
    unfold streamWithHandover
    simp only [hp, hc, TokenDeduplicator.filterChunk_next hnext, Generator.record]
    refine ⟨_, rfl, rfl, ?_⟩
    exact activeChunks_accept (hs.phased.opened hphase.live) (hs.phased.first hphase) c
  refine ⟨System.put { s with mux := m } i r, c, ?_, ?_, ?_, ?_⟩
  · show Machine.run System.step { s with mux := m } [.resume i] = _
    simp only [Machine.run_cons, Machine.run_nil, System.step, hr, Option.map_some, Option.bind_some]
  · have howned : Owned i { s with mux := m } := by
      refine (owned_step (l := .triggerPreemption (s.generators i).requestId K) hs.owned rfl ?_).1
      exact hs.owned.apart
    exact apart_of_turn howned hphase.live hrid
  · rw [System.put_self, hdel]
  · rw [hseq]
    omega

end

/-- A signal with cutoff `K` in state `s` is respected: however the run goes on
without another cutoff, what the active upstream delivers afterwards stays at or
below `K` and what the client already had. -/
def RespectsCutoff (i : ℕ) (K : ℤ) (s : System) : Prop :=
  ∀ ls t,
    Machine.run System.step
      { s with mux := s.mux.triggerPreemption (s.generators i).requestId K } ls = some t →
    Machine.Along System.step
      (fun s' l t' => Apart i t' ∧ KeepsCutoff i (max K (s.generators i).lastDelivered) s' l t')
      { s with mux := s.mux.triggerPreemption (s.generators i).requestId K } ls →
    ∀ chunk ∈ (t.generators i).deliveredActive.drop (s.generators i).deliveredActive.length,
      chunk.sequenceId ≤ max K (s.generators i).lastDelivered

/-- The preemption cutoff, at every moment of every run: a signal is respected
if and only if it does not come in the pull of a chunk with the stream at or
past the cutoff. -/
theorem streamWithHandover_cutoff {capacity keepaliveInterval i : ℕ} {hcap : 0 < capacity}
    {ls : List Label} {s : System} {K : ℤ}
    (hrun : Machine.run System.step (System.init capacity hcap keepaliveInterval) ls = some s)
    (hapart : Machine.Along System.step (fun _ _ t => Apart i t)
      (System.init capacity hcap keepaliveInterval) ls)
    (hcalls : ∀ l ∈ ls, l.CallsContiguous i) (hstarted : (s.generators i).Started) (hK : 0 ≤ K) :
    RespectsCutoff i K s ↔ ¬ Overruns K (s.generators i) := by
  have hs : Reading i s := reading_run hrun hapart hcalls
  constructor
  · intro h ho
    obtain ⟨t, c, hr, ha, hd, hlt⟩ := overrun_resume hs hK ho
    refine absurd (h [.resume i] t hr ?_ c ?_) (not_le.mpr hlt)
    · intro t' ht'
      rw [Machine.run_cons, ht'] at hr
      obtain rfl := Option.some.inj hr
      refine ⟨⟨ha, fun K' hl => ?_⟩, trivial⟩
      cases hl
    · rw [hd, List.drop_left]
      exact List.mem_singleton_self c
  · intro ho ls' t hr hq chunk hchunk
    have hs' : Reading i { s with mux := s.mux.triggerPreemption (s.generators i).requestId K } := by
      apply reading_step (l := .triggerPreemption (s.generators i).requestId K) hs rfl hs.owned.apart
      intro rid A F hl
      cases hl
    have hheld := held_run hs' hstarted (held_of_trigger hs hK ho) (hq.mono fun _ _ _ h => h.1)
      (hq.mono fun _ _ _ h => h.2) hr
    exact hheld.delivered chunk (List.mem_of_mem_drop hchunk)

/-- The active upstream has three chunks, and the first is being written. -/
def firstYielded : List Label :=
  [.call 0 "r" ⟨[⟨"r", 0, "a", 0, false, []⟩, ⟨"r", 1, "b", 0, false, []⟩,
      ⟨"r", 2, "c", 0, false, []⟩], .done⟩ fun _ => .ok ⟨[], .done⟩,
    .resume 0, .resume 0]

theorem streamWithHandover_cutoff_firstYielded :
    ∃ s, Machine.run System.step (System.init 8 (by decide) 800000000) firstYielded = some s ∧
      RespectsCutoff 0 0 s := by
  obtain ⟨s, hs, hp⟩ : ∃ s, Machine.run System.step (System.init 8 (by decide) 800000000)
      firstYielded = some s ∧
      (s.generators 0).point = .yieldedActive ⟨"r", 0, "a", 0, false, []⟩ := ⟨_, rfl, rfl⟩
  refine ⟨s, hs, (streamWithHandover_cutoff hs (apart_of_about ?_) ?_ ?_ le_rfl).mpr ?_⟩
  · simp [firstYielded, Label.About]
  · intro l hl rid A F hcall
    simp only [firstYielded, List.mem_cons, List.not_mem_nil, or_false] at hl
    rcases hl with rfl | rfl | rfl
    · injection hcall with _ _ hA _
      subst hA
      exact ⟨0, by simp [Numbered]⟩
    · cases hcall
    · cases hcall
  · exact ⟨by simp [hp], by simp [hp]⟩
  · intro ho
    rw [ho.1] at hp
    cases hp

/-- One resumption later the generator is in the pull: a signal with cutoff 0
lets the chunk with id 1 through. -/
theorem not_respectsCutoff_pull :
    ∃ s, Machine.run System.step (System.init 8 (by decide) 800000000)
        (firstYielded ++ [.resume 0]) = some s ∧
      (s.generators 0).lastDelivered = 0 ∧ ¬ RespectsCutoff 0 0 s := by
  let rest : List Label := [.triggerPreemption "r" 0, .resume 0]
  have hapart := @apart_of_about 0 8 800000000 (by decide) (firstYielded ++ [.resume 0] ++ rest)
    (by simp [firstYielded, rest, Label.About])
  obtain ⟨s, hs, hlast, hrid, t, ht, hchunk⟩ : ∃ s,
      Machine.run System.step (System.init 8 (by decide) 800000000)
        (firstYielded ++ [.resume 0]) = some s ∧ (s.generators 0).lastDelivered = 0 ∧
      (s.generators 0).requestId = "r" ∧
      ∃ t, Machine.run System.step
          { s with mux := s.mux.triggerPreemption (s.generators 0).requestId 0 } [.resume 0] =
            some t ∧
        ⟨"r", 1, "b", 0, false, []⟩ ∈
          (t.generators 0).deliveredActive.drop (s.generators 0).deliveredActive.length :=
    ⟨_, rfl, rfl, rfl, _, rfl, by decide⟩
  refine ⟨s, hs, hlast, fun h => ?_⟩
  have hrest := ((hapart.append_right hs) _ rfl).2
  rw [← hrid] at hrest
  have hle := h [.resume 0] t ht (fun t' ht' => ⟨⟨?_, fun K hl => ?_⟩, trivial⟩) _ hchunk
  · rw [hlast] at hle
    exact absurd hle (by decide)
  · exact (hrest t' ht').1
  · cases hl

end Sgm
