/-
# Streams side by side

What a stream sees of the tables that all streams share is its session, the
last flushed id of its request and the keep-alive interval (`SameView`). A
resumption depends on nothing else of the multiplexer, and a stream whose
request id is not concurrently in use keeps its view while others move. So the
other requests can be left out of the run, and its client sees the same
(`undisturbed`). Two requests with one id share a session and a last flushed
id, and the one drops what the other has sent.

Key definitions: `SameView`, `SameMove`, `Alike`, `Beside`, `Undisturbed`.
Key theorems: `streamWithHandover_same`, `Alike.own`, `Alike.other`, `undisturbed`.
-/
import Sgm.Proxy.Alerts
import Sgm.Proxy.Resumption

namespace Sgm

open StreamMultiplexer

/-! ### What a generator sees of the multiplexer -/

/-- The two multiplexers look the same to request `rid` with session `ref`. -/
structure SameView (rid : String) (ref : ℕ) (m m' : StreamMultiplexer) : Prop where
  heap : m'.heap ref = m.heap ref
  flushed : m'.deduplicator.getLastFlushed rid = m.deduplicator.getLastFlushed rid
  keepalive : m'.keepaliveInterval = m.keepaliveInterval

/-- A generator has done the same in both, and they still look the same. -/
structure SameMove (rid : String) (ref : ℕ) (r r' : StreamMultiplexer × Generator) : Prop where
  generator : r'.2 = r.2
  view : SameView rid ref r.1 r'.1

variable {now i : ℕ} {m m' : StreamMultiplexer} {g : Generator} {rid : String} {ref : ℕ}

theorem SameView.trans {m'' : StreamMultiplexer} (h : SameView rid ref m m')
    (h' : SameView rid ref m' m'') : SameView rid ref m m'' :=
  ⟨h'.heap.trans h.heap, h'.flushed.trans h.flushed, h'.keepalive.trans h.keepalive⟩

theorem SameView.symm (h : SameView rid ref m m') : SameView rid ref m' m :=
  ⟨h.heap.symm, h.flushed.symm, h.keepalive.symm⟩

theorem SameView.modifySession (h : SameView rid ref m m')
    (f : StreamSessionState → StreamSessionState) :
    SameView rid ref (m.modifySession ref f) (m'.modifySession ref f) where
  heap := by simp [StreamMultiplexer.modifySession, h.heap]
  flushed := h.flushed
  keepalive := h.keepalive

theorem SameView.cleanup (h : SameView rid ref m m') :
    SameView rid ref (m.cleanup rid) (m'.cleanup rid) where
  heap := h.heap
  flushed := by simp [StreamMultiplexer.cleanup]
  keepalive := h.keepalive

theorem SameView.deduplicator (h : SameView rid ref m m') {d d' : TokenDeduplicator}
    (hd : d'.getLastFlushed rid = d.getLastFlushed rid) :
    SameView rid ref { m with deduplicator := d } { m' with deduplicator := d' } :=
  ⟨h.heap, hd, h.keepalive⟩

section

variable (h : SameView rid ref m m') (hid : g.requestId = rid) (hs : g.session = ref)
include h hid hs

theorem raise_same {e : Exc} : SameMove rid ref (m.raise g e) (m'.raise g e) := by
  subst hid hs
  unfold StreamMultiplexer.raise
  split
  · exact ⟨rfl, h.cleanup⟩
  · exact ⟨rfl, h.cleanup⟩
  · exact ⟨rfl, (h.modifySession _).cleanup⟩

omit hid hs in
theorem endOfStream_same : SameMove rid ref (m.endOfStream g) (m'.endOfStream g) := ⟨rfl, h⟩

omit hid in
theorem bufferingLoop_same : SameMove rid ref (m.bufferingLoop now g) (m'.bufferingLoop now g) := by
  subst hs
  unfold bufferingLoop
  rw [h.heap, h.keepalive]
  split_ifs
  · exact ⟨rfl, h⟩
  · exact ⟨rfl, h.modifySession fun session => { session with handoverReady := true }⟩
  · exact ⟨rfl, h⟩
  · exact ⟨rfl, h⟩

omit hid in
theorem afterActive_same : SameMove rid ref (m.afterActive now g) (m'.afterActive now g) := by
  subst hs
  unfold afterActive
  rw [h.heap]
  split_ifs
  · exact bufferingLoop_same h rfl
  · exact endOfStream_same h

omit hid in
theorem checkCutoff_same {c : TokenChunk} :
    SameMove rid ref (m.checkCutoff now g c) (m'.checkCutoff now g c) := by
  unfold checkCutoff
  simp only [hs, h.heap]
  split_ifs
  · exact afterActive_same h hs
  · exact ⟨rfl, h⟩

end

theorem TokenDeduplicator.getLastFlushed_accept (d : TokenDeduplicator) {r : String} {c : TokenChunk}
    (hc : c.sequenceId = d.getLastFlushed r + 1) (buffers : Dict String (RingBuffer TokenChunk)) :
    (({ d with buffers := buffers } : TokenDeduplicator).recordFlushed r c.sequenceId).getLastFlushed r =
      c.sequenceId := by
  have hgt : c.sequenceId > (d.lastFlushed.get? r).getD (-1) := by
    unfold getLastFlushed at hc
    omega
  rw [recordFlushed, if_pos hgt]
  simp [getLastFlushed]

/-- Whether a chunk passes depends on the last flushed id alone. -/
theorem TokenDeduplicator.filterChunk_same {d d' : TokenDeduplicator} {r : String}
    (h : d'.getLastFlushed r = d.getLastFlushed r) (c : TokenChunk) :
    (∃ e, d.filterChunk r c = .error e ∧ d'.filterChunk r c = .error e) ∨
    ∃ o d₁ d₁', d.filterChunk r c = .ok (o, d₁) ∧ d'.filterChunk r c = .ok (o, d₁') ∧
      d₁'.getLastFlushed r = d₁.getLastFlushed r := by
  unfold filterChunk
  dsimp only
  rw [h]
  by_cases hle : c.sequenceId ≤ d.getLastFlushed r
  · rw [if_pos hle, if_pos hle]
    exact Or.inr ⟨_, _, _, rfl, rfl, h⟩
  · rw [if_neg hle, if_neg hle]
    by_cases hne : c.sequenceId = d.getLastFlushed r + 1
    · rw [if_neg (not_not.mpr hne), if_neg (not_not.mpr hne)]
      refine Or.inr ⟨_, _, _, rfl, rfl, ?_⟩
      rw [getLastFlushed_accept d hne, getLastFlushed_accept d' (hne.trans (by rw [h]))]
    · rw [if_pos hne, if_pos hne]
      exact Or.inl ⟨_, rfl, rfl⟩

theorem same_of_some {x y r : StreamMultiplexer × Generator} (hr : some x = some r)
    (h : SameMove rid ref x y) : ∃ r', some y = some r' ∧ SameMove rid ref r r' := by
  obtain rfl := Option.some.inj hr
  exact ⟨y, rfl, h⟩

/-- A resumption depends on the multiplexer by what the generator sees of it. -/
theorem streamWithHandover_same (h : SameView g.requestId g.session m m') (hp : g.point ≠ .created)
    {r : StreamMultiplexer × Generator} (hr : m.streamWithHandover now i g = some r) :
    ∃ r', m'.streamWithHandover now i g = some r' ∧ SameMove g.requestId g.session r r' := by
  unfold streamWithHandover at hr ⊢
  cases hpoint : g.point with
  | absent => simp [hpoint] at hr
  | ended o => simp [hpoint] at hr
  | created => exact absurd hpoint hp
  | pullActive =>
    simp only [hpoint] at hr ⊢
    cases hc : g.active.chunks with
    | cons c rest =>
      simp only [hc] at hr ⊢
      rcases TokenDeduplicator.filterChunk_same h.flushed c with
        ⟨e, he, he'⟩ | ⟨o, d, d', hd, hd', hf⟩
      · simp only [Generator.record, he, he'] at hr ⊢
        apply same_of_some hr
        apply raise_same h <;> rfl
      · cases o with
        | none =>
          simp only [Generator.record, hd, hd'] at hr ⊢
          apply same_of_some hr
          apply checkCutoff_same (h.deduplicator hf)
          rfl
        | some c' =>
          simp only [Generator.record, hd, hd'] at hr ⊢
          exact same_of_some hr ⟨rfl, h.deduplicator hf⟩
    | nil =>
      simp only [hc] at hr ⊢
      cases he : g.active.ending with
      | raised e =>
        simp only [Generator.record, he] at hr ⊢
        apply same_of_some hr
        apply raise_same h <;> rfl
      | done | closed =>
        simp only [Generator.record, he] at hr ⊢
        apply same_of_some hr
        apply afterActive_same h
        rfl
  | yieldedActive c =>
    simp only [hpoint] at hr ⊢
    apply same_of_some hr
    apply checkCutoff_same h
    rfl
  | yieldedKeepAlive t =>
    simp only [hpoint] at hr ⊢
    exact same_of_some hr ⟨rfl, h⟩
  | waitReady since =>
    simp only [hpoint, h.heap] at hr ⊢
    split_ifs at hr ⊢
    apply same_of_some hr
    apply bufferingLoop_same h
    rfl
  | callStandby =>
    simp only [hpoint, h.flushed] at hr ⊢
    cases hu : g.standbyFactory (m.deduplicator.getLastFlushed g.requestId) with
    | error e =>
      simp only [hu] at hr ⊢
      apply same_of_some hr
      apply raise_same h <;> rfl
    | ok u =>
      simp only [hu] at hr ⊢
      exact same_of_some hr ⟨rfl, h⟩
  | pullStandby =>
    simp only [hpoint] at hr ⊢
    cases hc : g.standby.chunks with
    | cons c rest =>
      simp only [hc] at hr ⊢
      rcases TokenDeduplicator.filterChunk_same h.flushed c with
        ⟨e, he, he'⟩ | ⟨o, d, d', hd, hd', hf⟩
      · simp only [Generator.record, he, he'] at hr ⊢
        apply same_of_some hr
        apply raise_same h <;> rfl
      · cases o with
        | none =>
          simp only [Generator.record, hd, hd'] at hr ⊢
          exact same_of_some hr ⟨rfl, h.deduplicator hf⟩
        | some c' =>
          simp only [Generator.record, hd, hd'] at hr ⊢
          exact same_of_some hr ⟨rfl, h.deduplicator hf⟩
    | nil =>
      simp only [hc] at hr ⊢
      cases he : g.standby.ending with
      | raised e =>
        simp only [Generator.record, he] at hr ⊢
        apply same_of_some hr
        apply raise_same h <;> rfl
      | done | closed =>
        simp only [Generator.record, he] at hr ⊢
        exact same_of_some hr (endOfStream_same h)
  | yieldedStandby =>
    simp only [hpoint] at hr ⊢
    exact same_of_some hr ⟨rfl, h⟩
  | yieldedDone =>
    simp only [hpoint] at hr ⊢
    exact same_of_some hr ⟨rfl, (h.modifySession _).cleanup⟩

/-! ### The keep-alive interval -/

section

variable (now : ℕ) (m : StreamMultiplexer) (g : Generator)

theorem keepalive_raise (e : Exc) : (m.raise g e).1.keepaliveInterval = m.keepaliveInterval := by
  unfold StreamMultiplexer.raise
  split <;> rfl

theorem keepalive_bufferingLoop :
    (m.bufferingLoop now g).1.keepaliveInterval = m.keepaliveInterval := by
  unfold bufferingLoop
  split_ifs <;> rfl

theorem keepalive_afterActive : (m.afterActive now g).1.keepaliveInterval = m.keepaliveInterval := by
  unfold afterActive
  split_ifs
  · exact keepalive_bufferingLoop now m _
  · rfl

theorem keepalive_checkCutoff (c : TokenChunk) :
    (m.checkCutoff now g c).1.keepaliveInterval = m.keepaliveInterval := by
  unfold checkCutoff
  dsimp only
  split_ifs
  · exact keepalive_afterActive now m g
  · rfl

end

theorem Resumed.keepalive {r : StreamMultiplexer × Generator} (h : Resumed now i m g r) :
    r.1.keepaliveInterval = m.keepaliveInterval := by
  cases h with
  | start hp =>
    show (m.getOrCreateSession g.requestId i).1.keepaliveInterval = m.keepaliveInterval
    unfold getOrCreateSession
    split <;> rfl
  | dropActive | resumeActive => exact keepalive_checkCutoff now m _ _
  | endActive => exact keepalive_afterActive now m _
  | wake => exact keepalive_bufferingLoop now m g
  | gapActive | raiseActive | failStandby | gapStandby | raiseStandby => exact keepalive_raise m _ _
  | _ => rfl

theorem keepalive_step {s t : System} {x : Label} (ht : s.step x = some t) :
    t.mux.keepaliveInterval = s.mux.keepaliveInterval := by
  cases x with
  | resume j =>
    obtain ⟨r, hr, rfl⟩ := Option.map_eq_some_iff.mp ht
    exact (Resumed.of_eq hr).keepalive
  | close j =>
    obtain ⟨r, hr, rfl⟩ := Option.map_eq_some_iff.mp ht
    unfold StreamMultiplexer.close at hr
    split at hr
    · cases hr
    · cases hr
    · obtain rfl := Option.some.inj hr
      rfl
    · obtain rfl := Option.some.inj hr
      rfl
  | call j rid a b =>
    rcases step_cases ht with ⟨k, _, _, _, -, -, rfl⟩ | ⟨k, r, hk | hk, -⟩ | ⟨_, _, _, -, rfl⟩
    · rfl
    · cases hk
    · cases hk
    · rfl
  | triggerPreemption rid c =>
    obtain rfl := Option.some.inj ht
    show (s.mux.triggerPreemption rid c).keepaliveInterval = _
    unfold StreamMultiplexer.triggerPreemption
    split <;> rfl
  | triggerHandoverReady rid =>
    obtain rfl := Option.some.inj ht
    show (s.mux.triggerHandoverReady rid).keepaliveInterval = _
    unfold StreamMultiplexer.triggerHandoverReady
    split <;> rfl
  | elapse dt =>
    obtain rfl := Option.some.inj ht
    rfl

theorem keepalive_run {s t : System} {xs : List Label} (hr : Machine.run System.step s xs = some t) :
    t.mux.keepaliveInterval = s.mux.keepaliveInterval :=
  Machine.run_inv (I := fun u => u.mux.keepaliveInterval = s.mux.keepaliveInterval)
    (fun _ _ _ hu ht => (keepalive_step ht).trans hu) rfl hr

/-! ### The moves of others -/

/-- What generator `i` sees stays as it is. -/
structure Unseen (i : ℕ) (s t : System) : Prop where
  generator : t.generators i = s.generators i
  clock : t.clock = s.clock
  view : (s.generators i).Live → SameView (s.generators i).requestId i s.mux t.mux

theorem Unseen.refl (i : ℕ) (s : System) : Unseen i s s := ⟨rfl, rfl, fun _ => ⟨rfl, rfl, rfl⟩⟩

theorem Unseen.trans {s t u : System} (h : Unseen i s t) (h' : Unseen i t u) : Unseen i s u := by
  refine ⟨h'.generator.trans h.generator, h'.clock.trans h.clock, fun hl => ?_⟩
  have hview := h'.view
  rw [h.generator] at hview
  exact (h.view hl).trans (hview hl)

theorem unseen_of_turn {s : System} {j : ℕ} {r : StreamMultiplexer × Generator} (ho : Owned i s)
    (hji : j ≠ i) (hr : Turn j s.mux (s.generators j) r) (ha : Apart i (s.put j r))
    (hk : r.1.keepaliveInterval = s.mux.keepaliveInterval) : Unseen i s (s.put j r) where
  generator := s.put_of_ne (Ne.symm hji) r
  clock := rfl
  view hl := ⟨heap_of_turn ho hji hr hl, (elsewhere_of_turn ho hji hr ha).flushed hl, hk⟩

theorem unseen_step {s t : System} {x : Label} (ho : Owned i s) (hx : ¬ x.About i)
    (ht : s.step x = some t) (ha : Apart i t) : Unseen i s t := by
  have hk := keepalive_step ht
  cases x with
  | call j rid a b =>
    simp only [System.step] at ht
    split at ht
    · obtain rfl := Option.some.inj ht
      exact ⟨s.put_of_ne (Ne.symm hx) _, rfl, fun _ => ⟨rfl, rfl, rfl⟩⟩
    · cases ht
  | resume j =>
    obtain ⟨r, hr, rfl⟩ := Option.map_eq_some_iff.mp ht
    exact unseen_of_turn ho hx (turn_of_resume hr) ha hk
  | close j =>
    obtain ⟨r, hr, rfl⟩ := Option.map_eq_some_iff.mp ht
    exact unseen_of_turn ho hx (turn_of_close hr) ha hk
  | _ => exact absurd trivial hx

/-- The moves of other generators are not seen. -/
theorem unseen_run {s t : System} {xs : List Label} (ho : Owned i s) (hx : ∀ x ∈ xs, ¬ x.About i)
    (ha : Machine.Along System.step (fun _ _ t => Apart i t) s xs)
    (hr : Machine.run System.step s xs = some t) : Unseen i s t := by
  have hlabels : Machine.Along System.step (fun _ x _ => ¬ x.About i) s xs := Machine.Along.of_labels hx
  exact (Machine.run_inv_along (I := fun u => Owned i u ∧ Unseen i s u)
    (fun u x v hu hv hq => ⟨(owned_step hu.1 hv hq.1).1, hu.2.trans (unseen_step hu.1 hq.2 hv hq.1)⟩)
    ⟨ho, .refl i s⟩ (ha.and hlabels) hr).2

/-! ### The generator's own moves -/

theorem resume_same {s s' t : System} (hg : s'.generators i = s.generators i)
    (hc : s'.clock = s.clock) (hl : (s.generators i).Live)
    (hv : SameView (s.generators i).requestId (s.generators i).session s.mux s'.mux)
    (ht : s.step (.resume i) = some t) : ∃ t', s'.step (.resume i) = some t' ∧
      t'.generators i = t.generators i ∧ t'.clock = t.clock ∧
      SameView (s.generators i).requestId (s.generators i).session t.mux t'.mux := by
  obtain ⟨r, hr, rfl⟩ := Option.map_eq_some_iff.mp ht
  obtain ⟨r', hr', hm⟩ := streamWithHandover_same hv (fun hp => hl.started.2 hp) hr
  refine ⟨s'.put i r', ?_, ?_, hc, hm.view⟩
  · simp only [System.step, hg, hc, hr', Option.map_some]
  · rw [System.put_self, System.put_self, hm.generator]

theorem close_same {s s' t : System} (hg : s'.generators i = s.generators i)
    (hc : s'.clock = s.clock) (ht : s.step (.close i) = some t) :
    ∃ t', s'.step (.close i) = some t' ∧ t'.generators i = t.generators i ∧ t'.clock = t.clock := by
  obtain ⟨r, hr, rfl⟩ := Option.map_eq_some_iff.mp ht
  obtain ⟨r', hr', heq⟩ : ∃ r', s'.mux.close (s.generators i) = some r' ∧ r'.2 = r.2 := by
    unfold StreamMultiplexer.close at hr ⊢
    split at hr
    · cases hr
    · cases hr
    · obtain rfl := Option.some.inj hr
      exact ⟨_, rfl, rfl⟩
    · obtain rfl := Option.some.inj hr
      exact ⟨_, rfl, rfl⟩
  refine ⟨s'.put i r', ?_, ?_, hc⟩
  · simp only [System.step, hg, hr', Option.map_some]
  · rw [System.put_self, System.put_self, heq]

/-! ### Signals -/

/-- The session at `i` is that of request `rid` alone. -/
def Sees (m : StreamMultiplexer) (rid : String) (i : ℕ) : Prop :=
  ∀ r, m.activeSessions.get? r = some i ↔ r = rid

theorem sees_of_owned {s : System} (ho : Owned i s) (hl : (s.generators i).Live) :
    Sees s.mux (s.generators i).requestId i := by
  intro r
  obtain ⟨hsession, hself⟩ := ho.session hl
  refine ⟨fun hr => ?_, fun he => by rw [he, hself]⟩
  have hrefs := (ho.tables.refs i hl).2
  rw [hsession, (ho.tables.sessions r i hr).2.1] at hrefs
  exact hrefs

/-- What an alert tells a session. -/
def preempted (c : ℤ) (session : StreamSessionState) : StreamSessionState :=
  { session with cutoffSequenceId := c, preemptionSignaled := true }

theorem SameView.refl (rid : String) (ref : ℕ) (m : StreamMultiplexer) : SameView rid ref m m :=
  ⟨rfl, rfl, rfl⟩

theorem sameView_modifySession_ne (h : ref ≠ i) (f : StreamSessionState → StreamSessionState) :
    SameView rid i m (m.modifySession ref f) :=
  ⟨by simp [modifySession, Function.update_of_ne (Ne.symm h)], rfl, rfl⟩

theorem triggerPreemption_self (hm : Sees m rid i) (c : ℤ) :
    m.triggerPreemption rid c = m.modifySession i (preempted c) := by
  unfold triggerPreemption
  rw [(hm rid).mpr rfl]
  rfl

theorem triggerPreemption_ne (hm : Sees m rid i) {k : String} (hk : k ≠ rid) (c : ℤ) :
    SameView rid i m (m.triggerPreemption k c) := by
  unfold triggerPreemption
  split
  · rename_i ref hr
    apply sameView_modifySession_ne
    rintro rfl
    exact hk ((hm k).mp hr)
  · exact .refl ..

theorem sees_triggerPreemption (hm : Sees m rid i) (k : String) (c : ℤ) :
    Sees (m.triggerPreemption k c) rid i := by
  unfold triggerPreemption
  split <;> exact hm

/-- The session hears of an alert once or more often: it is all the same. -/
theorem triggers_view {c : ℤ} (ks : List String) (hm : Sees m rid i) :
    SameView rid i (if rid ∈ ks then m.modifySession i (preempted c) else m)
      (ks.foldl (fun m k => m.triggerPreemption k c) m) := by
  induction ks generalizing m with
  | nil => exact .refl ..
  | cons k ks ih =>
    have hrest := ih (sees_triggerPreemption hm k c)
    rw [List.foldl_cons]
    by_cases hk : k = rid
    · subst hk
      rw [if_pos List.mem_cons_self]
      refine SameView.trans ?_ hrest
      rw [triggerPreemption_self hm]
      split_ifs
      · exact ⟨by simp [modifySession, preempted], rfl, rfl⟩
      · exact .refl ..
    · have hview := triggerPreemption_ne hm hk c
      refine SameView.trans ?_ hrest
      by_cases hin : rid ∈ ks
      · rw [if_pos hin, if_pos (List.mem_cons_of_mem k hin)]
        exact hview.modifySession _
      · have hnot : rid ∉ k :: ks := by simp [hin, Ne.symm hk]
        rw [if_neg hin, if_neg hnot]
        exact hview

theorem triggers_same {c : ℤ} {ks ks' : List String} (h : SameView rid i m m') (hm : Sees m rid i)
    (hm' : Sees m' rid i) (hk : rid ∈ ks) (hk' : rid ∈ ks') :
    SameView rid i (ks.foldl (fun m k => m.triggerPreemption k c) m)
      (ks'.foldl (fun m k => m.triggerPreemption k c) m') := by
  have hview := triggers_view (c := c) ks hm
  have hview' := triggers_view (c := c) ks' hm'
  rw [if_pos hk] at hview
  rw [if_pos hk'] at hview'
  exact (hview.symm.trans (h.modifySession _)).trans hview'

theorem triggerHandoverReady_same (h : SameView rid i m m') (hm : Sees m rid i) (hm' : Sees m' rid i)
    (k : String) : SameView rid i (m.triggerHandoverReady k) (m'.triggerHandoverReady k) := by
  by_cases hk : k = rid
  · subst hk
    unfold triggerHandoverReady
    rw [(hm k).mpr rfl, (hm' k).mpr rfl]
    exact h.modifySession _
  · have hother : ∀ {n : StreamMultiplexer}, Sees n rid i → SameView rid i n (n.triggerHandoverReady k) := by
      intro n hn
      unfold triggerHandoverReady
      split
      · rename_i ref hr
        apply sameView_modifySession_ne
        rintro rfl
        exact hk ((hn k).mp hr)
      · exact .refl ..
    exact ((hother hm).symm.trans h).trans (hother hm')

theorem run_triggers (c : ℤ) (ks : List String) : ∀ s : System,
    Machine.run System.step s (ks.map (.triggerPreemption · c)) =
      some { s with mux := ks.foldl (fun m k => m.triggerPreemption k c) s.mux } := by
  induction ks with
  | nil => exact fun _ => rfl
  | cons k ks ih => exact fun s => ih { s with mux := s.mux.triggerPreemption k c }

namespace IngressProxy

variable {env : Env} {h : ℕ} {p p' q : IngressProxy} {l : ProxyLabel}

/-! ### Two proxies that look the same to a handler -/

/-- The two proxies look the same to handler `h`. -/
structure Alike (h : ℕ) (p q : IngressProxy) : Prop where
  active : q.activeUpstreamUrl = p.activeUpstreamUrl
  standby : q.standbyUpstreamUrl = p.standbyUpstreamUrl
  flag : q.isPreemptionActive = p.isPreemptionActive
  handler : q.handlers h = p.handlers h
  generator : q.system.generators h = p.system.generators h
  clock : q.system.clock = p.system.clock
  keepalive : q.system.mux.keepaliveInterval = p.system.mux.keepaliveInterval
  view : (p.handlers h).point = .relaying →
    SameView (p.handlers h).requestId h p.system.mux q.system.mux

theorem Alike.refl (h : ℕ) (p : IngressProxy) : Alike h p p :=
  ⟨rfl, rfl, rfl, rfl, rfl, rfl, rfl, fun _ => .refl ..⟩

theorem Alike.routeUrl (ha : Alike h p q) : q.routeUrl = p.routeUrl := by
  unfold IngressProxy.routeUrl
  rw [ha.flag, ha.active, ha.standby]

theorem Alike.writing (ha : Alike h p q) : q.writing h = p.writing h := by
  unfold IngressProxy.writing
  rw [ha.generator]

theorem Alike.ended (ha : Alike h p q) : q.ended h = p.ended h := by
  unfold IngressProxy.ended
  rw [ha.generator]

/-- A handler that does not relay afterwards sees nothing of the multiplexer. -/
theorem Alike.goto (ha : Alike h p q) {x : HandlerPoint} (hx : x ≠ .relaying) :
    Alike h (p.goto h x) (q.goto h x) where
  active := ha.active
  standby := ha.standby
  flag := ha.flag
  handler := by rw [goto_handlers_self, goto_handlers_self, ha.handler]
  generator := ha.generator
  clock := ha.clock
  keepalive := ha.keepalive
  view hr := by
    rw [goto_handlers_self] at hr
    exact absurd hr hx

theorem Alike.left (ha : Alike h p q) {s t : System} (hg : t.generators h = s.generators h)
    (hc : t.clock = s.clock) (hk : t.mux.keepaliveInterval = s.mux.keepaliveInterval) :
    Alike h (({ p with system := s } : IngressProxy).leave h)
      (({ q with system := t } : IngressProxy).leave h) where
  active := ha.active
  standby := ha.standby
  flag := ha.flag
  handler := by rw [leave_handlers_self, leave_handlers_self, ha.handler]
  generator := hg
  clock := hc
  keepalive := hk
  view hr := by
    rw [leave_handlers_self] at hr
    cases hr

theorem Alike.leave (ha : Alike h p q) : Alike h (p.leave h) (q.leave h) :=
  ha.left ha.generator ha.clock ha.keepalive

theorem Alike.accept (ha : Alike h p q) (body : List (List Char × Json)) :
    Alike h (p.accept env h body) (q.accept env h body) where
  active := ha.active
  standby := ha.standby
  flag := ha.flag
  handler := by rw [accept_handlers_self, accept_handlers_self, ha.routeUrl]
  generator := ha.generator
  clock := ha.clock
  keepalive := ha.keepalive
  view hr := by
    rcases accept_point env p h body with hp | hp
    · rw [hp] at hr
      cases hr
    · rw [hp] at hr
      cases hr

theorem Alike.system (ha : Alike h p q) {s t : System} (hg : t.generators h = s.generators h)
    (hc : t.clock = s.clock) (hk : t.mux.keepaliveInterval = s.mux.keepaliveInterval)
    (hv : (p.handlers h).point = .relaying → SameView (p.handlers h).requestId h s.mux t.mux) :
    Alike h { p with system := s } { q with system := t } :=
  ⟨ha.active, ha.standby, ha.flag, ha.handler, hg, hc, hk, hv⟩

theorem Alike.preempt (ha : Alike h p q) :
    Alike h { p with isPreemptionActive := true } { q with isPreemptionActive := true } :=
  ⟨ha.active, ha.standby, rfl, ha.handler, ha.generator, ha.clock, ha.keepalive, ha.view⟩

theorem drive_eq {ls : List Label} {s : System} (hs : Machine.run System.step p.system ls = some s) :
    p.drive ls = some { p with system := s } := drive_eq_some.mpr ⟨s, hs, rfl⟩

theorem keepalive_same (ha : Alike h p q) {ls ls' : List Label} {s t : System}
    (hs : Machine.run System.step p.system ls = some s)
    (ht : Machine.run System.step q.system ls' = some t) :
    t.mux.keepaliveInterval = s.mux.keepaliveInterval := by
  rw [keepalive_run ht, keepalive_run hs, ha.keepalive]

/-! ### The moves of other handlers -/

theorem exists_about (hl : ¬ About h l) : ∃ k, h ≠ k ∧ About k l := by
  cases l with
  | preemptionAlert | handoverReady | elapse => exact absurd trivial hl
  | _ => exact ⟨_, Ne.symm hl, rfl⟩

theorem moves_other (hl : ¬ About h l) : ∀ x ∈ p.moves env l, ¬ x.About h := by
  intro x hx
  cases l with
  | preemptionAlert | handoverReady | elapse => exact absurd trivial hl
  | prepared k =>
    simp only [moves, List.mem_cons, List.not_mem_nil, or_false] at hx
    rcases hx with rfl | rfl <;> exact hl
  | resume k | finalize k =>
    obtain rfl := List.mem_singleton.mp hx
    exact hl
  | cancel k =>
    simp only [moves] at hx
    split_ifs at hx
    · obtain rfl := List.mem_singleton.mp hx
      exact hl
    · simp at hx
  | _ => simp [moves] at hx

/-- A move of another handler is not seen. -/
theorem Alike.other (ha : Alike h p q) (hp : Kept h p) (hl : ¬ About h l) (hq : Stepped env p l p')
    (hs : Sole h p') : Alike h p' q := by
  obtain ⟨k, hk, hlk⟩ := exists_about hl
  obtain ⟨hh, hg⟩ := hq.other hlk hk
  have hunseen := unseen_run hp.owned (moves_other hl) (hq.along_apart hp.linked hp.sole hs) hq.run
  constructor
  · rw [hq.urls.1, ha.active]
  · rw [hq.urls.2, ha.standby]
  · rcases hq.flag with hf | ⟨⟨data, rfl⟩, -⟩
    · rw [hf, ha.flag]
    · exact absurd trivial hl
  · rw [hh, ha.handler]
  · rw [hg, ha.generator]
  · rw [hunseen.clock, ha.clock]
  · rw [keepalive_run hq.run, ha.keepalive]
  · rw [hh]
    intro hr
    obtain ⟨hlive, hrid⟩ := hp.linked.relaying hr
    have hview := hunseen.view hlive
    rw [hrid] at hview
    exact hview.symm.trans (ha.view hr)

/-! ### The handler's own moves -/

theorem Alike.relay (ha : Alike h p q) (hp : Kept h p) (hr : (p.handlers h).point = .relaying)
    (hstep : p.relay h = some p') : ∃ q', q.relay h = some q' ∧ Alike h p' q' := by
  obtain ⟨r, hdrive, rfl⟩ := Option.map_eq_some_iff.mp hstep
  obtain ⟨s, hs, rfl⟩ := drive_eq_some.mp hdrive
  obtain ⟨hlive, hrid⟩ := hp.linked.relaying hr
  have hsession := (hp.owned.session hlive).1
  obtain ⟨t, ht, hg, hc, hv⟩ := resume_same ha.generator ha.clock hlive
    (by rw [hsession, hrid]; exact ha.view hr) (run_singleton.mp hs)
  rw [hsession, hrid] at hv
  have hrun := run_singleton.mpr ht
  have hsys := ha.system hg hc (keepalive_same ha hs hrun) fun _ => hv
  refine ⟨_, by rw [IngressProxy.relay, drive_eq hrun]; rfl, ?_⟩
  dsimp only
  rw [hsys.ended]
  split_ifs
  · exact hsys.leave
  · exact hsys

theorem Alike.cancelled (ha : Alike h p q) (hstep : p.cancelled h = some p') :
    ∃ q', q.cancelled h = some q' ∧ Alike h p' q' := by
  unfold IngressProxy.cancelled at hstep ⊢
  rw [ha.handler, ha.writing]
  split at hstep
  · cases hstep
  · cases hstep
  · obtain rfl := Option.some.inj hstep
    exact ⟨_, rfl, ha.goto (by simp)⟩
  · obtain rfl := Option.some.inj hstep
    exact ⟨_, rfl, ha.goto (by simp)⟩
  · obtain rfl := Option.some.inj hstep
    exact ⟨_, rfl, ha.goto (by simp)⟩
  · split_ifs at hstep ⊢
    · obtain rfl := Option.some.inj hstep
      exact ⟨_, rfl, ha.leave⟩
    · obtain ⟨r, hdrive, rfl⟩ := Option.map_eq_some_iff.mp hstep
      obtain ⟨s, hs, rfl⟩ := drive_eq_some.mp hdrive
      obtain ⟨t, ht, hg, hc⟩ := close_same ha.generator ha.clock (run_singleton.mp hs)
      have hrun := run_singleton.mpr ht
      exact ⟨_, by rw [drive_eq hrun]; rfl, ha.left hg hc (keepalive_same ha hs hrun)⟩

theorem Alike.closed (ha : Alike h p q) (hr : (p.handlers h).point = .returned)
    (hstep : p.drive [.close h] = some p') : ∃ q', q.drive [.close h] = some q' ∧ Alike h p' q' := by
  obtain ⟨s, hs, rfl⟩ := drive_eq_some.mp hstep
  obtain ⟨t, ht, hg, hc⟩ := close_same ha.generator ha.clock (run_singleton.mp hs)
  have hrun := run_singleton.mpr ht
  refine ⟨_, drive_eq hrun, ha.system hg hc (keepalive_same ha hs hrun) fun hr' => ?_⟩
  rw [hr] at hr'
  cases hr'

theorem Alike.acceptBody (ha : Alike h p q) {data : Option Json}
    (hstep : p.acceptBody env h data = some p') :
    ∃ q', q.acceptBody env h data = some q' ∧ Alike h p' q' := by
  unfold IngressProxy.acceptBody at hstep ⊢
  split at hstep
  · obtain rfl := Option.some.inj hstep
    exact ⟨_, rfl, ha.goto (by simp)⟩
  · split_ifs at hstep with hid
    obtain rfl := Option.some.inj hstep
    exact ⟨_, if_pos hid, ha.accept _⟩
  · obtain rfl := Option.some.inj hstep
    exact ⟨_, rfl, ha.goto (by simp)⟩

/-- A request about to start is in no table of the multiplexer. -/
theorem Kept.fresh (hp : Kept h p) (hr : (p.handlers h).point = .preparing) :
    p.system.mux.deduplicator.lastFlushed.get? (p.handlers h).requestId = none ∧
      p.system.mux.activeSessions.get? (p.handlers h).requestId = none := by
  have hno : ∀ j, (p.system.generators j).Live →
      (p.system.generators j).requestId ≠ (p.handlers h).requestId := by
    intro j hj
    have hjh : j ≠ h := by
      rintro rfl
      exact hj.started.1 (hp.linked.absent (by simp [hr]) (by simp [hr]))
    rw [hp.linked.requestId hj]
    exact hp.sole (Or.inl hr) j hjh (Or.inr hj)
  constructor
  · by_contra hf
    obtain ⟨j, hj, hrid⟩ := hp.owned.tables.flushed _ hf
    exact hno j hj hrid
  · by_contra hf
    obtain ⟨k, hk⟩ := Option.ne_none_iff_exists'.mp hf
    obtain ⟨j, hj, hrid⟩ := (hp.owned.tables.sessions _ k hk).2.2
    exact hno j hj hrid

/-- The multiplexer with the generator of handler `h`, resumed once, and its new
session. -/
def started (env : Env) (p : IngressProxy) (h : ℕ) : System :=
  (p.system.put h (p.system.mux, p.called env h)).put h
    ({ p.system.mux with
        activeSessions := p.system.mux.activeSessions.set (p.handlers h).requestId h
        heap := Function.update p.system.mux.heap h { requestId := (p.handlers h).requestId } },
      { (p.called env h).record .connected with
        session := h, lastActivityTime := p.system.clock, point := .pullActive })

theorem startRelay_eq (hp : Kept h p) (hr : (p.handlers h).point = .preparing) :
    p.startRelay env h = some (({ p with system := p.started env h } : IngressProxy).put h
      { p.handlers h with point := .relaying, initialUrl := p.routeUrl }) := by
  have habs := hp.linked.absent (h := h) (by simp [hr]) (by simp [hr])
  have hcall : p.system.step (.call h (p.called env h).requestId (p.called env h).active
      (p.called env h).standbyFactory) = some (p.system.put h (p.system.mux, p.called env h)) := by
    simp only [System.step, habs]
    rfl
  have hresume : (p.system.put h (p.system.mux, p.called env h)).step (.resume h) =
      some (p.started env h) := by
    simp only [System.step, System.put_self]
    simp only [streamWithHandover, called, getOrCreateSession, System.put_mux, (hp.fresh hr).2]
    rfl
  have hrun := Machine.run_cons_eq_some.mpr ⟨_, hcall, run_singleton.mpr hresume⟩
  exact congrArg (Option.map fun r : IngressProxy =>
    r.put h { p.handlers h with point := .relaying, initialUrl := p.routeUrl }) (drive_eq hrun)

theorem Alike.startRelay (ha : Alike h p q) (hp : Kept h p) (hq : Kept h q)
    (hr : (p.handlers h).point = .preparing) (hstep : p.startRelay env h = some p') :
    ∃ q', q.startRelay env h = some q' ∧ Alike h p' q' := by
  have hr' : (q.handlers h).point = .preparing := by rw [ha.handler, hr]
  rw [startRelay_eq hp hr] at hstep
  obtain rfl := Option.some.inj hstep
  have hcalled : q.called env h = p.called env h := by
    unfold called
    rw [ha.handler, ha.routeUrl, ha.standby]
  refine ⟨_, startRelay_eq hq hr', ?_⟩
  constructor
  · exact ha.active
  · exact ha.standby
  · exact ha.flag
  · rw [put_handlers_self, put_handlers_self, ha.handler, ha.routeUrl]
  · show (q.started env h).generators h = (p.started env h).generators h
    unfold started
    rw [System.put_self, System.put_self, hcalled, ha.clock]
  · exact ha.clock
  · exact ha.keepalive
  · rw [put_handlers_self]
    intro _
    refine ⟨?_, ?_, ha.keepalive⟩
    · show Function.update q.system.mux.heap h _ h = Function.update p.system.mux.heap h _ h
      rw [Function.update_self, Function.update_self, ha.handler]
    · show q.system.mux.deduplicator.getLastFlushed _ = p.system.mux.deduplicator.getLastFlushed _
      have hfresh := (hq.fresh hr').1
      rw [ha.handler] at hfresh
      simp only [TokenDeduplicator.getLastFlushed, hfresh, (hp.fresh hr).1]

/-! ### Signals and the clock -/

/-- Handler `h` relays: what its generator sees is the session at `h`. -/
theorem Kept.sees (hp : Kept h p) (hr : (p.handlers h).point = .relaying) :
    Sees p.system.mux (p.handlers h).requestId h := by
  obtain ⟨hlive, hrid⟩ := hp.linked.relaying hr
  rw [← hrid]
  exact sees_of_owned hp.owned hlive

theorem Kept.mem_keys (hp : Kept h p) (hr : (p.handlers h).point = .relaying) :
    (p.handlers h).requestId ∈ p.inFlightRequests.keys := by
  rw [Dict.mem_keys, Option.isSome_iff_ne_none]
  exact hp.inFlight (Or.inr hr)

theorem Alike.alert (ha : Alike h p q) (hp : Kept h p) (hq : Kept h q) {data : Json}
    (hstep : p.handlePreemptionAlert data = some p') :
    ∃ q', q.handlePreemptionAlert data = some q' ∧ Alike h p' q' := by
  unfold handlePreemptionAlert at hstep ⊢
  cases hc : cutoffOf data with
  | none =>
    simp only [hc] at hstep ⊢
    obtain rfl := Option.some.inj hstep
    exact ⟨_, rfl, ha.preempt⟩
  | some c =>
    simp only [hc] at hstep ⊢
    have hrun := run_triggers c p.inFlightRequests.keys p.system
    have hrun' := run_triggers c q.inFlightRequests.keys q.system
    rw [drive_eq (p := { p with isPreemptionActive := true }) hrun] at hstep
    obtain rfl := Option.some.inj hstep
    refine ⟨_, drive_eq (p := { q with isPreemptionActive := true }) hrun', ?_⟩
    refine ha.preempt.system ha.generator ha.clock (keepalive_same ha hrun hrun') fun hr => ?_
    -- the request is in both tables
    have hr' : (q.handlers h).point = .relaying := by rwa [ha.handler]
    have hsees := hq.sees hr'
    have hkey := hq.mem_keys hr'
    rw [ha.handler] at hsees hkey
    exact triggers_same (ha.view hr) (hp.sees hr) hsees (hp.mem_keys hr) hkey

theorem Alike.ready (ha : Alike h p q) (hp : Kept h p) (hq : Kept h q) {data : Json}
    (hstep : p.handleHandoverReady data = some p') :
    ∃ q', q.handleHandoverReady data = some q' ∧ Alike h p' q' := by
  unfold handleHandoverReady at hstep ⊢
  cases hd : readyRequest data with
  | none =>
    simp only [hd] at hstep ⊢
    obtain rfl := Option.some.inj hstep
    exact ⟨_, rfl, ha⟩
  | some k =>
    simp only [hd] at hstep ⊢
    have hrun : ∀ s : System, Machine.run System.step s [.triggerHandoverReady k] =
        some { s with mux := s.mux.triggerHandoverReady k } := fun _ => rfl
    rw [drive_eq (hrun _)] at hstep
    obtain rfl := Option.some.inj hstep
    refine ⟨_, drive_eq (hrun _), ha.system ha.generator ha.clock (keepalive_same ha (hrun _) (hrun _)) ?_⟩
    intro hr
    have hsees := hq.sees (by rwa [ha.handler])
    rw [ha.handler] at hsees
    exact triggerHandoverReady_same (ha.view hr) (hp.sees hr) hsees k

theorem Alike.elapse (ha : Alike h p q) {dt : ℕ} (hstep : p.drive [.elapse dt] = some p') :
    ∃ q', q.drive [.elapse dt] = some q' ∧ Alike h p' q' := by
  have hrun : ∀ s : System, Machine.run System.step s [.elapse dt] =
      some { s with clock := s.clock + dt } := fun _ => rfl
  rw [drive_eq (hrun _)] at hstep
  obtain rfl := Option.some.inj hstep
  refine ⟨_, drive_eq (hrun _), ha.system ha.generator ?_ ha.keepalive ha.view⟩
  exact congrArg (· + dt) ha.clock

/-- A move about handler `h`, or about all, can be made by both. -/
theorem Alike.own (ha : Alike h p q) (hp : Kept h p) (hq : Kept h q) (hl : About h l)
    (hstep : IngressProxy.step env p l = some p') :
    ∃ q', IngressProxy.step env q l = some q' ∧ Alike h p' q' := by
  cases l with
  | preemptionAlert data => exact ha.alert hp hq hstep
  | handoverReady data => exact ha.ready hp hq hstep
  | elapse dt => exact ha.elapse hstep
  | cancel j =>
    obtain rfl : j = h := hl
    exact ha.cancelled hstep
  | request j | prepareFails j | forwarded j =>
    obtain rfl : j = h := hl
    simp only [IngressProxy.step, ha.handler] at hstep ⊢
    split_ifs at hstep ⊢
    obtain rfl := Option.some.inj hstep
    exact ⟨_, rfl, ha.goto (by simp)⟩
  | body j data =>
    obtain rfl : j = h := hl
    simp only [IngressProxy.step, ha.handler] at hstep ⊢
    split_ifs at hstep ⊢
    exact ha.acceptBody hstep
  | prepared j =>
    obtain rfl : j = h := hl
    simp only [IngressProxy.step, ha.handler] at hstep ⊢
    split_ifs at hstep ⊢ with hr
    exact ha.startRelay hp hq hr hstep
  | resume j =>
    obtain rfl : j = h := hl
    simp only [IngressProxy.step, ha.handler] at hstep ⊢
    split_ifs at hstep ⊢ with hr
    exact ha.relay hp hr hstep
  | writeFails j =>
    obtain rfl : j = h := hl
    simp only [IngressProxy.step, ha.handler, ha.writing] at hstep ⊢
    split_ifs at hstep ⊢
    obtain rfl := Option.some.inj hstep
    exact ⟨_, rfl, ha.leave⟩
  | finalize j =>
    obtain rfl : j = h := hl
    simp only [IngressProxy.step, ha.handler] at hstep ⊢
    split_ifs at hstep ⊢ with hr
    exact ha.closed hr hstep

/-! ### Noninterference -/

/-- Handler `h` gets the same in the run without the other requests: its
client the same items, and the same end. -/
def Undisturbed (env : Env) (a b : String) (ls : List ProxyLabel) (h : ℕ) : Prop :=
  ∀ p, Machine.run (IngressProxy.step env) (new a b) ls = some p →
    ∃ q, Machine.run (IngressProxy.step env) (new a b) (ls.filter (About h ·)) = some q ∧
      (q.system.generators h).items = (p.system.generators h).items ∧ q.handlers h = p.handlers h

/-- A proxy with other requests, and the same without them. -/
structure Beside (h : ℕ) (p q : IngressProxy) : Prop where
  alike : Alike h p q
  kept : Kept h p
  kept' : Kept h q
  alone : Alone h q

theorem beside_new (a b : String) : Beside h (new a b) (new a b) where
  alike := .refl h _
  kept := kept_new a b
  kept' := kept_new a b
  alone _ _ := ⟨rfl, rfl⟩

theorem Beside.own (hb : Beside h p q) (hstep : IngressProxy.step env p l = some p')
    (hs : Sole h p') (hl : About h l) :
    ∃ q', IngressProxy.step env q l = some q' ∧ Beside h p' q' := by
  obtain ⟨q', hq', ha⟩ := hb.alike.own hb.kept hb.kept' hl hstep
  have halone := alone_step (.of_step hq') hl hb.alone
  exact ⟨q', hq', ha, hb.kept.step (.of_step hstep) hs,
    hb.kept'.step (.of_step hq') (sole_of_alone halone), halone⟩

theorem Beside.other (hb : Beside h p q) (hstep : IngressProxy.step env p l = some p')
    (hs : Sole h p') (hl : ¬ About h l) : Beside h p' q :=
  ⟨hb.alike.other hb.kept hl (.of_step hstep) hs, hb.kept.step (.of_step hstep) hs, hb.kept', hb.alone⟩

/-- **Streams do not interfere**, as long as the id of a request is not
concurrently in use. -/
theorem undisturbed (env : Env) (a b : String) (ls : List ProxyLabel) (h : ℕ)
    (hs : Machine.Along (IngressProxy.step env) (fun _ _ q => Sole h q) (new a b) ls) :
    Undisturbed env a b ls h := by
  intro p hr
  have hunwind : ∃ q, Machine.run (IngressProxy.step env) (new a b) (ls.filter (About h ·)) = some q ∧
      Beside h p q :=
    Machine.unwind (fun _ _ _ _ hb hstep hs hl => hb.own hstep hs hl)
      (fun _ _ _ _ hb hstep hs hl => hb.other hstep hs hl) (beside_new a b) hs hr
  obtain ⟨q, hq, hb⟩ := hunwind
  refine ⟨q, hq, ?_, hb.alike.handler⟩
  rw [hb.alike.generator]

/-- Two streams of these ids, each after its first chunk. -/
def twoStreams (id₀ id₁ : List Char) : List ProxyLabel :=
  [.request 0, .request 1, .body 0 (some (.obj [("request_id".toList, .text id₀)])),
    .body 1 (some (.obj [("request_id".toList, .text id₁)])), .prepared 0, .prepared 1, .resume 0,
    .resume 1]

theorem distinctIds_twoStreams : DistinctIds plainEnv (twoStreams ['r'] ['s']) 1 := by
  intro j body body' hj hb hb'
  simp only [twoStreams, List.mem_cons, List.not_mem_nil, or_false, false_or, reduceCtorEq,
    ProxyLabel.body.injEq, Option.some.injEq, Json.obj.injEq] at hb hb'
  obtain ⟨rfl, rfl⟩ := hb.resolve_right fun hb => hj hb.1
  obtain ⟨-, rfl⟩ := hb'.resolve_left fun hb' => by simp at hb'
  decide +kernel

theorem undisturbed_twoStreams : ∃ p, Machine.run (IngressProxy.step plainEnv)
    (new "http://a" "http://b") (twoStreams ['r'] ['s']) = some p ∧
      Undisturbed plainEnv "http://a" "http://b" (twoStreams ['r'] ['s']) 1 := by
  have hsome : (Machine.run (IngressProxy.step plainEnv) (new "http://a" "http://b")
      (twoStreams ['r'] ['s'])).isSome := by decide +kernel
  obtain ⟨p, hp⟩ := Option.isSome_iff_exists.mp hsome
  exact ⟨p, hp, undisturbed _ _ _ _ 1 (along_sole_of_distinct distinctIds_twoStreams)⟩

/-- Of two streams with one id the second does not get its first chunk. -/
theorem not_undisturbed_twoStreams :
    ¬ Undisturbed plainEnv "http://a" "http://b" (twoStreams ['r'] ['r']) 1 := by
  have hboth : (Machine.run (IngressProxy.step plainEnv) (new "http://a" "http://b")
      (twoStreams ['r'] ['r'])).map (fun p => (p.system.generators 1).items.length) = some 0 := by
    decide +kernel
  have halone : (Machine.run (IngressProxy.step plainEnv) (new "http://a" "http://b")
      ((twoStreams ['r'] ['r']).filter (About 1 ·))).map
        (fun p => (p.system.generators 1).items.length) = some 1 := by
    decide +kernel
  intro h
  obtain ⟨p, hp, hlen⟩ := Option.map_eq_some_iff.mp hboth
  obtain ⟨q, hq, hsame, -⟩ := h p hp
  rw [hq, Option.map_some, hsame, hlen] at halone
  cases halone

end IngressProxy
end Sgm
