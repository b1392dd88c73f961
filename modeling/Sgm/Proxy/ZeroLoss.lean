/-
# Zero-loss completeness of the swap

The upstreams carry slices of one token list, numbered by position: the active
one a prefix of it, the standby all of it from some position at or below the
number of tokens delivered so far. If that is so whenever the standby may be
called, the two are a `Smooth` pair, and what a generator delivers that is told
of the preemption in time is the whole list, wherever the swap took place. The
factory is called once at most, so the run is the same with another factory that
agrees where it is called; only there it has to be a good one.

Key definitions: `Carries`, `Resumes`, `System.Supplied`.
Key theorems: `smooth_of_carries`, `route_tokens`, `run_withFactory`,
`streamWithHandover_zero_loss`.
-/
import Sgm.Proxy.Swap

namespace Sgm

open InOrder Event StreamMultiplexer

/-- The chunks are the tokens `a`, ..., `b - 1` of `T`, numbered by position. -/
def Carries (T : List PyStr) (a b : ℕ) (cs : List TokenChunk) : Prop :=
  Numbered TokenChunk.sequenceId a cs ∧ cs.map TokenChunk.token = (T.take b).drop a

/-- The standby that is called after `d` tokens has all of them from one at or below
`d` on, and ends. -/
structure Resumes (T : List PyStr) (d : ℕ) (u : Upstream) : Prop where
  carries : ∃ a ≤ d, Carries T a T.length u.chunks
  ending : u.ending = .done ∨ u.ending = .closed

/-- It does so whenever it is called. -/
def AlwaysResumes (T : List PyStr) (F : ℤ → Except Exc Upstream) : Prop :=
  ∀ d ≤ T.length, ∃ u, F ((d : ℤ) - 1) = .ok u ∧ Resumes T d u

section
variable {T : List PyStr} {A : Upstream} {F : ℤ → Except Exc Upstream} {k : ℕ}

theorem Carries.length {a b : ℕ} {cs : List TokenChunk} (h : Carries T a b cs)
    (hb : b ≤ T.length) : cs.length = b - a := by
  have := congrArg List.length h.2
  rw [List.length_map, List.length_drop, List.length_take, Nat.min_eq_left hb] at this
  exact this

theorem smooth_of_carries (hk : k ≤ T.length) (hA : Carries T 0 k A.chunks)
    (he : A.ending = .done ∨ A.ending = .closed) (hF : AlwaysResumes T F) : Smooth A F where
  ending e h := by
    rw [h] at he
    rcases he with he | he <;> cases he
  numbered := hA.1
  standby d hd := by
    have hlen := hA.length hk
    obtain ⟨u, hu, ⟨a, ha, hcs⟩, hend⟩ := hF d (by have := hd.1; omega)
    refine ⟨u, hu, fun e h => ?_, contiguous_append_of_numbered (hA.1.take d) hcs.1 ?_⟩
    · rw [h] at hend
      rcases hend with hend | hend <;> cases hend
    · rw [List.length_take, Nat.min_eq_left hd.1]
      exact_mod_cast ha

/-- By whatever swap, the chunks taken carry the whole list. -/
theorem route_tokens (hk : k ≤ T.length) (hA : Carries T 0 k A.chunks) (hF : AlwaysResumes T F)
    {pulled : List TokenChunk} (h : Route A F (fun _ => True) False pulled) :
    (accepted TokenChunk.sequenceId pulled).map TokenChunk.token = T := by
  rcases h with ⟨d, u, -, hd, hu, rfl⟩ | ⟨h, -⟩
  · have hlen := hA.length hk
    have hdT : d ≤ T.length := by have := hd.1; omega
    obtain ⟨u', hu', ⟨a, ha, hcs⟩, -⟩ := hF d hdT
    obtain rfl : u = u' := Except.ok.inj (hu.symm.trans hu')
    have htake : (A.chunks.take d).length = d := by rw [List.length_take, Nat.min_eq_left hd.1]
    have hle : (a : ℤ) ≤ (A.chunks.take d).length := by rw [htake]; exact_mod_cast ha
    rw [accepted_append_of_numbered (hA.1.take d) hcs.1 hle, htake, List.map_append,
      List.map_take, List.map_drop, hA.2, hcs.2, List.take_length, List.drop_zero,
      List.take_take, List.drop_drop]
    rw [show min d k = d by have := hd.1; omega, show a + ((d : ℤ) - (a : ℤ)).toNat = d by omega,
      List.take_append_drop]
  · exact h.elim

end

/-! ### Another factory -/

/-- The generator with another standby factory. -/
def Generator.withFactory (F : ℤ → Except Exc Upstream) (g : Generator) : Generator :=
  { g with standbyFactory := F }

section
variable {F : ℤ → Except Exc Upstream} {m : StreamMultiplexer} {g : Generator} {now : ℕ}

theorem raise_withFactory (e : Exc) :
    m.raise (g.withFactory F) e = (m.raise g e).map id (Generator.withFactory F) := by
  cases e <;> rfl

theorem bufferingLoop_withFactory :
    m.bufferingLoop now (g.withFactory F) = (m.bufferingLoop now g).map id (Generator.withFactory F) := by
  unfold bufferingLoop Generator.withFactory
  split_ifs <;> rfl

theorem afterActive_withFactory :
    m.afterActive now (g.withFactory F) = (m.afterActive now g).map id (Generator.withFactory F) := by
  have hloop := @bufferingLoop_withFactory F m { g with bufferingStart := now } now
  unfold afterActive
  change (if (m.heap g.session).preemptionSignaled then _ else _) = _
  split_ifs
  · exact hloop
  · rfl

theorem checkCutoff_withFactory (c : TokenChunk) :
    m.checkCutoff now (g.withFactory F) c = (m.checkCutoff now g c).map id (Generator.withFactory F) := by
  unfold checkCutoff
  change (if (m.heap g.session).preemptionSignaled = true ∧ (m.heap g.session).cutoffSequenceId ≥ 0 ∧
    c.sequenceId ≥ (m.heap g.session).cutoffSequenceId then _ else _) = _
  dsimp only
  split_ifs
  · exact afterActive_withFactory
  · rfl

/-- The factory matters only where it is called. -/
theorem streamWithHandover_withFactory {i : ℕ} (h : g.point = .callStandby →
      F (m.deduplicator.getLastFlushed g.requestId) =
        g.standbyFactory (m.deduplicator.getLastFlushed g.requestId)) :
    m.streamWithHandover now i (g.withFactory F) =
      (m.streamWithHandover now i g).map (Prod.map id (Generator.withFactory F)) := by
  obtain ⟨requestId, active, factory, standby, session, last, since, point, log⟩ := g
  cases point with
  | absent | created | yieldedKeepAlive | yieldedStandby | yieldedDone | ended => rfl
  | pullActive =>
    obtain ⟨chunks, ending⟩ := active
    cases chunks with
    | nil =>
      cases ending with
      | raised e =>
        refine congrArg some (Eq.trans ?_ (raise_withFactory e))
        rfl
      | done | closed =>
        refine congrArg some (Eq.trans ?_ afterActive_withFactory)
        rfl
    | cons c rest =>
      simp only [streamWithHandover, Generator.withFactory, Generator.record]
      rcases m.deduplicator.filterChunk requestId c with e | ⟨_ | c', d⟩
      · refine congrArg some (Eq.trans ?_ (raise_withFactory e))
        rfl
      · refine congrArg some (Eq.trans ?_ (checkCutoff_withFactory c))
        rfl
      · rfl
  | yieldedActive chunk =>
    refine congrArg some (Eq.trans ?_ (checkCutoff_withFactory chunk))
    rfl
  | waitReady start =>
    unfold streamWithHandover Generator.withFactory
    dsimp only
    split_ifs
    · refine congrArg some (Eq.trans ?_ bufferingLoop_withFactory)
      rfl
    · rfl
  | callStandby =>
    unfold streamWithHandover Generator.withFactory
    dsimp only at h ⊢
    rw [h rfl]
    cases factory (m.deduplicator.getLastFlushed requestId) with
    | error e =>
      refine congrArg some (Eq.trans ?_ (raise_withFactory e))
      rfl
    | ok u => rfl
  | pullStandby =>
    obtain ⟨chunks, ending⟩ := standby
    cases chunks with
    | nil =>
      cases ending with
      | raised e =>
        refine congrArg some (Eq.trans ?_ (raise_withFactory e))
        rfl
      | done | closed => rfl
    | cons c rest =>
      simp only [streamWithHandover, Generator.withFactory, Generator.record]
      rcases m.deduplicator.filterChunk requestId c with e | ⟨_ | c', d⟩
      · refine congrArg some (Eq.trans ?_ (raise_withFactory e))
        rfl
      · rfl
      · rfl

end

/-- The system in which generator `i` has the other factory. -/
def System.withFactory (i : ℕ) (F : ℤ → Except Exc Upstream) (s : System) : System :=
  { s with generators := Function.update s.generators i ((s.generators i).withFactory F) }

/-- Generator `i` is made with the other factory. -/
def Label.withFactory (i : ℕ) (F : ℤ → Except Exc Upstream) : Label → Label
  | .call j rid A F' => .call j rid A (if j = i then F else F')
  | l => l

section
variable {i j : ℕ} {F F' : ℤ → Except Exc Upstream} {A : Upstream} {rid : String} {s t : System} {l : Label}

theorem withFactory_self : (s.withFactory i F).generators i = (s.generators i).withFactory F :=
  Function.update_self ..

theorem withFactory_of_ne (h : j ≠ i) : (s.withFactory i F).generators j = s.generators j :=
  Function.update_of_ne h ..

/-- Nothing but the factory is another. -/
theorem withFactory_cases (j : ℕ) : ∃ F', (s.withFactory i F).generators j = (s.generators j).withFactory F' := by
  by_cases h : j = i
  · subst h
    exact ⟨F, withFactory_self⟩
  · exact ⟨(s.generators j).standbyFactory, withFactory_of_ne h⟩

theorem put_withFactory (r : StreamMultiplexer × Generator) :
    (s.put i r).withFactory i F = (s.withFactory i F).put i (r.map id (Generator.withFactory F)) := by
  unfold System.withFactory System.put
  simp

theorem put_withFactory_of_ne (h : j ≠ i) (r : StreamMultiplexer × Generator) :
    (s.put j r).withFactory i F = (s.withFactory i F).put j r := by
  unfold System.withFactory System.put
  simp only [Function.update_of_ne (Ne.symm h)]
  rw [Function.update_comm h]

theorem apart_withFactory (h : Apart i t) : Apart i (t.withFactory i F) := by
  intro k hk hkl hil
  rw [withFactory_of_ne hk] at hkl ⊢
  rw [withFactory_self] at hil ⊢
  exact h k hk hkl hil

theorem serves_withFactory (h : l.Serves i rid A F) : (l.withFactory i F').Serves i rid A F' := by
  cases l with
  | call j rid' A' F'' => exact fun hj => ⟨(h hj).1, (h hj).2.1, if_pos hj⟩
  | _ => exact h

theorem resumes_withFactory : (l.withFactory i F).resumes j = l.resumes j := by
  cases l <;> rfl

theorem countP_withFactory (ls : List Label) :
    (ls.map (Label.withFactory i F)).countP (Label.resumes j) = ls.countP (Label.resumes j) := by
  rw [List.countP_map]
  exact List.countP_congr fun l _ => by rw [Function.comp, resumes_withFactory]

theorem effort_withFactory (n : ℕ) :
    ((s.withFactory i F).generators i).effort n = (s.generators i).effort n := by
  rw [withFactory_self]
  rfl

/-- Where generator `i` calls its standby, the factories agree. -/
def System.Agrees (i : ℕ) (F : ℤ → Except Exc Upstream) (s : System) (l : Label) : Prop :=
  l = .resume i → (s.generators i).point = .callStandby →
    F (s.mux.deduplicator.getLastFlushed (s.generators i).requestId) =
      (s.generators i).standbyFactory (s.mux.deduplicator.getLastFlushed (s.generators i).requestId)

theorem step_withFactory (h : s.step l = some t) (ha : s.Agrees i F l) :
    (s.withFactory i F).step (l.withFactory i F) = some (t.withFactory i F) := by
  cases l with
  | call j rid A F' =>
    simp only [System.step] at h
    split at h
    · rename_i hp
      obtain rfl := Option.some.inj h
      obtain ⟨F'', hj⟩ := @withFactory_cases i F s j
      have hp' : ((s.withFactory i F).generators j).point = .absent := by
        rw [hj]
        exact hp
      simp only [System.step, Label.withFactory, hp']
      by_cases hji : j = i
      · subst hji
        rw [put_withFactory, if_pos rfl]
        rfl
      · rw [put_withFactory_of_ne hji, if_neg hji]
        rfl
    · cases h
  | resume j =>
    obtain ⟨r, hr, rfl⟩ := Option.map_eq_some_iff.mp h
    simp only [System.step, Label.withFactory]
    by_cases hji : j = i
    · subst hji
      have hsame := @streamWithHandover_withFactory F s.mux (s.generators j) s.clock j (ha rfl)
      rw [withFactory_self, put_withFactory]
      show Option.map _ (s.mux.streamWithHandover s.clock j _) = _
      rw [hsame, hr]
      rfl
    · rw [withFactory_of_ne hji, put_withFactory_of_ne hji]
      show Option.map _ (s.mux.streamWithHandover s.clock j _) = _
      rw [hr]
      rfl
  | close j =>
    obtain ⟨r, hr, rfl⟩ := Option.map_eq_some_iff.mp h
    simp only [System.step, Label.withFactory]
    by_cases hji : j = i
    · subst hji
      have hsame : s.mux.close ((s.generators j).withFactory F) =
          (s.mux.close (s.generators j)).map (Prod.map id (Generator.withFactory F)) := by
        obtain ⟨requestId, active, factory, standby, session, last, since, point, log⟩ := s.generators j
        cases point <;> rfl
      rw [withFactory_self, put_withFactory]
      show Option.map _ (s.mux.close _) = _
      rw [hsame, hr]
      rfl
    · rw [withFactory_of_ne hji, put_withFactory_of_ne hji]
      show Option.map _ (s.mux.close _) = _
      rw [hr]
      rfl
  | triggerPreemption | triggerHandoverReady | elapse =>
    obtain rfl := Option.some.inj h
    rfl

/-- A run in which the factories agree is one with the other factory. -/
theorem run_withFactory {ls : List Label} (h : Machine.run System.step s ls = some t)
    (ha : Machine.Along System.step (fun s l t => Apart i t ∧ s.Agrees i F l) s ls) :
    Machine.run System.step (s.withFactory i F) (ls.map (Label.withFactory i F)) = some (t.withFactory i F) ∧
      Machine.Along System.step (fun _ _ t => Apart i t) (s.withFactory i F)
        (ls.map (Label.withFactory i F)) :=
  Machine.run_map (System.withFactory i F) (Label.withFactory i F)
    (fun _ _ _ hs hq => ⟨step_withFactory hs hq.2, apart_withFactory hq.1⟩) h ha

end

/-! ### The standby of the call -/

/-- Where generator `i` calls its standby, this resumes after what has been
delivered. -/
def System.Supplied (T : List PyStr) (i : ℕ) (s : System) (l : Label) : Prop :=
  l = .resume i → (s.generators i).point = .callStandby →
    ∃ u, (s.generators i).standbyFactory
        (s.mux.deduplicator.getLastFlushed (s.generators i).requestId) = .ok u ∧
      Resumes T (s.generators i).delivered.length u

section
variable {T : List PyStr} {i : ℕ} {rid : String} {A : Upstream} {F : ℤ → Except Exc Upstream}

theorem exists_carries (T : List PyStr) (a : ℤ) :
    ∃ cs, Numbered TokenChunk.sequenceId a cs ∧ cs.map TokenChunk.token = T := by
  induction T generalizing a with
  | nil => exact ⟨[], trivial, rfl⟩
  | cons token T ih =>
    obtain ⟨cs, hn, ht⟩ := ih (a + 1)
    exact ⟨⟨"", a, token, 0, false, []⟩ :: cs, ⟨rfl, hn⟩, congrArg (token :: ·) ht⟩

/-- Where a factory resumes, one agrees with it that always does. -/
theorem exists_alwaysResumes (T : List PyStr) (F : ℤ → Except Exc Upstream) :
    ∃ F', AlwaysResumes T F' ∧ ∀ (d : ℕ) u, F ((d : ℤ) - 1) = .ok u → Resumes T d u →
      F' ((d : ℤ) - 1) = F ((d : ℤ) - 1) := by
  classical
  obtain ⟨cs, hn, ht⟩ := exists_carries T 0
  let good (x : ℤ) : Prop := ∃ u, F x = .ok u ∧ Resumes T (x + 1).toNat u
  have hcount (d : ℕ) : ((d : ℤ) - 1 + 1).toNat = d := by omega
  refine ⟨fun x => if good x then F x else .ok ⟨cs, .done⟩, fun d _ => ?_, fun d u hu hres => if_pos ?_⟩
  · by_cases hgood : good ((d : ℤ) - 1)
    · have hF : (if good ((d : ℤ) - 1) then F ((d : ℤ) - 1) else .ok ⟨cs, .done⟩) = F ((d : ℤ) - 1) :=
        if_pos hgood
      obtain ⟨u, hu, hres⟩ := hgood
      rw [hcount] at hres
      exact ⟨u, hF.trans hu, hres⟩
    · refine ⟨_, if_neg hgood, ⟨0, Nat.zero_le d, hn, ?_⟩, Or.inl rfl⟩
      rw [List.take_length, List.drop_zero]
      exact ht
  · refine ⟨u, hu, ?_⟩
    rwa [hcount]

/-- What is known of generator `i` along any run, whatever its standby does. -/
structure Observed (i : ℕ) (F : ℤ → Except Exc Upstream) (s : System) : Prop where
  owned : Owned i s
  recorded : Recorded s.mux.deduplicator (s.generators i)
  factory : (s.generators i).point ≠ .absent → (s.generators i).standbyFactory = F

theorem observed_step {s t : System} {l : Label} (hs : Observed i F s) (h : s.step l = some t)
    (ha : Apart i t) (hl : l.Serves i rid A F) : Observed i F t := by
  obtain ⟨hown, hcase⟩ := owned_step hs.owned h ha
  refine ⟨hown, recorded_step hs.owned hs.recorded h ha, ?_⟩
  rcases hcase with (rfl | rfl) | ⟨rid', a, b, rfl, hp⟩ | he
  · obtain ⟨r, hr, rfl⟩ := Option.map_eq_some_iff.mp h
    have hres := Resumed.of_eq hr
    rw [System.put_self, hres.standbyFactory]
    refine fun _ => hs.factory fun hp => ?_
    rcases hres.live_or_created with hlive | hc
    · exact hlive.started.1 hp
    · rw [hp] at hc
      cases hc
  · exact absurd rfl hl
  · simp only [System.step, hp] at h
    obtain rfl := Option.some.inj h
    rw [System.put_self]
    exact fun _ => (hl rfl).2.2
  · rw [he.generator]
    exact hs.factory

theorem observed_run {s t : System} {ls : List Label} (hs : Observed i F s)
    (h : Machine.run System.step s ls = some t)
    (ha : Machine.Along System.step (fun _ _ t => Apart i t) s ls)
    (hl : ∀ l ∈ ls, l.Serves i rid A F) : Observed i F t := by
  have hserves : Machine.Along System.step (fun _ l _ => l.Serves i rid A F) s ls :=
    Machine.Along.of_labels hl
  exact Machine.run_inv_along (fun _ _ _ hs ht hq => observed_step hs ht hq.1 hq.2) hs (ha.and hserves) h

theorem observed_init (c : ℕ) (hc : 0 < c) (ka : ℕ) : Observed i F (System.init c hc ka) :=
  ⟨owned_init c hc ka i, ⟨fun _ => rfl, fun hl => hl.elim, kept_nil⟩, fun h => absurd rfl h⟩

/-- A supplied generator agrees with any factory that agrees where the standby resumes. -/
theorem agrees_of_supplied {F' : ℤ → Except Exc Upstream} {s : System} {ls : List Label}
    (hagree : ∀ (d : ℕ) u, F ((d : ℤ) - 1) = .ok u → Resumes T d u → F' ((d : ℤ) - 1) = F ((d : ℤ) - 1))
    (hs : Observed i F s) (ha : Machine.Along System.step (fun _ _ t => Apart i t) s ls)
    (hl : ∀ l ∈ ls, l.Serves i rid A F)
    (hF : Machine.Along System.step (fun s l _ => s.Supplied T i l) s ls) :
    Machine.Along System.step (fun s l t => Apart i t ∧ s.Agrees i F' l) s ls := by
  have hserves : Machine.Along System.step (fun _ l _ => l.Serves i rid A F) s ls :=
    Machine.Along.of_labels hl
  refine Machine.Along.of_inv (I := Observed i F) (fun _ _ _ hs ht hq => observed_step hs ht hq.1.1 hq.1.2)
    (fun s l t hs ht hq => ⟨hq.1.1, fun hlab hp => ?_⟩) hs ((ha.and hserves).and hF)
  obtain ⟨u, hu, hres⟩ := hq.2 hlab hp
  have hlive : (s.generators i).Live := by simp [Generator.Live, hp]
  have hflushed : s.mux.deduplicator.getLastFlushed (s.generators i).requestId + 1 =
      (s.generators i).delivered.length := (hs.recorded.running hlive (by simp [hp])).flushed
  rw [hs.factory hlive.started.1] at hu ⊢
  rw [show s.mux.deduplicator.getLastFlushed (s.generators i).requestId =
    ((s.generators i).delivered.length : ℤ) - 1 by omega] at hu ⊢
  exact hagree _ u hu hres

theorem tracked_fresh (c : ℕ) (hc : 0 < c) (ka : ℕ) :
    Tracked i rid A F (fun _ => True) True ((System.init c hc ka).withFactory i F) := by
  have hidle (j : ℕ) : ¬ (((System.init c hc ka).withFactory i F).generators j).Live := by
    obtain ⟨F', hj⟩ := @withFactory_cases i F (System.init c hc ka) j
    rw [hj]
    exact id
  refine ⟨⟨⟨fun _ hf => absurd rfl hf, fun _ _ hs => ?_, fun j hj => absurd hj (hidle j)⟩,
    fun j _ hj => absurd hj (hidle j), fun hi => absurd hi (hidle i)⟩, ?_, ?_, ?_, ?_, Or.inl trivial⟩
  · cases hs
  all_goals rw [withFactory_self]
  · exact ⟨fun _ => rfl, fun hl => hl.elim, kept_nil⟩
  · exact fun _ _ => trivial
  · trivial
  · exact fun h => absurd rfl h

/-- A generator that is done has delivered the whole list, and then the end of
stream signal. -/
theorem tracked_whole {k : ℕ} {s : System} (hk : k ≤ T.length) (hA : Carries T 0 k A.chunks)
    (hF : AlwaysResumes T F) (hs : Tracked i rid A F (fun _ => True) False s) {o : Outcome} (ho : (s.generators i).point = .ended o) : o = .completed ∧
      (s.generators i).delivered.map TokenChunk.token = T ∧
      (s.generators i).delivered.map TokenChunk.sequenceId = (List.range T.length).map Int.ofNat ∧
      (s.generators i).items.filter (· ≠ .keepAlive) =
        (s.generators i).delivered.map .data ++ [.done] := by
  obtain ⟨rfl, hroute, hdel, hshape⟩ := tracked_ended hs ho
  have htok : (s.generators i).delivered.map TokenChunk.token = T := by
    rw [hdel]
    exact route_tokens hk hA hF hroute
  refine ⟨rfl, htok, ?_, hshape⟩
  have hlen : (s.generators i).delivered.length = T.length := by
    rw [← htok, List.length_map]
  rw [← hlen, hdel]
  exact map_seq_accepted TokenChunk.sequenceId _

/-- Zero-loss completeness. The active upstream carries the first `k` tokens of
`T` and ends; any preemption signal comes in while generator `i` reads it; and the
standby, when it is called, carries `T` from a position at or below the number of
tokens delivered. Then in every run from there the generator never fails; when it
is done it has delivered `T`, each token once and in order, and then the end of
stream signal; until then it is never stuck for more than a timeout tick, and the
number of its resumptions is bounded. -/
theorem streamWithHandover_zero_loss {k c ka : ℕ} {hc : 0 < c} {cutoff : ℤ}
    {ls₁ : List Label} {s₁ : System} (hk : k ≤ T.length) (hA : Carries T 0 k A.chunks)
    (he : A.ending = .done ∨ A.ending = .closed)
    (h₁ : Machine.run System.step (System.init c hc ka) ls₁ = some s₁)
    (ha₁ : Machine.Along System.step (fun _ _ t => Apart i t) (System.init c hc ka) ls₁)
    (hl₁ : ∀ l ∈ ls₁, l.Serves i rid A F) (hphase : (s₁.generators i).InPhase1) :
    ∃ N, ∀ ls₂ s,
      Machine.run System.step s₁ (.triggerPreemption rid cutoff :: ls₂) = some s →
      Machine.Along System.step (fun _ _ t => Apart i t) s₁ (.triggerPreemption rid cutoff :: ls₂) →
      (∀ l ∈ ls₂, l.Serves i rid A F) →
      Machine.Along System.step (fun s l _ => s.Supplied T i l) (System.init c hc ka)
        (ls₁ ++ .triggerPreemption rid cutoff :: ls₂) →
      (∀ o, (s.generators i).point = .ended o → o = .completed ∧
        (s.generators i).delivered.map TokenChunk.token = T ∧
        (s.generators i).delivered.map TokenChunk.sequenceId =
          (List.range T.length).map Int.ofNat ∧
        (s.generators i).items.filter (· ≠ .keepAlive) =
          (s.generators i).delivered.map .data ++ [.done]) ∧
      ((∃ o, (s.generators i).point = .ended o) ∨
        ∃ t, Machine.run System.step s (tick i) = some t) ∧
      ls₂.countP (Label.resumes i) ≤ N := by
  obtain ⟨F', hF', hagree⟩ := exists_alwaysResumes T F
  have hsmooth := smooth_of_carries hk hA he hF'
  obtain ⟨n, hn⟩ := exists_bounded A F'
  refine ⟨(s₁.generators i).effort n, fun ls₂ s h ha hl hF => ?_⟩
  -- the run with the factory that always resumes
  have hobs₁ : Observed i F s₁ := observed_run (observed_init c hc ka) h₁ ha₁ hl₁
  have hl₂ : ∀ l ∈ .triggerPreemption rid cutoff :: ls₂, l.Serves i rid A F :=
    List.forall_mem_cons.mpr ⟨trivial, hl⟩
  obtain ⟨hr₁, hb₁⟩ := run_withFactory h₁
    (agrees_of_supplied hagree (observed_init c hc ka) ha₁ hl₁ hF.append_left)
  obtain ⟨hr₂, hb₂⟩ := run_withFactory h (agrees_of_supplied hagree hobs₁ ha hl₂ (hF.append_right h₁))
  have hserves {ls : List Label} (hl : ∀ l ∈ ls, l.Serves i rid A F) :
      ∀ l ∈ ls.map (Label.withFactory i F'), l.Serves i rid A F' := by
    rintro _ hmem
    obtain ⟨l, hlmem, rfl⟩ := List.mem_map.mp hmem
    exact serves_withFactory (hl l hlmem)
  have ht₁ : Tracked i rid A F' (fun _ => True) True (s₁.withFactory i F') :=
    tracked_run hsmooth (tracked_fresh c hc ka) hr₁ hb₁ (hserves hl₁)
  have hphase' : ((s₁.withFactory i F').generators i).InPhase1 := by
    rw [withFactory_self]
    exact hphase
  have ht₂ := tracked_signal ht₁ hphase' cutoff
  obtain ⟨s₂, hs₂, hr₂⟩ := Machine.run_cons_eq_some.mp hr₂
  obtain rfl := Option.some.inj hs₂
  have hb₂ := (hb₂ _ hs₂).2
  have ht := tracked_run hsmooth ht₂ hr₂ hb₂ (hserves hl)
  have hcount := tracked_resumptions hsmooth ht₂ hphase'.live.started hn hr₂ hb₂ (hserves hl)
  have hself : (s.withFactory i F').generators i = (s.generators i).withFactory F' := withFactory_self
  refine ⟨fun o ho => ?_, ?_, ?_⟩
  · have hwhole := @tracked_whole T i rid A F' k _ hk hA hF' ht o
    rw [hself] at hwhole
    exact hwhole ho
  · have hstarted := (ht.signaled.resolve_left id).1
    have htimed := ht.timed
    rw [hself] at hstarted htimed
    rcases hstarted.live_or_ended with hlive | hend
    · obtain ⟨r, -, hrun⟩ := run_tick hlive htimed
      exact Or.inr ⟨_, hrun⟩
    · exact Or.inl hend
  · rwa [countP_withFactory, effort_withFactory] at hcount

end

/-! ### A replay from the second token on -/

/-- The active upstream ends after two tokens. -/
def twoOfThreeTokens : Upstream := ⟨[⟨"r", 0, "a", 0, false, []⟩, ⟨"r", 1, "b", 0, false, []⟩], .closed⟩

/-- The standby has all but the first. -/
def lastTwoTokens : Upstream := ⟨[⟨"r", 1, "b", 0, false, []⟩, ⟨"r", 2, "c", 0, false, []⟩], .done⟩

/-- The signal comes in while the second token is written. -/
def replayRun : List Label :=
  .call 0 "r" twoOfThreeTokens (fun _ => .ok lastTwoTokens) :: List.replicate 4 (.resume 0)

/-- The standby is ready, and sends the second token again. -/
def afterSignal : List Label := .triggerHandoverReady "r" :: List.replicate 8 (.resume 0)

theorem replayRun_supplied : Machine.Along System.step (fun s l _ => s.Supplied ["a", "b", "c"] 0 l)
    (System.init 8 (by decide) 800000000) (replayRun ++ .triggerPreemption "r" (-1) :: afterSignal) := by
  have hpoints : ∀ n < 15, n ≠ 9 → (Machine.run System.step (System.init 8 (by decide) 800000000)
      ((replayRun ++ .triggerPreemption "r" (-1) :: afterSignal).take n)).map (fun s =>
        decide ((s.generators 0).point = .callStandby)) = some false := by decide +kernel
  apply Machine.Along.of_splits
  intro bs l cs u t hls hu _ hl hp
  have hbs : bs = (replayRun ++ .triggerPreemption "r" (-1) :: afterSignal).take bs.length := by
    rw [hls, List.take_left]
  have hlen : bs.length < 15 := by
    have hsum := congrArg List.length hls
    simp [replayRun, afterSignal] at hsum
    omega
  by_cases hnine : bs.length = 9
  · rw [hbs, hnine] at hu
    obtain rfl := Option.some.inj hu
    refine ⟨lastTwoTokens, rfl, ⟨1, by decide, ?_, rfl⟩, Or.inl rfl⟩
    simp [Numbered, lastTwoTokens]
  · have hno := hpoints bs.length hlen hnine
    rw [← hbs, hu] at hno
    exact absurd hp (of_decide_eq_false (Option.some.inj hno))

theorem streamWithHandover_zero_loss_replayRun : ∃ s₁ s,
    Machine.run System.step (System.init 8 (by decide) 800000000) replayRun = some s₁ ∧
      Machine.run System.step s₁ (.triggerPreemption "r" (-1) :: afterSignal) = some s ∧
      (s.generators 0).delivered.map TokenChunk.token = ["a", "b", "c"] ∧
      (s.generators 0).delivered.map TokenChunk.sequenceId = [0, 1, 2] ∧
      (s.generators 0).items.filter (· ≠ .keepAlive) =
        (s.generators 0).delivered.map .data ++ [.done] := by
  obtain ⟨s₁, h₁, hphase, s, h₂, hend⟩ : ∃ s₁,
      Machine.run System.step (System.init 8 (by decide) 800000000) replayRun = some s₁ ∧
      (s₁.generators 0).InPhase1 ∧ ∃ s,
        Machine.run System.step s₁ (.triggerPreemption "r" (-1) :: afterSignal) = some s ∧
        (s.generators 0).point = .ended .completed := by
    refine ⟨_, rfl, ?_, _, rfl, rfl⟩
    trivial
  have habout : ∀ l ∈ replayRun ++ .triggerPreemption "r" (-1) :: afterSignal, l.About 0 := by
    simp [replayRun, afterSignal, Label.About]
  have hapart := @apart_of_about 0 8 800000000 (by decide) _ habout
  obtain ⟨N, hN⟩ := @streamWithHandover_zero_loss ["a", "b", "c"] 0 "r" twoOfThreeTokens
    (fun _ => .ok lastTwoTokens) 2 8 800000000 (by decide) (-1) replayRun s₁ (by decide)
    ⟨by simp [Numbered, twoOfThreeTokens], rfl⟩ (Or.inr rfl) h₁ hapart.append_left
    (by simp [replayRun, Label.Serves]) hphase
  obtain ⟨hended, -⟩ := hN afterSignal s h₂ (hapart.append_right h₁) (by simp [afterSignal, Label.Serves])
    replayRun_supplied
  obtain ⟨-, htokens, hids, hitems⟩ := hended _ hend
  exact ⟨s₁, s, h₁, h₂, htokens, hids, hitems⟩

end Sgm
