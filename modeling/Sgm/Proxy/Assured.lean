/-
# A response under any alerts

Any number of alerts may come in, before the request and after it. Where the
budget of the client covers the corpus, every way the response can go leads to
the whole corpus, but one: the active engine breaks off its stream, and the proxy
has not been told of a preemption by the time it reads this.

Key definitions: `Assured`, `BrokenOff`.
Key theorems: `Course.ends`, `assured_step`, `assured_outcome`.
-/
import Sgm.Proxy.Migration

namespace Sgm

open InOrder StreamMultiplexer

namespace IngressProxy

/-- What comes next from the active engine is the end of its stream, and it has
not said `[DONE]`. -/
def BrokenOff (h : ℕ) (p : IngressProxy) : Prop :=
  (p.system.generators h).point = .pullActive ∧ (p.system.generators h).active = ⟨[], .closed⟩

instance (h : ℕ) (p : IngressProxy) : Decidable (BrokenOff h p) := inferInstanceAs (Decidable (_ ∧ _))

/-- How the response of handler `h` goes, whatever alerts have come in: there
has been none, and it is under way; one has come while the active engine is read;
the first has come before the request was sent on; or the response is whole. -/
inductive Assured (env : Env) (h : ℕ) (engine : MockLLMEngine) (a b : String)
    (body : List (List Char × Json)) (p : IngressProxy) : Prop
  | unalerted (hn : p.isPreemptionActive = false)
    (hc : Course env h body a b (clientActive env h body a) (fun _ => True) True p)
    (hs : Straight (clientActive env h body a) h p.system)
    (hd : SseItem.done ∉ (p.system.generators h).items)
  | swapping (hc : Course env h body a b (clientActive env h body a) (fun _ => True) False p)
  | rerouted (hc : Course env h body a b (clientActive env h body b) (fun _ => True) True p)
  | done (hc : Course env h body a b (clientActive env h body a) (fun _ => True) True p)
    (hd : SseItem.done ∈ (p.system.generators h).items)
    (ht : (p.system.generators h).delivered.map TokenChunk.token = engine.corpus)

variable {env : Env} {reader : LineReader} {limit h : ℕ} {engine : MockLLMEngine} {a b : String} {pause m : ℕ}
  {body : List (List Char × Json)} {A : Upstream} {At : ℕ → Prop} {direct : Prop}
  {p q : IngressProxy} {l : ProxyLabel}

/-! ### A generator that has yielded the end of the stream -/

theorem Course.done_point (hp : Course env h body a b A At direct p)
    (hd : SseItem.done ∈ (p.system.generators h).items) :
    (p.system.generators h).point = .yieldedDone ∨
      ∃ o, (p.system.generators h).point = .ended o := by
  have hrec := hp.tracked.recorded
  have hstarted : (p.system.generators h).Started := by
    by_contra hs
    have hnil : (p.system.generators h).items = [] := by
      rw [Generator.items, hrec.idle hs]
      rfl
    rw [hnil] at hd
    exact List.not_mem_nil hd
  rcases hstarted.live_or_ended with hlive | hend
  · by_contra hno
    exact (hrec.running hlive fun hy => hno (Or.inl hy)).undone hd
  · exact Or.inr hend

theorem Course.present_of_done (hp : Course env h body a b A At direct p)
    (hd : SseItem.done ∈ (p.system.generators h).items) :
    (p.system.generators h).point ≠ .absent := by
  intro habs
  rcases hp.done_point hd with hy | ⟨o, ho⟩
  · rw [habs] at hy
    cases hy
  · rw [habs] at ho
    cases ho

/-- Nothing is yielded after it. -/
theorem Course.log_of_done (hp : Course env h body a b A At direct p)
    (hd : SseItem.done ∈ (p.system.generators h).items) (hq : Stepped env p l q) :
    (q.system.generators h).log = (p.system.generators h).log := by
  have hpoint := hp.done_point hd
  rcases hq.generator h with hg | ⟨-, hprep, -⟩ | ⟨-, hs⟩ | ⟨-, hs⟩
  · rw [hg]
  · have habs := hp.linked.absent (h := h) (by rw [hprep]; decide) (by rw [hprep]; decide)
    exact absurd habs (hp.present_of_done hd)
  · obtain ⟨r, hr, hsys⟩ := Option.map_eq_some_iff.mp hs
    rw [← hsys, System.put_self]
    have hres := Resumed.of_eq hr
    rcases hpoint with hy | ⟨o, ho⟩
    · cases hres with
      | finish _ => rfl
      | _ => simp_all
    · rcases hres.live_or_created with hl | hc
      · simp [Generator.Live, ho] at hl
      · rw [ho] at hc
        cases hc
  · rw [close_eq hs]
    rfl

theorem Course.items_of_done (hp : Course env h body a b A At direct p)
    (hd : SseItem.done ∈ (p.system.generators h).items) (hq : Stepped env p l q) :
    (q.system.generators h).items = (p.system.generators h).items := by
  rw [Generator.items, hp.log_of_done hd hq]
  rfl

/-- Where a generator is that reads its active upstream alone. -/
theorem Course.straight_point (hp : Course env h body a b A At direct p)
    (hst : Straight A h p.system) : (p.system.generators h).point = .absent ∨
      (p.system.generators h).InPhase1 ∨ SseItem.done ∈ (p.system.generators h).items := by
  have hstage := hp.tracked.stage
  have hdirect := hst.direct
  cases hpt : (p.system.generators h).point with
  | absent => exact Or.inl rfl
  | created =>
    exfalso
    have hrel : (p.handlers h).point ≠ .relaying := by
      intro hr
      have hl := (hp.linked.relaying hr).1
      simp [Generator.Live, hpt] at hl
    have hret : (p.handlers h).point ≠ .returned := by
      intro hr
      have hh := hp.handler
      simp only [Handles, hr, hpt] at hh
      obtain ⟨o, ho⟩ := hh
      cases ho
    have habs := hp.linked.absent hrel hret
    rw [hpt] at habs
    cases habs
  | pullActive | yieldedActive c => exact Or.inr (Or.inl (by simp [Generator.InPhase1, hpt]))
  | yieldedDone =>
    simp only [Stage, hpt] at hstage
    exact Or.inr (Or.inr hstage.2)
  | ended o =>
    cases o with
    | completed =>
      simp only [Stage, hpt] at hstage
      exact Or.inr (Or.inr hstage.2)
    | _ => simp [Stage, hpt] at hstage
  | _ => simp [Generator.Direct, hpt] at hdirect

/-- It has then yielded what the upstream has. -/
theorem Course.straight_delivered (hp : Course env h body a b A At direct p)
    (hA : Smooth A (clientStandby env h body b)) (hst : Straight A h p.system)
    (hd : SseItem.done ∈ (p.system.generators h).items) :
    (p.system.generators h).delivered = A.chunks := by
  have hpulled : (p.system.generators h).pulled = A.chunks := by
    have hdirect := hst.direct
    have hstage := hp.tracked.stage
    rcases hp.done_point hd with hy | ⟨o, ho⟩
    · simpa only [Generator.Direct, hy] using hdirect
    · cases o with
      | completed => simpa only [Generator.Direct, ho] using hdirect
      | _ => simp [Stage, ho] at hstage
  calc (p.system.generators h).delivered
      = accepted TokenChunk.sequenceId (p.system.generators h).pulled :=
        hp.tracked.recorded.kept.delivered
    _ = accepted TokenChunk.sequenceId A.chunks := by rw [hpulled]
    _ = A.chunks := accepted_of_numbered hA.numbered

/-- What is resumed when the end of the stream is yielded, or after that. -/
theorem ends_of_resumed {now i : ℕ} {m : StreamMultiplexer} {g : Generator}
    {r : StreamMultiplexer × Generator} (h : Resumed now i m g r)
    (hy : r.2.point = .yieldedDone ∨ r.2.point = .ended .completed) :
    (g.point = .pullActive ∧ g.active.chunks = []) ∨ g.point = .pullStandby ∨ g.point = .yieldedDone := by
  have hbuffer : ∀ {g' : Generator}, g'.Buffering →
      ¬ (g'.point = .yieldedDone ∨ g'.point = .ended .completed) := by
    intro g' hb hy
    unfold Generator.Buffering at hb
    rcases hy with hy | hy <;> simp [hy] at hb
  have hraise : ∀ (g' : Generator) (e : Exc),
      ¬ ((m.raise g' e).2.point = .yieldedDone ∨ (m.raise g' e).2.point = .ended .completed) := by
    intro g' e hy
    obtain ⟨⟨e', he⟩, -⟩ := raise_spec m g' e
    simp [he] at hy
  have hcheck : ∀ (g' : Generator) (c : TokenChunk), ¬ ((m.checkCutoff now g' c).2.point = .yieldedDone ∨
      (m.checkCutoff now g' c).2.point = .ended .completed) := by
    intro g' c hy
    rcases checkCutoff_spec now m g' c with ⟨-, hb⟩ | he
    · exact hbuffer hb.buffering hy
    · simp [he, Generator.at_] at hy
  cases h with
  | endActive hp hc _ => exact Or.inl ⟨hp, hc⟩
  | endStandby hp _ _ => exact Or.inr (Or.inl hp)
  | finish hp => exact Or.inr (Or.inr hp)
  | dropActive c _ _ _ _ => exact absurd hy (hcheck _ c)
  | resumeActive c _ => exact absurd hy (hcheck _ c)
  | gapActive _ _ _ _ _ _ => exact absurd hy (hraise _ _)
  | raiseActive e _ _ _ => exact absurd hy (hraise _ e)
  | wake _ _ _ => exact absurd hy (hbuffer (buffered_bufferingLoop now m g).buffering)
  | failStandby e _ _ => exact absurd hy (hraise _ e)
  | gapStandby _ _ _ _ _ _ => exact absurd hy (hraise _ _)
  | raiseStandby e _ _ _ => exact absurd hy (hraise _ e)
  | dropStandby _ _ hp _ _ => exact Or.inr (Or.inl hp)
  | acceptStandby _ _ _ hp _ _ _ _ => exact Or.inr (Or.inl hp)
  | start | acceptActive | resumeKeepAlive | connectStandby | resumeStandby =>
    simp [Generator.emit, Generator.at_] at hy

/-- It is resumed at the end of the upstream, then. -/
theorem Course.ends (hp : Course env h body a b A At direct p) (hst : Straight A h p.system)
    (hno : SseItem.done ∉ (p.system.generators h).items) (hq : Stepped env p l q)
    (hcq : Course env h body a b A At direct q) (hd : SseItem.done ∈ (q.system.generators h).items) :
    l = .resume h ∧ (p.system.generators h).point = .pullActive ∧
      (p.system.generators h).active = ⟨[], A.ending⟩ := by
  have hstage := hp.tracked.stage
  have hdirect := hst.direct
  have hpoint := hcq.done_point hd
  have hend : ∀ {i : ℕ} {m : StreamMultiplexer} {g : Generator} {r : StreamMultiplexer × Generator},
      Resumed p.system.clock i m g r → r.2.point = (q.system.generators h).point →
      (g.point = .pullActive ∧ g.active.chunks = []) ∨ g.point = .pullStandby ∨ g.point = .yieldedDone := by
    intro i m g r hr hpt
    refine ends_of_resumed hr ?_
    rw [hpt]
    rcases hpoint with hy | ⟨o, ho⟩
    · exact Or.inl hy
    · exact Or.inr (by rw [ho, (tracked_ended hcq.tracked ho).1])
  rcases hq.generator h with hg | ⟨rfl, hprep, hs⟩ | ⟨rfl, hs⟩ | ⟨-, hs⟩
  · rw [hg] at hd
    exact absurd hd hno
  · obtain ⟨r, hr, hsys⟩ := Option.map_eq_some_iff.mp hs
    have hcreated : ((p.system.put h (p.system.mux, p.called env h)).generators h).point = .created := by
      rw [System.put_self]
      rfl
    rcases hend (Resumed.of_eq hr) (by rw [← hsys, System.put_self]) with hx | hx | hx
    · rw [hcreated] at hx
      cases hx.1
    · rw [hcreated] at hx
      cases hx
    · rw [hcreated] at hx
      cases hx
  · obtain ⟨r, hr, hsys⟩ := Option.map_eq_some_iff.mp hs
    rcases hend (Resumed.of_eq hr) (by rw [← hsys, System.put_self]) with ⟨hx, hc⟩ | hx | hx
    · simp only [Stage, hx] at hstage
      obtain ⟨-, d, -, -, hactive⟩ := hstage
      rw [hactive] at hc
      exact ⟨rfl, hx, by rw [hactive]; simpa using hc⟩
    · simp [Generator.Direct, hx] at hdirect
    · simp only [Stage, hx] at hstage
      exact absurd hstage.2 hno
  · rw [close_eq hs] at hd
    exact absurd hd hno

/-! ### The engines -/

/-- What a part of the corpus and the rest of it from the standby make. -/
theorem take_append_standby {k d : ℕ} (hd : d ≤ (engine.corpus.take k).length) :
    (engine.corpus.take k).take d ++ (engine.corpus.take (d + m)).drop d =
      engine.corpus.take (d + m) := by
  have hk : d ≤ k := hd.trans (List.length_take_le _ _)
  calc (engine.corpus.take k).take d ++ (engine.corpus.take (d + m)).drop d
      = (engine.corpus.take (d + m)).take d ++ (engine.corpus.take (d + m)).drop d := by
        rw [List.take_take, List.take_take, min_eq_left hk, min_eq_left (Nat.le_add_right d m)]
    _ = engine.corpus.take (d + m) := List.take_append_drop _ _

/-- A response that has changed over to the standby, or has read an engine that
was not stopped, is the corpus. -/
theorem Course.whole (hp : Course env h body a b A At direct p) (hbody : Completion body m)
    (he : env.Engines reader limit h body engine a b pause) (hm : engine.corpus.length ≤ m) {k : ℕ}
    (hA : A.Carries 0 (engine.corpus.take k)) (hk : direct → m ≤ k)
    (ho : (p.system.generators h).point = .ended .completed) :
    (p.system.generators h).delivered.map TokenChunk.token = engine.corpus := by
  obtain ⟨-, hroute, hdel, -⟩ := tracked_ended hp.tracked ho
  rw [hdel]
  rcases hroute with ⟨d, u, -, hd, hu, hpull⟩ | ⟨hdirect, hpull⟩
  · obtain ⟨u', hu', hc⟩ := carries_clientStandby hbody he.handsOut he.fits (he.standby .standby) d
    obtain rfl : u = u' := by simpa [hu] using hu'
    have hlen : d ≤ (engine.corpus.take k).length := by
      rw [← hA.tokens, List.length_map]
      exact hd.1
    rw [hpull, hA.accepted_tokens hc hd.1 le_rfl, Nat.sub_self, List.drop_zero,
      take_append_standby hlen]
    exact List.take_of_length_le (hm.trans (Nat.le_add_left m d))
  · rw [hpull, accepted_of_numbered hA.numbered, hA.tokens]
    exact List.take_of_length_le (hm.trans (hk hdirect))

/-! ### Steps -/

section
variable (hbody : Completion body m) (he : env.Engines reader limit h body engine a b pause)
  (hm : engine.corpus.length ≤ m)

include hbody he

theorem smooth_active : Smooth (clientActive env h body a) (clientStandby env h body b) :=
  smooth_engines hbody he (engines_active hbody he)

theorem smooth_standby : Smooth (clientActive env h body b) (clientStandby env h body b) :=
  smooth_engines hbody he (engines_standby hbody he)

/-- An alert. -/
theorem assured_alert {data : Json} {cutoff : ℤ} (hp : Assured env h engine a b body p)
    (hq : Stepped env p (.preemptionAlert data) q) (hc : cutoffOf data = some cutoff)
    (hs : Sole h q) : Assured env h engine a b body q := by
  have hA := smooth_active hbody he
  have hB := smooth_standby hbody he
  have hstream := hbody.stream
  cases hp with
  | unalerted hn hcourse hst hno =>
    rcases hcourse.straight_point hst with habs | hphase | hd
    · exact .rerouted (course_alert_early hA hcourse hq hs habs (fun _ _ => trivial) hstream)
    · exact .swapping (course_alert hA hcourse hq hs hphase hc hstream)
    · exact absurd hd hno
  | swapping hcourse =>
    have hpres : (p.system.generators h).point ≠ .absent :=
      (hcourse.tracked.signaled.resolve_left id).1.1
    exact .swapping (course_alert_late hA hcourse hq hs hpres hstream)
  | rerouted hcourse =>
    by_cases habs : (p.system.generators h).point = .absent
    · exact .rerouted (course_alert_early hB hcourse hq hs habs (fun _ _ => trivial) hstream)
    · exact .rerouted (course_alert_late hB hcourse hq hs habs hstream)
  | done hcourse hd ht =>
    have hitems := hcourse.items_of_done hd hq
    refine .done (course_alert_late hA hcourse hq hs (hcourse.present_of_done hd) hstream)
      (hitems ▸ hd) ?_
    rw [Generator.delivered, hitems]
    exact ht

include hm

/-- Any move. -/
theorem assured_step (hp : Assured env h engine a b body p) (hq : step env p l = some q)
    (hl : l.Reads h body) (hc : ∀ data, l = .preemptionAlert data → ∃ cutoff, cutoffOf data = some cutoff)
    (hs : Sole h q) (hb : l = .resume h → BrokenOff h p → p.isPreemptionActive = true) :
    Assured env h engine a b body q := by
  have hq := Stepped.of_step hq
  have hA := smooth_active hbody he
  have hB := smooth_standby hbody he
  by_cases hna : ∀ data, l ≠ .preemptionAlert data
  · cases hp with
    | unalerted hn hcourse hst hno =>
      have hn' : q.isPreemptionActive = false := by
        rcases hq.flag with hf | ⟨⟨data, hdata⟩, -⟩
        · rw [hf, hn]
        · exact absurd hdata (hna data)
      have hcourse' := course_step hA hcourse hq hl hbody.stream hna hs
      have hst' := hcourse.straight_after hA hst hq hl hna hs
      by_cases hd : SseItem.done ∈ (q.system.generators h).items
      · obtain ⟨hlabel, hpt, hactive⟩ := hcourse.ends hst hno hq hcourse' hd
        refine .done hcourse' hd ?_
        rw [hcourse'.straight_delivered hA hst' hd]
        rcases (engines_active hbody he).ending with hend | hend
        · rw [engines_active_done hbody he hend]
          exact List.take_of_length_le hm
        · have hflag := hb hlabel ⟨hpt, hactive.trans (by rw [hend])⟩
          rw [hn] at hflag
          cases hflag
      · exact .unalerted hn' hcourse' hst' hd
    | swapping hcourse => exact .swapping (course_step hA hcourse hq hl hbody.stream hna hs)
    | rerouted hcourse => exact .rerouted (course_step hB hcourse hq hl hbody.stream hna hs)
    | done hcourse hd ht =>
      have hitems := hcourse.items_of_done hd hq
      refine .done (course_step hA hcourse hq hl hbody.stream hna hs) (hitems ▸ hd) ?_
      rw [Generator.delivered, hitems]
      exact ht
  · obtain ⟨data, hdata⟩ := not_forall_not.mp hna
    obtain ⟨cutoff, hcut⟩ := hc data hdata
    subst hdata
    exact assured_alert hbody he hp hq hcut hs

/-- Where it leads: the response is the corpus, and can be brought to its end. -/
theorem assured_outcome (hp : Assured env h engine a b body p) :
    (∀ o, (p.system.generators h).point = .ended o → o = .completed ∧
      (p.system.generators h).delivered.map TokenChunk.token = engine.corpus ∧
      (p.system.generators h).items.filter (· ≠ .keepAlive) =
        (p.system.generators h).delivered.map .data ++ [.done]) ∧
    ((p.handlers h).point = .relaying → ∃ k q,
      Machine.run (step env) p (List.replicate k (relayTick h)).flatten = some q ∧
        (q.system.generators h).point = .ended .completed) := by
  have hA := smooth_active hbody he
  have hB := smooth_standby hbody he
  have hactive := engines_active hbody he
  cases hp with
  | unalerted hn hcourse hst hno =>
    refine course_outcome hA hbody.stream hcourse fun ho => ?_
    have hstage := hcourse.tracked.stage
    simp only [Stage, ho] at hstage
    exact absurd hstage.2 hno
  | swapping hcourse =>
    refine course_outcome hA hbody.stream hcourse fun ho => ?_
    rw [List.take_take] at hactive
    exact hcourse.whole hbody he hm hactive (fun hf => hf.elim) ho
  | rerouted hcourse =>
    refine course_outcome hB hbody.stream hcourse fun ho => ?_
    exact hcourse.whole hbody he hm (engines_standby hbody he) (fun _ => le_rfl) ho
  | done hcourse hd ht => exact course_outcome hA hbody.stream hcourse fun _ => ht

end

end IngressProxy
end Sgm
