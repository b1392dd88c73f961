/-
# A migration between two mock engines

The active and the standby engine have one corpus, and the active one may be
paused at any token. The request the proxy sends to the standby keeps the
`max_tokens` of the client's request and only adds where to start, so the
standby serves the whole budget again: after `d` tokens of the active engine
the client gets `corpus[:d + m]` in all. That is what it asked for if the corpus
ends within the budget anyway, or if the active engine has served nothing. The
lines of the engine are within the limit of the proxy's reader throughout.

Key definitions: `Env.Engines`, `Completion`, `Invisible`.
Key theorems: `engines_active`, `engines_standby`, `swap_tokens`,
`IngressProxy.handleChatCompletions_migration`.
-/
import Sgm.Proxy.Course
import Sgm.Simulator.MockEngine

namespace Sgm

open InOrder StreamMultiplexer

/-- Request `h` of a client that sends `body` meets the active engine at `a`,
paused from its token `p` on, and the standby engine at `b`. Their lines are
within the limit of the reader. -/
structure Env.Engines (env : Env) (reader : LineReader) (limit h : ℕ) (body : List (List Char × Json))
    (engine : MockLLMEngine) (a b : String) (p : ℕ) : Prop where
  handsOut : reader.HandsOut limit
  fits : engine.Fits limit (.ofString (requestIdOf env h body))
  active : ∀ c body, ∃ nowMs, env.post h c (completionsUrl a) (.obj body) =
    reader.reply (engine.handleChatCompletions env.show_ nowMs (MockLLMEngine.pausedFrom p) body)
  standby : ∀ c body, ∃ nowMs, env.post h c (completionsUrl b) (.obj body) =
    reader.reply (engine.handleChatCompletions env.show_ nowMs (fun _ => false) body)

/-- A client's streaming request for `m` tokens, from the start. -/
structure Completion (body : List (List Char × Json)) (m : ℕ) : Prop where
  stream : ((Json.field? body "stream".toList).getD (.bool true)).truthy = true
  requestId : hasTextId body = true
  start : Json.field? body "start_seq_id".toList = none
  maxTokens : Json.field? body "max_tokens".toList = some (.int m)

section
variable {env : Env} {reader : LineReader} {limit h : ℕ} {engine : MockLLMEngine} {a b : String}
  {p m : ℕ} {body : List (List Char × Json)}

open IngressProxy

theorem carries_clientActive (hbody : Completion body m) (hreader : reader.HandsOut limit)
    (hfit : engine.Fits limit (.ofString (requestIdOf env h body))) {url : String} {paused : ℕ → Bool}
    (hpost : ∀ body, ∃ nowMs, env.post h .active (completionsUrl url) (.obj body) =
      reader.reply (engine.handleChatCompletions env.show_ nowMs paused body)) :
    (clientActive env h body url).Carries 0 (MockLLMEngine.served paused 0 (engine.corpus.take m)) ∧
      ((clientActive env h body url).ending = .done →
        MockLLMEngine.served paused 0 (engine.corpus.take m) = engine.corpus.take m) := by
  obtain ⟨nowMs, hpost⟩ := hpost (withRequestId body (requestIdOf env h body))
  obtain ⟨chunks, e, hgen, hend, hdone, hnum, htok⟩ := MockLLMEngine.sseChunkGenerator_engine hreader
    engine env.show_ nowMs paused (env.post h .active) (completionsUrl url) (requestIdOf env h body)
    (withRequestId body (requestIdOf env h body)) 0 m (PyStr.unpaired_ofText _) hfit hpost
    (by rw [withRequestId, Json.field?_setField, if_neg (by decide)]; exact hbody.stream)
    (by rw [withRequestId, Json.field?_setField, if_pos rfl])
    (by rw [withRequestId, Json.field?_setField, if_neg (by decide), hbody.start]; rfl)
    (by rw [withRequestId, Json.field?_setField, if_neg (by decide)]; exact hbody.maxTokens)
  rw [Nat.zero_add, List.drop_zero] at hdone htok
  rw [clientActive, activeGen, hgen]
  exact ⟨⟨hend, hnum, htok⟩, fun he => MockLLMEngine.served_of_runsThrough (hdone he)⟩

/-- The tokens of the standby, called after `d` tokens: the whole budget again. -/
theorem carries_clientStandby (hbody : Completion body m) (hreader : reader.HandsOut limit)
    (hfit : engine.Fits limit (.ofString (requestIdOf env h body)))
    (hpost : ∀ body, ∃ nowMs, env.post h .standby (completionsUrl b) (.obj body) =
      reader.reply (engine.handleChatCompletions env.show_ nowMs (fun _ => false) body)) (d : ℕ) :
    ∃ u, clientStandby env h body b ((d : ℤ) - 1) = .ok u ∧
      u.Carries d ((engine.corpus.take (d + m)).drop d) := by
  have hfield : ∀ key : List Char, key ≠ "start_seq_id".toList → key ≠ "is_resume".toList →
      Json.field? (standbyBody (withRequestId body (requestIdOf env h body)) ((d : ℤ) - 1)) key =
        Json.field? (withRequestId body (requestIdOf env h body)) key := by
    intro key h1 h2
    rw [standbyBody, Json.field?_setField, if_neg h2, Json.field?_setField, if_neg h1]
  have hbudget : ∀ key : List Char, key ≠ "request_id".toList →
      Json.field? (withRequestId body (requestIdOf env h body)) key = Json.field? body key := by
    intro key h3
    rw [withRequestId, Json.field?_setField, if_neg h3]
  have hstart : Json.field? (standbyBody (withRequestId body (requestIdOf env h body))
      ((d : ℤ) - 1)) "start_seq_id".toList = some (.int d) := by
    rw [standbyBody, Json.field?_setField, if_neg (by decide), Json.field?_setField, if_pos rfl,
      sub_add_cancel]
  obtain ⟨nowMs, hpost⟩ :=
    hpost (standbyBody (withRequestId body (requestIdOf env h body)) ((d : ℤ) - 1))
  obtain ⟨chunks, e, hgen, hend, -, hnum, htok⟩ := MockLLMEngine.sseChunkGenerator_engine hreader
    engine env.show_ nowMs (fun _ => false) (env.post h .standby) (completionsUrl b)
    (requestIdOf env h body)
    (standbyBody (withRequestId body (requestIdOf env h body)) ((d : ℤ) - 1)) d m
    (PyStr.unpaired_ofText _) hfit hpost
    (by rw [hfield _ (by decide) (by decide), hbudget _ (by decide)]; exact hbody.stream)
    (by rw [hfield _ (by decide) (by decide), withRequestId, Json.field?_setField, if_pos rfl])
    (by rw [hstart]; rfl)
    (by rw [hfield _ (by decide) (by decide), hbudget _ (by decide)]; exact hbody.maxTokens)
  refine ⟨⟨chunks, e⟩, ?_, hend, hnum, ?_⟩
  · rw [clientStandby, standbyFactory, hgen]
  · rw [htok, MockLLMEngine.served_never]

theorem engines_active (hbody : Completion body m)
    (he : env.Engines reader limit h body engine a b p) :
    (clientActive env h body a).Carries 0 ((engine.corpus.take m).take p) := by
  have := (carries_clientActive hbody he.handsOut he.fits (he.active .active)).1
  rwa [MockLLMEngine.served_pausedFrom, Nat.sub_zero] at this

/-- An active engine that says `[DONE]` has served all of it. -/
theorem engines_active_done (hbody : Completion body m)
    (he : env.Engines reader limit h body engine a b p)
    (hdone : (clientActive env h body a).ending = .done) :
    (clientActive env h body a).chunks.map TokenChunk.token = engine.corpus.take m := by
  obtain ⟨hc, hserved⟩ := carries_clientActive hbody he.handsOut he.fits (he.active .active)
  rw [hc.tokens, hserved hdone]

theorem engines_standby (hbody : Completion body m)
    (he : env.Engines reader limit h body engine a b p) :
    (clientActive env h body b).Carries 0 (engine.corpus.take m) := by
  have := (carries_clientActive hbody he.handsOut he.fits (he.standby .active)).1
  rwa [MockLLMEngine.served_never] at this

theorem smooth_engines (hbody : Completion body m)
    (he : env.Engines reader limit h body engine a b p) {A : Upstream} {tokens : List PyStr}
    (hA : A.Carries 0 tokens) : Smooth A (clientStandby env h body b) := by
  refine hA.smooth fun d _ => ?_
  obtain ⟨u, hu, hc⟩ := carries_clientStandby hbody he.handsOut he.fits (he.standby .standby) d
  exact ⟨d, u, _, le_rfl, hu, hc⟩

/-- What the client gets when the swap is after `d` tokens of the active engine. -/
theorem swap_tokens (hbody : Completion body m)
    (he : env.Engines reader limit h body engine a b p) {d : ℕ} {u : Upstream}
    (hd : d ≤ (clientActive env h body a).chunks.length)
    (hu : clientStandby env h body b ((d : ℤ) - 1) = .ok u) :
    (accepted TokenChunk.sequenceId ((clientActive env h body a).chunks.take d ++ u.chunks)).map
      TokenChunk.token = engine.corpus.take (d + m) := by
  have hA := engines_active hbody he
  obtain ⟨u', hu', hc⟩ := carries_clientStandby hbody he.handsOut he.fits (he.standby .standby) d
  obtain rfl : u = u' := by simpa [hu] using hu'
  have hlen := congrArg List.length hA.tokens
  simp only [List.length_map, List.length_take] at hlen
  rw [hA.accepted_tokens hc hd le_rfl, Nat.sub_self, List.drop_zero, List.take_take, List.take_take,
    show min (min d p) m = min d (d + m) by omega, ← List.take_take, List.take_append_drop]

end

namespace IngressProxy

variable {env : Env} {reader : LineReader} {limit h : ℕ} {engine : MockLLMEngine} {a b : String}
  {p m : ℕ} {body : List (List Char × Json)}

/-- In every run in which one alert comes in before the end of the active
upstream has been seen (the request may come before or after it), the client
gets `corpus[:m]` and the end of stream signal; and while it has not got them,
it does with the time that passes. -/
def Invisible (env : Env) (h : ℕ) (engine : MockLLMEngine) (a b : String)
    (body : List (List Char × Json)) (m : ℕ) : Prop :=
  ∀ ls₁ p data cutoff ls₂ q, Machine.run (step env) (new a b) ls₁ = some p →
    ((p.system.generators h).point = .absent ∨ (p.system.generators h).InPhase1) →
    cutoffOf data = some cutoff →
    Machine.run (step env) p (.preemptionAlert data :: ls₂) = some q →
    Machine.Along (step env) (fun _ _ q => Sole h q) (new a b)
      (ls₁ ++ .preemptionAlert data :: ls₂) →
    (∀ l ∈ ls₁ ++ ls₂, Quiet h body l) →
    (∀ o, (q.system.generators h).point = .ended o → o = .completed ∧
      (q.system.generators h).delivered.map TokenChunk.token = engine.corpus.take m ∧
      (q.system.generators h).items.filter (· ≠ .keepAlive) =
        (q.system.generators h).delivered.map .data ++ [.done]) ∧
    ((q.handlers h).point = .relaying → ∃ k q',
      Machine.run (step env) q (List.replicate k (relayTick h)).flatten = some q' ∧
        (q'.system.generators h).point = .ended .completed)

/-- The tokens the client gets if the alert is in time. -/
theorem delivered_of_swap {q : IngressProxy} (hbody : Completion body m)
    (he : env.Engines reader limit h body engine (rstripSlash a) (rstripSlash b) p)
    (hq : Course env h body (rstripSlash a) (rstripSlash b)
      (clientActive env h body (rstripSlash a)) (fun _ => True) False q)
    (ho : (q.system.generators h).point = .ended .completed) :
    ∃ d, AtSwap (clientActive env h body (rstripSlash a)) d ∧
      (q.system.generators h).delivered.map TokenChunk.token = engine.corpus.take (d + m) := by
  obtain ⟨-, hroute, hdel, -⟩ := tracked_ended hq.tracked ho
  rcases hroute with ⟨d, u, -, hd, hu, hpull⟩ | ⟨hf, -⟩
  · refine ⟨d, hd, ?_⟩
    rw [hdel, hpull]
    exact swap_tokens hbody he hd.1 hu
  · exact hf.elim

theorem invisible (hbody : Completion body m)
    (he : env.Engines reader limit h body engine (rstripSlash a) (rstripSlash b) p)
    (hm : engine.corpus.length ≤ m ∨ p = 0) : Invisible env h engine a b body m := by
  intro ls₁ p₁ data cutoff ls₂ q hr₁ hphase hc hr₂ hsole hquiet
  have hA := smooth_engines hbody he (engines_active hbody he)
  have hB := smooth_engines hbody he (engines_standby hbody he)
  have hp₁ := course_run hA hbody.stream (course_new a b) hr₁ hsole.append_left fun l hl =>
    hquiet l (List.mem_append_left _ hl)
  obtain ⟨p₂, hp₂, hr₂⟩ := Machine.run_cons_eq_some.mp hr₂
  have halert := (hsole.append_right hr₁) p₂ hp₂
  have hquiet₂ : ∀ l ∈ ls₂, Quiet h body l := fun l hl => hquiet l (List.mem_append_right _ hl)
  by_cases habs : (p₁.system.generators h).point = .absent
  · have hcourse := course_alert_early hA hp₁ (.of_step hp₂) halert.1 habs (fun _ _ => trivial)
      hbody.stream
    have hst : Straight (clientActive env h body (rstripSlash b)) h p₂.system := by
      refine straight_of_absent ?_
      rcases (Stepped.of_step hp₂).generator h with hg | ⟨hl, -⟩ | ⟨hl, -⟩ | ⟨hl | hl, -⟩
      · rw [hg, habs]
      all_goals cases hl
    obtain ⟨hq, hst⟩ := course_run_straight hB hbody.stream hcourse hst hr₂ halert.2 hquiet₂
    refine course_outcome hB hbody.stream hq fun ho => ?_
    rw [tracked_direct_completed hq.tracked hB hst ho]
    exact (engines_standby hbody he).tokens
  · have hcourse := course_alert hA hp₁ (.of_step hp₂) halert.1 (hphase.resolve_left habs) hc
      hbody.stream
    have hq := course_run hA hbody.stream hcourse hr₂ halert.2 hquiet₂
    refine course_outcome hA hbody.stream hq fun ho => ?_
    obtain ⟨d, hd, htok⟩ := delivered_of_swap hbody he hq ho
    rw [htok]
    rcases hm with hm | rfl
    · rw [List.take_of_length_le (by omega), List.take_of_length_le hm]
    · have hlen := congrArg List.length (engines_active hbody he).tokens
      have hd0 : d = 0 := by
        have := hd.1
        simp only [List.length_map, List.take_zero, List.length_nil] at hlen
        omega
      rw [hd0, Nat.zero_add]

/-- Without an alert the client gets what the active engine serves. -/
theorem delivered_unpreempted {ls : List ProxyLabel} {q : IngressProxy} (hbody : Completion body m)
    (he : env.Engines reader limit h body engine (rstripSlash a) (rstripSlash b) p)
    (hr : Machine.run (step env) (new a b) ls = some q)
    (hs : Machine.Along (step env) (fun _ _ q => Sole h q) (new a b) ls)
    (hl : ∀ l ∈ ls, Quiet h body l) {o : Outcome} (ho : (q.system.generators h).point = .ended o) :
    (q.system.generators h).delivered.map TokenChunk.token = (engine.corpus.take m).take p := by
  have hA := smooth_engines hbody he (engines_active hbody he)
  obtain ⟨hq, hst⟩ := course_run_straight hA hbody.stream (course_new a b)
    (straight_of_absent rfl) hr hs hl
  obtain ⟨rfl, -⟩ := tracked_ended hq.tracked ho
  rw [tracked_direct_completed hq.tracked hA hst ho]
  exact (engines_active hbody he).tokens

/-- An alert as the first token is awaited: the client gets tokens over its
budget. -/
theorem not_invisible (hbody : Completion body m)
    (he : env.Engines reader limit h body engine (rstripSlash a) (rstripSlash b) p) (hm : 1 ≤ m)
    (hlen : m < engine.corpus.length) (hp : p ≠ 0) : ¬ Invisible env h engine a b body m := by
  intro hinv
  have hA := smooth_engines hbody he (engines_active hbody he)
  let data : Json := .obj []
  obtain ⟨p₁, hr₁, hrelay, hpoint⟩ := run_to_relay env h a b hbody.requestId hbody.stream
  obtain ⟨p₂, hp₂, hsame⟩ := alert_enabled env p₁ data
  let ls : List ProxyLabel := [.request h, .body h (some (.obj body)), .prepared h]
  have habout : ∀ l ∈ ls ++ [.preemptionAlert data], About h l := by simp [ls, About]
  have hquiet : ∀ l ∈ ls, Quiet h body l := by
    simp [ls, Quiet, ProxyLabel.Reads]
  have hsole := @along_sole_of_about env h a b _ habout
  have hphase : (p₁.system.generators h).InPhase1 := by simp [Generator.InPhase1, hpoint]
  have hp₁ := course_run hA hbody.stream (course_new a b) hr₁ hsole.append_left hquiet
  have hcourse := course_alert hA hp₁ (.of_step hp₂) ((hsole.append_right hr₁) p₂ hp₂).1 hphase
    (show cutoffOf data = some (-1) from rfl) hbody.stream
  obtain ⟨n, hn⟩ := exists_bounded (clientActive env h body (rstripSlash a))
    (clientStandby env h body (rstripSlash b))
  obtain ⟨k, q, hq, -, hend, hret⟩ := course_completes hA hbody.stream hn p₂ hcourse
    (by rw [hsame, hrelay])
  have htok := ((hinv ls p₁ data (-1) _ q hr₁ (Or.inr hphase) rfl
    (Machine.run_cons_eq_some.mpr ⟨p₂, hp₂, hq⟩)
    (along_sole_of_about fun l hl => ?_) fun l hl => ?_).1 _ (hend.returned hret)).2.1
  · obtain ⟨d, hd, hd'⟩ := delivered_of_swap hbody he hend (hend.returned hret)
    -- the active engine serves a token, so it is left after one at least
    have hpos : d ≠ 0 := by
      intro hd0
      have hnil := congrArg List.length (engines_active hbody he).tokens
      rw [hd.2 hd0] at hnil
      simp only [List.map_nil, List.length_nil, List.length_take] at hnil
      omega
    have := congrArg List.length (hd'.symm.trans htok)
    simp only [List.length_take] at this
    omega
  · rcases List.mem_append.mp hl with hl | hl
    · exact habout l (List.mem_append_left _ hl)
    · rcases List.mem_cons.mp hl with rfl | hl
      · trivial
      · exact about_ticks h k l hl
  · rcases List.mem_append.mp hl with hl | hl
    · exact hquiet l hl
    · exact quiet_ticks h body k l hl

/-- A migration is invisible to the client that asks for `m` tokens if and only
if the corpus ends within them, or the active engine is paused before its first
token. -/
theorem handleChatCompletions_migration (hbody : Completion body m) (hm : 1 ≤ m)
    (he : env.Engines reader limit h body engine (rstripSlash a) (rstripSlash b) p) :
    Invisible env h engine a b body m ↔ engine.corpus.length ≤ m ∨ p = 0 := by
  constructor
  · intro hinv
    by_contra hne
    rw [not_or, not_le] at hne
    exact not_invisible hbody he hm hne.1 hne.2 hinv
  · exact invisible hbody he

def twoTokens : MockLLMEngine := ⟨["a", "b"], by decide, by decide, by decide⟩

/-- Two engines with one corpus; the one not at `http://b` is paused at token `p`. -/
def twoEngines (p : ℕ) : Env where
  post _ _ url body :=
    match body with
    | .obj body =>
      (LineReader.bounded LineReader.usualLimit).reply <|
        if url = completionsUrl "http://b" then
          twoTokens.handleChatCompletions (fun _ => []) 0 (fun _ => false) body
        else twoTokens.handleChatCompletions (fun _ => []) 0 (MockLLMEngine.pausedFrom p) body
    | _ => .refused
  show_ _ := []
  uuid _ := "u"

/-- A request for one token. -/
def oneToken : List (List Char × Json) :=
  [("request_id".toList, .text ['r']), ("max_tokens".toList, .int 1)]

theorem completion_oneToken : Completion oneToken 1 where
  stream := rfl
  requestId := rfl
  start := rfl
  maxTokens := rfl

/-- The events of the two tokens, for a request `r`. -/
theorem fits_twoTokens : twoTokens.Fits LineReader.usualLimit (.ofString "r") where
  event k token isLast hk l hl := by
    have hevents : ∀ token ∈ twoTokens.corpus, ∀ k < 2, ∀ isLast,
        (MockLLMEngine.event (.ofString "r") token (k : ℕ) isLast).length ≤ LineReader.usualLimit := by
      decide +kernel
    obtain ⟨hlt, -⟩ := List.getElem?_eq_some_iff.mp hk
    exact (length_le_of_mem_contentLines hl).trans
      (hevents token (List.mem_of_getElem? hk) k hlt isLast)
  done l hl := by
    have hdone : MockLLMEngine.doneLine.length ≤ LineReader.usualLimit := by decide +kernel
    exact (length_le_of_mem_contentLines hl).trans hdone

theorem engines_twoEngines (h p : ℕ) {body : List (List Char × Json)}
    (hid : Json.field? body "request_id".toList = some (.text ['r'])) :
    (twoEngines p).Engines (LineReader.bounded LineReader.usualLimit) LineReader.usualLimit h body twoTokens
      (rstripSlash "http://a") (rstripSlash "http://b") p where
  handsOut := LineReader.handsOut_bounded LineReader.usualLimit
  fits := by
    have hr : requestIdOf (twoEngines p) h body = "r" := by
      simp only [requestIdOf, hid]
      rfl
    rw [hr]
    exact fits_twoTokens
  active c body := by
    have ha : completionsUrl (rstripSlash "http://a") ≠ completionsUrl "http://b" := by
      decide +kernel
    refine ⟨0, ?_⟩
    simp only [twoEngines, if_neg ha]
  standby c body := by
    have hb : completionsUrl (rstripSlash "http://b") = completionsUrl "http://b" := by
      decide +kernel
    refine ⟨0, ?_⟩
    simp only [twoEngines, if_pos hb]

theorem handleChatCompletions_migration_oneToken :
    Invisible (twoEngines 2) 0 twoTokens "http://a" "http://b" oneToken 1 ↔
      twoTokens.corpus.length ≤ 1 ∨ 2 = 0 :=
  handleChatCompletions_migration completion_oneToken le_rfl (engines_twoEngines 0 2 rfl)

/-- The stream is opened. -/
def opened : List ProxyLabel :=
  [.request 0, .body 0 (some (.obj oneToken)), .prepared 0]

/-- The active engine serves its token, then the standby another one. -/
def overrun : List ProxyLabel :=
  [.resume 0, .resume 0, .resume 0, .handoverReady (.obj [("request_id".toList, .text ['r'])]),
    .resume 0, .resume 0, .resume 0, .resume 0, .resume 0, .resume 0]

/-- The client that asks for one token gets two. -/
theorem not_invisible_oneToken :
    ¬ Invisible (twoEngines 2) 0 twoTokens "http://a" "http://b" oneToken 1 := by
  intro hinv
  have hopen : (Machine.run (step (twoEngines 2)) (new "http://a" "http://b") opened).map
      (fun p => decide (p.system.generators 0).InPhase1) = some true := by decide +kernel
  have hover : (Machine.run (step (twoEngines 2)) (new "http://a" "http://b")
      (opened ++ .preemptionAlert (.obj []) :: overrun)).map (fun q =>
        ((q.system.generators 0).point,
          (q.system.generators 0).delivered.map TokenChunk.token)) =
      some (.ended .completed, [PyStr.ofString "a", PyStr.ofString "b"]) := by decide +kernel
  obtain ⟨q, hq, hres⟩ := Option.map_eq_some_iff.mp hover
  obtain ⟨p, hp, hr⟩ := Machine.run_append_eq_some.mp hq
  obtain ⟨hpoint, htokens⟩ := Prod.mk.inj hres
  have hphase : (p.system.generators 0).InPhase1 := by
    rw [hp] at hopen
    simpa using hopen
  have htok := ((hinv opened p (.obj []) (-1) overrun q hp (Or.inr hphase) rfl hr
    (along_sole_of_about (by simp [opened, overrun, About]))
    (by simp [opened, overrun, Quiet, ProxyLabel.Reads])).1 _ hpoint).2.1
  rw [htokens] at htok
  cases htok

end IngressProxy
end Sgm
