/-
# End of generation

An upstream ends its generation with `data: [DONE]`. To the multiplexer the
end of an upstream's iteration is the same with and without it: it goes on to
the standby if the preemption has been signalled by then, and ends the client's
stream otherwise. At the cutoff it leaves the active upstream whatever is still
to come, its `[DONE]` too, which may have been sent by then (`DoneSent`). So the
client's stream ends as the upstreams say as long as signal and stream agree
where the multiplexer decides (`Heeds`).

Key definitions: `DoneSent`, `EndsAsSaid`, `Heeds`, `DoneLine`.
Key theorems: `sseChunkGenerator_done_iff`, `endsAsSaid_concat`, `unended_resumed`,
`IngressProxy.handleChatCompletions_endsAsSaid`.
-/
import Sgm.Proxy.Ingress
import Sgm.Proxy.Swap

namespace Sgm

open StreamMultiplexer Text

/-! ### What an upstream says -/

/-- A line that strips to `data:` and, after it, to `[DONE]`. -/
def DoneLine (lineBytes : Bytes) : Prop :=
  ∃ text, decodeUtf8 lineBytes = some text ∧ "data:".toList.isPrefixOf (strip text) ∧
    strip ((strip text).drop 5) = "[DONE]".toList

theorem readLine_done_iff (rid : String) (l : Bytes) (seq : ℤ) :
    readLine rid l seq = .done ↔ DoneLine l := by
  unfold readLine DoneLine
  cases decodeUtf8 l with
  | none => simp
  | some text =>
    simp only [Option.some.injEq, exists_eq_left']
    cases hs : strip text with
    | nil => simp
    | cons c t =>
      rw [if_neg (by simp)]
      by_cases hid : "id:".toList.isPrefixOf (c :: t) = true
      · rw [if_pos hid]
        refine iff_of_false (by simp) fun h => ?_
        obtain ⟨r, hr⟩ := List.isPrefixOf_iff_prefix.mp hid
        obtain ⟨r', hr'⟩ := List.isPrefixOf_iff_prefix.mp h.1
        simp [← hr] at hr'
      · rw [if_neg hid]
        by_cases hdata : "data:".toList.isPrefixOf (c :: t) = true
        · rw [if_pos hdata]
          by_cases hd : strip ((c :: t).drop 5) = "[DONE]".toList
          · rw [if_pos hd]
            exact iff_of_true rfl ⟨hdata, hd⟩
          · rw [if_neg hd]
            refine iff_of_false ?_ fun h => hd h.2
            split <;> simp
        · rw [if_neg hdata]
          exact iff_of_false (by simp) fun h => hdata h.1

theorem readLine_failed_iff (rid : String) (l : Bytes) (seq : ℤ) :
    readLine rid l seq = .failed ↔ decodeUtf8 l = none := by
  unfold readLine
  cases decodeUtf8 l with
  | none => simp
  | some text =>
    refine iff_of_false ?_ (by simp)
    dsimp only
    split_ifs
    · simp
    · simp
    · simp
    · split <;> simp
    · simp

/-- The reading ends with the upstream's `[DONE]` if such a line comes in
before the first that cannot be decoded. -/
theorem readLines_done_iff (rid : String) (ls : List Bytes) (seq : ℤ) :
    (readLines rid ls seq).ending = .done ↔ ∃ pre l post, ls = pre ++ l :: post ∧ DoneLine l ∧
      ∀ l' ∈ pre, decodeUtf8 l' ≠ none := by
  induction ls generalizing seq with
  | nil => simp [readLines]
  | cons l ls ih =>
    by_cases hdone : DoneLine l
    · have hend : (readLines rid (l :: ls) seq).ending = .done := by
        rw [readLines, (readLine_done_iff rid l seq).mpr hdone]
      exact iff_of_true hend ⟨[], l, ls, rfl, hdone, by simp⟩
    · have hskip : (∃ pre l' post, l :: ls = pre ++ l' :: post ∧ DoneLine l' ∧
          ∀ x ∈ pre, decodeUtf8 x ≠ none) ↔ decodeUtf8 l ≠ none ∧
          ∃ pre l' post, ls = pre ++ l' :: post ∧ DoneLine l' ∧ ∀ x ∈ pre, decodeUtf8 x ≠ none := by
        constructor
        · rintro ⟨pre, l', post, heq, hl', hpre⟩
          cases pre with
          | nil =>
            obtain ⟨rfl, -⟩ := List.cons.inj heq
            exact absurd hl' hdone
          | cons x pre =>
            obtain ⟨rfl, rfl⟩ := List.cons.inj heq
            exact ⟨hpre l List.mem_cons_self, pre, l', post, rfl, hl',
              fun y hy => hpre y (List.mem_cons_of_mem l hy)⟩
        · rintro ⟨hl, pre, l', post, rfl, hl', hpre⟩
          refine ⟨l :: pre, l', post, rfl, hl', fun x hx => ?_⟩
          rcases List.mem_cons.mp hx with rfl | hx
          · exact hl
          · exact hpre x hx
      rw [hskip]
      rw [readLines]
      split
      · rename_i h
        have := (readLine_failed_iff rid l seq).mp h
        exact iff_of_false (by simp) fun hn => hn.1 this
      · rename_i h
        exact absurd ((readLine_done_iff rid l seq).mp h) hdone
      · rename_i h
        have hne : decodeUtf8 l ≠ none := fun hn => by simp [(readLine_failed_iff rid l seq).mpr hn] at h
        rw [ih, and_iff_right hne]
      · rename_i h
        have hne : decodeUtf8 l ≠ none := fun hn => by simp [(readLine_failed_iff rid l seq).mpr hn] at h
        rw [ih, and_iff_right hne]

theorem sseChunkGenerator_done_iff (post : String → Json → Reply) (url : String) (body : Json)
    (rid : String) : (sseChunkGenerator post url body rid).ending = .done ↔
      ∃ e pre l rest, post url body = .response 200 (pre ++ l :: rest) e ∧ DoneLine l ∧
        ∀ l' ∈ pre, decodeUtf8 l' ≠ none := by
  unfold sseChunkGenerator
  split
  · rename_i h
    simp [h]
  · rename_i status lines e h
    simp only [h, Reply.response.injEq]
    split_ifs with hs
    · simp [hs]
    · rw [readLines_done_iff]
      constructor
      · rintro ⟨pre, l, rest, hl, h⟩
        exact ⟨e, pre, l, rest, ⟨not_not.mp hs, hl, rfl⟩, h⟩
      · rintro ⟨_, pre, l, rest, ⟨-, hl, -⟩, h⟩
        exact ⟨pre, l, rest, hl, h⟩

/-! ### What the client is told -/

/-- How the reading of the upstream contacted last ended, if it has. -/
def lastEnd (log : List Event) : Option UpstreamEnd :=
  log.foldl (fun ending e =>
    match e with
    | .connected => none
    | .upstreamEnded ending => some ending
    | _ => ending) none

/-- The active upstream sends `[DONE]`, be it read or not, before the standby can
be contacted. Whether it is so `early` with its stream is up to it. -/
def DoneSent (early : Bool) (ending : UpstreamEnd) : Prop := early = true ∧ ending = .done

instance (early : Bool) (ending : UpstreamEnd) : Decidable (DoneSent early ending) :=
  inferInstanceAs (Decidable (_ ∧ _))

/-- The client is told the end of generation only after the upstream contacted
last has said so; after an upstream has, no other is contacted and no token is
sent; and where the active upstream has `sent` its `[DONE]`, though it be
unread, no other is contacted at all. -/
structure EndsAsSaid (sent : Prop) (log : List Event) : Prop where
  done : ∀ pre post, log = pre ++ .sent .done :: post → lastEnd pre = some .done
  nothingMore : ∀ pre post, log = pre ++ .upstreamEnded .done :: post →
    .connected ∉ post ∧ ∀ c, .sent (.data c) ∉ post
  alone : sent → ∀ pre post, log = pre ++ .connected :: post → .connected ∉ post

variable {sent : Prop}

theorem endsAsSaid_nil : EndsAsSaid sent [] where
  done _ _ h := by simp at h
  nothingMore _ _ h := by simp at h
  alone _ _ _ h := by simp at h

/-- A split of a list at one of its items is one at the last, or one of what
comes before. -/
theorem concat_eq_append_cons {α : Type*} {l pre post : List α} {x y : α} :
    l ++ [x] = pre ++ y :: post ↔
      (pre = l ∧ y = x ∧ post = []) ∨ ∃ post', post = post' ++ [x] ∧ l = pre ++ y :: post' := by
  constructor
  · intro h
    rcases List.eq_nil_or_concat post with rfl | ⟨post', z, rfl⟩
    · obtain ⟨h1, h2⟩ := List.append_inj' h rfl
      exact Or.inl ⟨h1.symm, (List.cons.inj h2).1.symm, rfl⟩
    · rw [List.concat_eq_append, ← List.cons_append, ← List.append_assoc] at h
      obtain ⟨h1, h2⟩ := List.append_inj' h rfl
      obtain ⟨rfl, -⟩ := List.cons.inj h2
      exact Or.inr ⟨post', List.concat_eq_append, h1⟩
  · rintro (⟨rfl, rfl, rfl⟩ | ⟨post', rfl, rfl⟩)
    · rfl
    · simp

/-- One more event: an end of generation that has been said, a contact or a
token before any, and a contact that is the only one if need be. -/
theorem endsAsSaid_concat {log : List Event} {e : Event} (h : EndsAsSaid sent log)
    (hdone : e = .sent .done → lastEnd log = some .done)
    (hmore : e = .connected ∨ (∃ c, e = .sent (.data c)) → .upstreamEnded .done ∉ log)
    (halone : e = .connected → sent → .connected ∉ log) : EndsAsSaid sent (log ++ [e]) := by
  constructor
  · intro pre post hl
    rcases concat_eq_append_cons.mp hl with ⟨rfl, rfl, -⟩ | ⟨post', -, hl⟩
    · exact hdone rfl
    · exact h.done pre post' hl
  · intro pre post hl
    rcases concat_eq_append_cons.mp hl with ⟨-, -, rfl⟩ | ⟨post', rfl, hlog⟩
    · simp
    · obtain ⟨h1, h2⟩ := h.nothingMore pre post' hlog
      have hmem : Event.upstreamEnded .done ∈ log := by simp [hlog]
      constructor
      · intro hc
        rcases List.mem_append.mp hc with hc | hc
        · exact h1 hc
        · exact hmore (Or.inl (List.mem_singleton.mp hc).symm) hmem
      · intro c hc
        rcases List.mem_append.mp hc with hc | hc
        · exact h2 c hc
        · exact hmore (Or.inr ⟨c, (List.mem_singleton.mp hc).symm⟩) hmem
  · intro hend pre post hl
    rcases concat_eq_append_cons.mp hl with ⟨-, -, rfl⟩ | ⟨post', rfl, hlog⟩
    · simp
    · intro hc
      rcases List.mem_append.mp hc with hc | hc
      · exact h.alone hend pre post' hlog hc
      · exact halone (List.mem_singleton.mp hc).symm hend (by simp [hlog])

@[simp] theorem lastEnd_upstreamEnded (log : List Event) (ending : UpstreamEnd) :
    lastEnd (log ++ [.upstreamEnded ending]) = some ending := by
  simp [lastEnd]

/-- An event that neither contacts an upstream nor sends a token or the end. -/
theorem EndsAsSaid.quiet {log : List Event} (h : EndsAsSaid sent log) {e : Event}
    (he : e ≠ .sent .done) (hc : e ≠ .connected) (hd : ∀ c, e ≠ .sent (.data c)) :
    EndsAsSaid sent (log ++ [e]) :=
  endsAsSaid_concat h (fun heq => absurd heq he)
    (fun heq => heq.elim (fun heq => absurd heq hc) fun ⟨c, heq⟩ => absurd heq (hd c))
    fun heq => absurd heq hc

theorem EndsAsSaid.pulled {log : List Event} (h : EndsAsSaid sent log) (c : TokenChunk) :
    EndsAsSaid sent (log ++ [.pulled c]) := h.quiet (by simp) (by simp) (by simp)

theorem EndsAsSaid.upstreamEnded {log : List Event} (h : EndsAsSaid sent log) (e : UpstreamEnd) :
    EndsAsSaid sent (log ++ [.upstreamEnded e]) := h.quiet (by simp) (by simp) (by simp)

theorem EndsAsSaid.token {log : List Event} (h : EndsAsSaid sent log)
    (hu : .upstreamEnded .done ∉ log) (c : TokenChunk) :
    EndsAsSaid sent (log ++ [.pulled c, .sent (.data c)]) := by
  have hp := h.pulled c
  have hd : EndsAsSaid sent (log ++ [.pulled c] ++ [.sent (.data c)]) :=
    endsAsSaid_concat hp (by simp) (fun _ => by simpa using hu) (by simp)
  rwa [List.append_assoc] at hd

theorem EndsAsSaid.count_connected {log : List Event} (h : EndsAsSaid sent log) (hsent : sent) :
    log.count .connected ≤ 1 := by
  by_cases hmem : Event.connected ∈ log
  · obtain ⟨pre, post, rfl, hpre⟩ := List.eq_append_cons_of_mem hmem
    rw [List.count_append, List.count_cons_self, List.count_eq_zero.mpr hpre,
      List.count_eq_zero.mpr (h.alone hsent pre post rfl)]
  · rw [List.count_eq_zero.mpr hmem]
    exact Nat.zero_le 1

/-- Nothing is contacted after what has said that it is done. -/
theorem EndsAsSaid.connected_not_mem {log : List Event} (h : EndsAsSaid sent log) :
    .connected ∉ (log.dropWhile (· ≠ .upstreamEnded .done)).tail := by
  have hsplit := List.takeWhile_append_dropWhile (p := fun e => decide (e ≠ .upstreamEnded .done)) (l := log)
  cases hdrop : log.dropWhile (· ≠ .upstreamEnded .done) with
  | nil => exact List.not_mem_nil
  | cons e post =>
    have hne : log.dropWhile (· ≠ .upstreamEnded .done) ≠ [] := by
      rw [hdrop]
      exact List.cons_ne_nil e post
    have he : e = .upstreamEnded .done := by
      have hhead := List.head_dropWhile_not _ hne
      simp only [hdrop, List.head_cons] at hhead
      simpa using hhead
    rw [hdrop, he] at hsplit
    exact (h.nothingMore _ post hsplit.symm).1

/-! ### One resumption -/

/-- The cutoff has been reached with this chunk. -/
def ReachedCutoff (m : StreamMultiplexer) (g : Generator) (chunk : TokenChunk) : Prop :=
  (m.heap g.session).preemptionSignaled = true ∧ (m.heap g.session).cutoffSequenceId ≥ 0 ∧
    chunk.sequenceId ≥ (m.heap g.session).cutoffSequenceId

/-- The chunk of the active upstream that the cutoff is looked at for when the
generator goes on: the one just sent, or the next one if it is a replay. -/
def Generator.checked (m : StreamMultiplexer) (g : Generator) : Option TokenChunk :=
  match g.point, g.active.chunks with
  | .yieldedActive chunk, _ => some chunk
  | .pullActive, chunk :: _ =>
    if chunk.sequenceId ≤ m.deduplicator.getLastFlushed g.requestId then some chunk else none
  | _, _ => none

/-- Where the multiplexer decides, signal and stream agree. -/
structure Heeds (early : Bool) (m : StreamMultiplexer) (g : Generator) : Prop where
  /-- the active upstream breaks off -/
  closed : g.point = .pullActive → g.active = ⟨[], .closed⟩ →
    (m.heap g.session).preemptionSignaled = true
  /-- what comes next from it is `[DONE]` -/
  done : g.point = .pullActive → g.active = ⟨[], .done⟩ →
    (m.heap g.session).preemptionSignaled = false
  /-- where it is left at the cutoff, no `[DONE]` is sent that stays unread -/
  cutoff : ∀ chunk ∈ g.checked m, ReachedCutoff m g chunk → ¬ DoneSent early g.active.ending
  /-- the standby does not break off -/
  standby : g.point = .pullStandby → g.standby ≠ ⟨[], .closed⟩

instance (m : StreamMultiplexer) (g : Generator) (chunk : TokenChunk) :
    Decidable (ReachedCutoff m g chunk) := inferInstanceAs (Decidable (_ ∧ _ ∧ _))

instance (early : Bool) (m : StreamMultiplexer) (g : Generator) : Decidable (Heeds early m g) :=
  decidable_of_iff
    ((g.point = .pullActive → g.active = ⟨[], .closed⟩ → (m.heap g.session).preemptionSignaled = true) ∧
      (g.point = .pullActive → g.active = ⟨[], .done⟩ → (m.heap g.session).preemptionSignaled = false) ∧
      (∀ chunk ∈ g.checked m, ReachedCutoff m g chunk → ¬ DoneSent early g.active.ending) ∧
      (g.point = .pullStandby → g.standby ≠ ⟨[], .closed⟩))
    ⟨fun ⟨hc, hd, hk, hs⟩ => ⟨hc, hd, hk, hs⟩, fun h => ⟨h.closed, h.done, h.cutoff, h.standby⟩⟩

/-- Before the end: no upstream that is read has said that it is done, and the
active one is not left with a `[DONE]` that it has sent. -/
structure Unended (early : Bool) (g : Generator) : Prop where
  idle : ¬ g.Started → g.log = []
  reading : g.InPhase1 ∨ g.Buffering ∨ g.InPhase3 → .upstreamEnded .done ∉ g.log
  swapping : g.Buffering ∨ g.InPhase3 → ¬ DoneSent early g.active.ending
  endsAsSaid : EndsAsSaid (DoneSent early g.active.ending) g.log

section
variable {early : Bool} {m : StreamMultiplexer} {g : Generator}

/-- The active upstream is read on. -/
theorem Unended.of_phase1 (hp : g.point = .pullActive ∨ ∃ c, g.point = .yieldedActive c)
    (hu : .upstreamEnded .done ∉ g.log) (h : EndsAsSaid (DoneSent early g.active.ending) g.log) :
    Unended early g where
  idle hn := by
    rcases hp with hp | ⟨c, hp⟩ <;> exact absurd ⟨by simp [hp], by simp [hp]⟩ hn
  reading _ := hu
  swapping hs := by
    rcases hp with hp | ⟨c, hp⟩ <;> simp [Generator.Buffering, Generator.InPhase3, hp] at hs
  endsAsSaid := h

/-- The stream is swapped, or has been. -/
theorem Unended.of_live (hl : g.Live) (hu : .upstreamEnded .done ∉ g.log)
    (he : ¬ DoneSent early g.active.ending) (h : EndsAsSaid (DoneSent early g.active.ending) g.log) :
    Unended early g :=
  ⟨fun hn => absurd hl.started hn, fun _ => hu, fun _ => he, h⟩

/-- The generator reads no upstream any more. -/
theorem Unended.of_over (hp : g.point = .yieldedDone ∨ ∃ o, g.point = .ended o)
    (h : EndsAsSaid (DoneSent early g.active.ending) g.log) : Unended early g := by
  refine ⟨fun hn => ?_, fun hr => ?_, fun hs => ?_, h⟩
  · rcases hp with hp | ⟨o, hp⟩ <;> exact absurd ⟨by simp [hp], by simp [hp]⟩ hn
  · rcases hp with hp | ⟨o, hp⟩ <;>
      simp [Generator.InPhase1, Generator.Buffering, Generator.InPhase3, hp] at hr
  · rcases hp with hp | ⟨o, hp⟩ <;> simp [Generator.Buffering, Generator.InPhase3, hp] at hs

theorem unended_buffered {r : StreamMultiplexer × Generator} (hb : Buffered m g r)
    (hsame : r.2.active = g.active) (hu : .upstreamEnded .done ∉ g.log)
    (he : ¬ DoneSent early g.active.ending) (h : EndsAsSaid (DoneSent early g.active.ending) g.log) :
    Unended early r.2 := by
  rcases hb.log with hl | hl
  · refine Unended.of_live hb.buffering.live ?_ ?_ ?_
    · rwa [hl]
    · rwa [hsame]
    · rwa [hl, hsame]
  · refine Unended.of_live hb.buffering.live ?_ ?_ ?_
    · simpa [hl] using hu
    · rwa [hsame]
    · rw [hl, hsame]
      exact h.quiet (by simp) (by simp) (by simp)

theorem unended_endOfStream (h : EndsAsSaid (DoneSent early g.active.ending) g.log)
    (hend : lastEnd g.log = some .done) : Unended early (m.endOfStream g).2 :=
  .of_over (Or.inl rfl) (endsAsSaid_concat h (fun _ => hend) (by simp) (by simp))

theorem unended_raise (e : Exc) (h : EndsAsSaid (DoneSent early g.active.ending) g.log) :
    Unended early (m.raise g e).2 := by
  obtain ⟨⟨e', he⟩, hl⟩ := raise_spec m g e
  refine .of_over (Or.inr ⟨_, he⟩) ?_
  rwa [hl, active_raise]

theorem unended_checkCutoff (now : ℕ) (c : TokenChunk)
    (h : EndsAsSaid (DoneSent early g.active.ending) g.log) (hu : .upstreamEnded .done ∉ g.log)
    (hc : ReachedCutoff m g c → ¬ DoneSent early g.active.ending) : Unended early (m.checkCutoff now g c).2 := by
  by_cases hr : ReachedCutoff m g c
  · have hleave : m.checkCutoff now g c = m.afterActive now g := if_pos hr
    rcases afterActive_spec now m g with ⟨-, hb⟩ | ⟨hns, -⟩
    · rw [hleave]
      exact unended_buffered hb (active_afterActive now m g) hu (hc hr) h
    · rw [hr.1] at hns
      cases hns
  · have hstay : m.checkCutoff now g c = (m, g.at_ .pullActive) := if_neg hr
    rw [hstay]
    exact .of_phase1 (Or.inl rfl) hu h

/-- A resumption in which signal and stream agree. -/
theorem unended_resumed {now i : ℕ} {r : StreamMultiplexer × Generator}
    (h : Resumed now i m g r) (hg : Unended early g) (hh : Heeds early m g) : Unended early r.2 := by
  have hends := hg.endsAsSaid
  cases h with
  | start hp =>
    have hlog : g.log = [] := hg.idle fun hs => hs.2 hp
    refine .of_phase1 (Or.inl rfl) ?_ ?_
    · simp [Generator.record, hlog]
    · exact endsAsSaid_concat hends (by simp) (fun _ => by simp [hlog]) fun _ _ => by simp [hlog]
  | dropActive c rest hp hc hs =>
    have hu := hg.reading (Or.inl (by simp [Generator.InPhase1, hp]))
    exact unended_checkCutoff now c (hends.pulled c) (by simpa [Generator.record] using hu)
      (hh.cutoff c (by simp [Generator.checked, hp, hc, hs]))
  | acceptActive c rest d hp hc hs hd he =>
    have hu := hg.reading (Or.inl (by simp [Generator.InPhase1, hp]))
    refine .of_phase1 (Or.inr ⟨c, rfl⟩) ?_ ?_
    · simpa [Generator.emit, Generator.record, Generator.at_] using hu
    · simpa [Generator.emit, Generator.record, Generator.at_] using hends.token hu c
  | gapActive c rest msg hp hc hs => exact unended_raise _ (hends.pulled c)
  | endActive hp hc he =>
    have hu := hg.reading (Or.inl (by simp [Generator.InPhase1, hp]))
    have hquiet : EndsAsSaid (DoneSent early g.active.ending)
        (g.record (.upstreamEnded g.active.ending)).log :=
      hends.upstreamEnded _
    rcases afterActive_spec now m (g.record (.upstreamEnded g.active.ending)) with
      ⟨hsig, hb⟩ | ⟨hns, heq⟩
    · have hne : g.active.ending ≠ .done := fun hdone => by
        have hns := hh.done hp (by rw [← hc, ← hdone])
        rw [show (m.heap g.session).preemptionSignaled = true from hsig] at hns
        cases hns
      exact unended_buffered hb (active_afterActive now m _)
        (by simpa [Generator.record] using ⟨hu, hne.symm⟩) (fun hs => hne hs.2) hquiet
    · rw [heq]
      refine unended_endOfStream hquiet ?_
      have hdone : g.active.ending = .done := he.resolve_right fun hclosed => by
        have hsig := hh.closed hp (by rw [← hc, ← hclosed])
        rw [show (m.heap g.session).preemptionSignaled = false from hns] at hsig
        cases hsig
      rw [Generator.record, lastEnd_upstreamEnded, hdone]
  | raiseActive e hp hc he => exact unended_raise e (hends.upstreamEnded _)
  | resumeActive c hp =>
    exact unended_checkCutoff now c hends (hg.reading (Or.inl (by simp [Generator.InPhase1, hp])))
      (hh.cutoff c (by simp [Generator.checked, hp]))
  | resumeKeepAlive t hp =>
    have hb : g.Buffering := by simp [Generator.Buffering, hp]
    exact .of_live trivial (hg.reading (Or.inr (Or.inl hb))) (hg.swapping (Or.inl hb)) hends
  | wake since hp hw =>
    have hb : g.Buffering := by simp [Generator.Buffering, hp]
    exact unended_buffered (buffered_bufferingLoop now m g) (active_bufferingLoop now m g)
      (hg.reading (Or.inr (Or.inl hb))) (hg.swapping (Or.inl hb)) hends
  | connectStandby u hp hu =>
    have hb : g.Buffering := by simp [Generator.Buffering, hp]
    have hunsaid := hg.reading (Or.inr (Or.inl hb))
    have hne := hg.swapping (Or.inl hb)
    refine .of_live trivial ?_ hne ?_
    · simpa [Generator.record] using hunsaid
    · exact endsAsSaid_concat hends (by simp) (fun _ => hunsaid) fun _ hd => absurd hd hne
  | failStandby e hp hu => exact unended_raise e hends
  | dropStandby c rest hp hc hs =>
    have h3 : g.InPhase3 := by simp [Generator.InPhase3, hp]
    refine .of_live (by simp [Generator.Live, Generator.record, hp]) ?_ (hg.swapping (Or.inr h3))
      (hends.pulled c)
    simpa [Generator.record] using hg.reading (Or.inr (Or.inr h3))
  | acceptStandby c rest d hp hc hs hd he =>
    have h3 : g.InPhase3 := by simp [Generator.InPhase3, hp]
    have hu := hg.reading (Or.inr (Or.inr h3))
    refine .of_live trivial ?_ (hg.swapping (Or.inr h3)) ?_
    · simpa [Generator.emit, Generator.record, Generator.at_] using hu
    · simpa [Generator.emit, Generator.record, Generator.at_] using hends.token hu c
  | gapStandby c rest msg hp hc hs => exact unended_raise _ (hends.pulled c)
  | endStandby hp hc he =>
    refine unended_endOfStream (hends.upstreamEnded _) ?_
    have hdone : g.standby.ending = .done := he.resolve_right fun hclosed => by
      exact hh.standby hp (by rw [← hc, ← hclosed])
    rw [Generator.record, lastEnd_upstreamEnded, hdone]
  | raiseStandby e hp hc he => exact unended_raise e (hends.upstreamEnded _)
  | resumeStandby hp =>
    have h3 : g.InPhase3 := by simp [Generator.InPhase3, hp]
    exact .of_live trivial (hg.reading (Or.inr (Or.inr h3))) (hg.swapping (Or.inr h3)) hends
  | finish hp => exact .of_over (Or.inr ⟨_, rfl⟩) hends

theorem Unended.closed {g : Generator} (hg : Unended early g) : Unended early (g.at_ (.ended .closed)) :=
  .of_over (Or.inr ⟨_, rfl⟩) hg.endsAsSaid

end

/-! ### The proxy -/

namespace IngressProxy

variable {env : Env} {p q : IngressProxy} {l : ProxyLabel} {h : ℕ} {early : Bool}

theorem unended_new (a b : String) : Unended early ((new a b).system.generators h) :=
  ⟨fun _ => rfl, fun hr => (hr.elim id (Or.rec id id)).elim, fun hs => (hs.elim id id).elim, endsAsSaid_nil⟩

theorem unended_called (env : Env) (p : IngressProxy) (h : ℕ) : Unended early (p.called env h) :=
  ⟨fun _ => rfl, fun hr => (hr.elim id (Or.rec id id)).elim, fun hs => (hs.elim id id).elim, endsAsSaid_nil⟩

theorem heeds_called (env : Env) (p : IngressProxy) (h : ℕ) : Heeds early p.system.mux (p.called env h) where
  closed hp := by cases hp
  done hp := by cases hp
  cutoff c hc := by cases hc
  standby hp := by cases hp

/-- A move of the proxy in which signal and stream agree, if it resumes handler `h`. -/
theorem Stepped.unended (hq : Stepped env p l q) (hp : Unended early (p.system.generators h))
    (hh : l = .resume h → Heeds early p.system.mux (p.system.generators h)) :
    Unended early (q.system.generators h) := by
  rcases hq.generator h with hg | ⟨-, -, hs⟩ | ⟨hl, hs⟩ | ⟨-, hs⟩
  · rwa [hg]
  · obtain ⟨r, hr, hsys⟩ := Option.map_eq_some_iff.mp hs
    rw [System.put_self] at hr
    rw [← hsys, System.put_self]
    exact unended_resumed (.of_eq hr) (unended_called env p h) (heeds_called env p h)
  · obtain ⟨r, hr, hsys⟩ := Option.map_eq_some_iff.mp hs
    rw [← hsys, System.put_self]
    exact unended_resumed (.of_eq hr) hp (hh hl)
  · rw [close_eq hs]
    exact hp.closed

/-- **The end of generation, in every run.** Whatever the upstreams send and how
early, and whenever the signals come in: if signal and stream agree at each
resumption of handler `h`, then in each state that the run reaches the client
has been told the end of generation as the upstreams said it. -/
theorem handleChatCompletions_endsAsSaid {env : Env} {a b : String} {h : ℕ} {ls : List ProxyLabel}
    (hh : Machine.Along (step env)
      (fun p l _ => l = .resume h → Heeds early p.system.mux (p.system.generators h)) (new a b) ls) :
    Machine.Along (step env) (fun _ _ q =>
      EndsAsSaid (DoneSent early (q.system.generators h).active.ending)
        (q.system.generators h).log) (new a b) ls :=
  Machine.Along.of_inv (I := fun p => Unended early (p.system.generators h))
    (fun _ _ _ hp hq hh => (Stepped.of_step hq).unended hp hh)
    (fun _ _ _ hp hq hh => ((Stepped.of_step hq).unended hp hh).endsAsSaid) (unended_new a b) hh

/-- The upstreams of these lines, each read to its end. -/
def sending (active standby : List Bytes) : Env where
  post _ c _ _ := .response 200 (match c with | .active => active | .standby => standby) .eof
  show_ _ := []
  uuid _ := "u"

def lineA : Bytes := textLine "data: \x7b\"token\": \"a\"\x7d".toList

def lineB : Bytes := textLine "data: \x7b\"token\": \"b\", \"seq\": 1\x7d".toList

def lineDone : Bytes := textLine "data: [DONE]".toList

def requestR : Json := .obj [("request_id".toList, .text ['r'])]

/-- The stream is opened and its token sent. -/
def streamed : List ProxyLabel := [.request 0, .body 0 (some requestR), .prepared 0, .resume 0]

/-- The preemption is signalled, without a cutoff, and the standby is read to its end. -/
def swapRun : List ProxyLabel :=
  streamed ++ [.preemptionAlert (.obj []), .handoverReady requestR, .resume 0, .resume 0, .resume 0,
    .resume 0, .resume 0, .resume 0, .resume 0]

/-- The active upstream breaks off when the preemption is signalled. -/
theorem handleChatCompletions_endsAsSaid_swap :
    (Machine.run (step (sending [lineA] [lineB, lineDone])) (new "http://a" "http://b") swapRun).map
        (fun q => (q.system.generators 0).point) = some (.ended .completed) ∧
      Machine.Along (step (sending [lineA] [lineB, lineDone])) (fun _ _ q =>
        EndsAsSaid (DoneSent true (q.system.generators 0).active.ending) (q.system.generators 0).log)
        (new "http://a" "http://b") swapRun := by
  have hheeds : Machine.Along (step (sending [lineA] [lineB, lineDone]))
      (fun p _ _ => Heeds true p.system.mux (p.system.generators 0)) (new "http://a" "http://b") swapRun := by
    decide +kernel
  refine ⟨by decide +kernel, handleChatCompletions_endsAsSaid ?_⟩
  refine Machine.Along.mono ?_ hheeds
  exact fun _ _ _ hh _ => hh

/-- The active upstream refuses the connection, and no preemption is signalled. -/
def refusedRun : List ProxyLabel :=
  [.request 0, .body 0 (some (.obj [])), .prepared 0, .resume 0]

/-- The preemption is signalled with the number of the token that is being sent,
and the standby goes on. -/
def cutoffRun : List ProxyLabel :=
  streamed ++ [.preemptionAlert (.obj [("cutoff_sequence_id".toList, .int 0)]), .handoverReady requestR,
    .resume 0, .resume 0, .resume 0]

/-- The client is told the end of generation of an upstream never reached; and
the standby is contacted after the active upstream has sent `[DONE]`, which is
what comes next at the end of the stream, or still unread at the cutoff. -/
theorem handleChatCompletions_not_endsAsSaid :
    (∃ q, Machine.run (step { sending [] [] with post := fun _ _ _ _ => .refused })
        (new "http://a" "http://b") refusedRun = some q ∧
      ¬ EndsAsSaid (DoneSent false (q.system.generators 0).active.ending) (q.system.generators 0).log) ∧
    (∃ q, Machine.run (step (sending [lineA, lineDone] [lineB])) (new "http://a" "http://b")
        swapRun = some q ∧
      ¬ EndsAsSaid (DoneSent false (q.system.generators 0).active.ending) (q.system.generators 0).log) ∧
    ∃ q, Machine.run (step (sending [lineA, lineDone] [lineB])) (new "http://a" "http://b")
        cutoffRun = some q ∧
      (q.system.generators 0).delivered.map TokenChunk.token = ["a", "b"] ∧
      ¬ EndsAsSaid (DoneSent true (q.system.generators 0).active.ending) (q.system.generators 0).log := by
  refine ⟨⟨_, rfl, fun h => ?_⟩, ?_, ?_⟩
  · have := h.done [.connected, .upstreamEnded .closed] [] rfl
    cases this
  · have hend : (Machine.run (step (sending [lineA, lineDone] [lineB])) (new "http://a" "http://b")
        swapRun).map (fun q => decide (.connected ∈ ((q.system.generators 0).log.dropWhile
          (· ≠ .upstreamEnded .done)).tail)) = some true := by decide +kernel
    obtain ⟨q, hq, hres⟩ := Option.map_eq_some_iff.mp hend
    exact ⟨q, hq, fun h => h.connected_not_mem (of_decide_eq_true hres)⟩
  · have hend : (Machine.run (step (sending [lineA, lineDone] [lineB])) (new "http://a" "http://b")
        cutoffRun).map (fun q => ((q.system.generators 0).delivered.map TokenChunk.token,
          (q.system.generators 0).active.ending, (q.system.generators 0).log.count .connected)) =
        some ([PyStr.ofString "a", PyStr.ofString "b"], .done, 2) := by decide +kernel
    obtain ⟨q, hq, hres⟩ := Option.map_eq_some_iff.mp hend
    obtain ⟨htokens, hres⟩ := Prod.mk.inj hres
    obtain ⟨hending, hcount⟩ := Prod.mk.inj hres
    refine ⟨q, hq, htokens, fun h => ?_⟩
    have hone := h.count_connected ⟨rfl, hending⟩
    omega

end IngressProxy

end Sgm
