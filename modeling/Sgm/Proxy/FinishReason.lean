/-
# The end marker of a generation

An engine marks the last content event of a generation with the finish reason
`stop`. The proxy's parser makes a `TokenChunk` of each event without its finish
reason, and so without `is_final`; nothing later sets it. So no event that the
proxy ever sends carries the marker, whatever the upstreams sent and whichever
of them served the client.

Key definitions: `contentEvents`, `finishReason`, `EndMarked`, `Generator.Sourced`.
Key theorems: `endMarked_stream`, `contentEvents_encodeItems`, `Resumed.sourced`,
`IngressProxy.not_endMarked`.
-/
import Sgm.Proxy.Migration
import Sgm.Proxy.SseFormat

namespace Sgm

open Text StreamMultiplexer

/-! ### The marker on the wire -/

/-- The payload of a `data:` line that is JSON. -/
def dataPayload? (lineBytes : Bytes) : Option Json := do
  let text ← decodeUtf8 lineBytes
  let line := strip text
  if "data:".toList.isPrefixOf line then Json.loads (strip (line.drop 5)) else none

/-- The content events of a stream. -/
def contentEvents (content : Bytes) : List Json := (contentLines content).filterMap dataPayload?

/-- The finish reason of an event's first choice. -/
def finishReason : Json → Json
  | .obj data =>
    match Json.field? data "choices".toList with
    | some (.arr (.obj choice :: _)) => (Json.field? choice "finish_reason".toList).getD .null
    | _ => .null
  | _ => .null

/-- The finish reason is `stop` on the last content event, and null on all
others. -/
def EndMarked (events : List Json) : Prop :=
  ∃ n, events.map finishReason = List.replicate n .null ++ [.text "stop".toList]

theorem dataPayload_textLine {t : List Char} (h : Trimmed t) :
    dataPayload? (textLine t) =
      if "data:".toList.isPrefixOf t then Json.loads (strip (t.drop 5)) else none := by
  unfold dataPayload?
  simp only [decode_textLine, strip_line h, Option.bind_eq_bind, Option.bind_some]

theorem dataPayload_dataLine {payload : List Char} (h : Trimmed payload) (hne : payload ≠ []) :
    dataPayload? (textLine (dataLine payload)) = Json.loads payload := by
  have htrim : Trimmed (dataLine payload) := @trimmed_append 'd' "ata: ".toList _ (by decide) h hne
  have hstrip : strip ((dataLine payload).drop 5) = payload := by
    have := @strip_pad [' '] payload [] h hne (by simp; decide) (by simp)
    rwa [List.append_nil] at this
  rw [dataPayload_textLine htrim, if_pos (by simp [dataLine_eq]), hstrip]

theorem contentEvents_textLine {t : List Char} (h : newline ∉ encodeUtf8 t) (bs : Bytes) :
    contentEvents (textLine t ++ bs) =
      (dataPayload? (textLine t)).toList ++ contentEvents bs := by
  unfold contentEvents
  rw [contentLines_textLine h]
  rcases hd : dataPayload? (textLine t) with _ | j
  · rw [List.filterMap_cons_none hd]
    rfl
  · rw [List.filterMap_cons_some hd]
    rfl

theorem contentEvents_blank (bs : Bytes) : contentEvents (textLine [] ++ bs) = contentEvents bs := by
  rw [contentEvents_textLine (by simp [encodeUtf8]), dataPayload_textLine ⟨by simp, by simp⟩]
  rfl

theorem contentEvents_done (bs : Bytes) :
    contentEvents (textLine (dataLine "[DONE]".toList) ++ bs) = contentEvents bs := by
  rw [contentEvents_textLine (by decide), dataPayload_dataLine trimmed_done (by decide), loads_done]
  rfl

/-- A numbered event is one content event. -/
theorem contentEvents_numberedEvent (seq : ℤ) {fields : List (List Char × Json)}
    (hplain : (Json.obj fields).Plain) (bs : Bytes) :
    contentEvents (encodeUtf8 ("id: ".toList ++ Json.dumpsInt seq ++ "\ndata: ".toList ++
        Json.dumps (.obj fields) ++ "\n\n".toList) ++ bs) =
      .obj fields :: contentEvents bs := by
  obtain ⟨hid, hne⟩ := idLine_spec seq
  have hdata := newline_not_mem_dataLine hplain
  have htrim : Trimmed ("id: ".toList ++ Json.dumpsInt seq) :=
    @trimmed_append 'i' "d: ".toList _ (by decide) (Json.trimmed_dumpsInt seq) hne
  rw [numberedEvent_eq, List.append_assoc, List.append_assoc, contentEvents_textLine hid,
    contentEvents_textLine hdata, contentEvents_blank, dataPayload_textLine htrim,
    dataPayload_dataLine (Json.trimmed_dumps_obj fields) (by rw [Json.dumps]; simp),
    Json.loads_dumps hplain, if_neg (by simp)]
  rfl

/-- The engine marks the last event of a generation. -/
theorem endMarked_stream {rid : PyStr} (hr : rid.Unpaired) : ∀ (tokens : List PyStr) (idx : ℕ) (seq : ℤ),
    tokens ≠ [] → (∀ token ∈ tokens, token.Unpaired) → (∀ k < tokens.length, Json.Short (seq + k)) →
    EndMarked (contentEvents (MockLLMEngine.stream rid (fun _ => false) idx seq tokens)) := by
  have hstop : ∀ (token : PyStr) (seq : ℤ) (isLast : Bool),
      finishReason (MockLLMEngine.payload rid token seq isLast) =
        if isLast then .text "stop".toList else .null := by
    intro token seq isLast
    cases isLast <;> rfl
  have hevent : ∀ (token : PyStr) {seq : ℤ} (isLast : Bool) (bs : Bytes), token.Unpaired →
      Json.Short seq → contentEvents (MockLLMEngine.event rid token seq isLast ++ bs) =
        MockLLMEngine.payload rid token seq isLast :: contentEvents bs :=
    fun token seq isLast bs ht h =>
      contentEvents_numberedEvent seq (MockLLMEngine.plain_payload hr ht h isLast) bs
  intro tokens
  induction tokens with
  | nil => exact fun _ _ h _ _ => absurd rfl h
  | cons token rest ih =>
    intro idx seq _ htokens hshort
    obtain ⟨ht, hrest⟩ := List.forall_mem_cons.mp htokens
    obtain ⟨h0, hshort⟩ := MockLLMEngine.short_tail hshort
    have hstream : MockLLMEngine.stream rid (fun _ => false) idx seq (token :: rest) =
        MockLLMEngine.event rid token seq rest.isEmpty ++
          MockLLMEngine.stream rid (fun _ => false) (idx + 1) (seq + 1) rest := rfl
    rw [hstream, hevent token _ _ ht h0]
    rcases rest with _ | ⟨token', rest⟩
    · have hdone : MockLLMEngine.stream rid (fun _ => false) (idx + 1) (seq + 1) [] =
          textLine (dataLine "[DONE]".toList) ++ (textLine [] ++ []) := MockLLMEngine.doneLine_eq
      rw [hdone, contentEvents_done, contentEvents_blank]
      exact ⟨0, rfl⟩
    · obtain ⟨n, hn⟩ := ih (idx + 1) (seq + 1) (List.cons_ne_nil _ _) hrest hshort
      refine ⟨n + 1, ?_⟩
      rw [List.map_cons, hn, hstop]
      rfl

/-- The content events that the proxy sends are its chunks'. -/
theorem contentEvents_encodeItems : ∀ {items : List SseItem} {bytes : Bytes},
    encodeItems items = some bytes →
      contentEvents bytes = (SseItem.chunks items).map fun c => chunkPayload (joinedChunk c)
  | [], bytes, h => by
    obtain rfl := Option.some.inj h
    rfl
  | item :: items, bytes, h => by
    obtain ⟨b, bs, hb, hbs, rfl⟩ := encodeItems_cons_eq_some.mp h
    have ih := contentEvents_encodeItems hbs
    rcases item with chunk | _ | _
    · have hb : formatSseChunk chunk = some b := hb
      rw [← formatSseChunk_joinedChunk, formatSseChunk] at hb
      split at hb
      · rename_i hshort
        obtain rfl := Option.some.inj hb
        have hevent := contentEvents_numberedEvent chunk.sequenceId (@plain_joinedChunk chunk hshort) bs
        rw [SseItem.chunks_data, List.map_cons, ← ih]
        exact hevent
      · cases hb
    · obtain rfl := Option.some.inj hb
      have hlines : encodeUtf8 ": keep-alive\n\n".toList =
          textLine ": keep-alive".toList ++ textLine [] := by decide +kernel
      have hcomment : dataPayload? (textLine ": keep-alive".toList) = none := by decide +kernel
      rw [hlines, List.append_assoc, contentEvents_textLine (by decide +kernel), hcomment,
        contentEvents_blank]
      exact ih
    · obtain rfl := Option.some.inj hb
      have hlines : encodeUtf8 "data: [DONE]\n\n".toList =
          textLine (dataLine "[DONE]".toList) ++ textLine [] := by decide +kernel
      rw [hlines, List.append_assoc, contentEvents_done, contentEvents_blank]
      exact ih

/-- Where no chunk is final, nothing is marked. -/
theorem not_endMarked_of_chunks {items : List SseItem} {bytes : Bytes}
    (h : ∀ c ∈ SseItem.chunks items, c.isFinal = false) (hb : encodeItems items = some bytes) :
    ¬ EndMarked (contentEvents bytes) := by
  rintro ⟨n, hn⟩
  rw [contentEvents_encodeItems hb, List.map_map] at hn
  have hmem : Json.text "stop".toList ∈
      (SseItem.chunks items).map (finishReason ∘ fun c => chunkPayload (joinedChunk c)) := by
    rw [hn]
    simp
  obtain ⟨c, hc, he⟩ := List.mem_map.mp hmem
  have hnull : finishReason (chunkPayload (joinedChunk c)) = .null := by
    show (if c.isFinal then Json.text "stop".toList else .null) = .null
    rw [h c hc]
    rfl
  rw [Function.comp_apply, hnull] at he
  cases he

/-! ### Where chunks come from -/

/-- The parser sets no chunk's `is_final`. -/
theorem readLine_isFinal {rid : String} {l : Bytes} {seq : ℤ} {c : TokenChunk}
    (h : readLine rid l seq = .chunk c) : c.isFinal = false := by
  unfold readLine at h
  split at h
  · cases h
  simp only at h
  split_ifs at h
  split at h
  · obtain rfl := LineResult.chunk.inj h
    rfl
  · cases h

theorem readLines_isFinal (rid : String) : ∀ (ls : List Bytes) (seq : ℤ),
    ∀ c ∈ (readLines rid ls seq).chunks, c.isFinal = false
  | [], _, c, hc => by cases hc
  | l :: ls, seq, c, hc => by
    rw [readLines] at hc
    split at hc
    · cases hc
    · cases hc
    · exact readLines_isFinal rid ls _ c hc
    · rename_i chunk hchunk
      rcases List.mem_cons.mp hc with rfl | hc
      · exact readLine_isFinal hchunk
      · exact readLines_isFinal rid ls _ c hc

theorem sseChunkGenerator_isFinal (post : String → Json → Reply) (url : String) (body : Json)
    (rid : String) : ∀ c ∈ (sseChunkGenerator post url body rid).chunks, c.isFinal = false := by
  intro c hc
  unfold sseChunkGenerator at hc
  split at hc
  · cases hc
  · split_ifs at hc
    · cases hc
    · exact readLines_isFinal _ _ _ c hc

/-- Every chunk that the generator has delivered satisfies `P`, and every one
that it can still read. -/
structure Generator.Sourced (P : TokenChunk → Prop) (g : Generator) : Prop where
  active : ∀ c ∈ g.active.chunks, P c
  standby : ∀ c ∈ g.standby.chunks, P c
  factory : ∀ lf u, g.standbyFactory lf = .ok u → ∀ c ∈ u.chunks, P c
  delivered : ∀ c ∈ g.delivered, P c

section
variable {P : TokenChunk → Prop} {now i : ℕ} {m : StreamMultiplexer} {g g' : Generator}
  {r : StreamMultiplexer × Generator}

theorem Generator.Sourced.same (h : g.Sourced P) (hs : g'.sources = g.sources)
    (hd : ∀ c ∈ g'.delivered, P c) : g'.Sourced P := by
  obtain ⟨ha, hrest⟩ := Prod.mk.inj hs
  obtain ⟨hb, hf⟩ := Prod.mk.inj hrest
  exact ⟨ha ▸ h.active, hb ▸ h.standby, hf ▸ h.factory, hd⟩

theorem delivered_record (e : Event) (he : e.sent? = none) :
    (g.record e).delivered = g.delivered := by
  show SseItem.chunks (Event.sentIn (g.log ++ [e])) = _
  rw [Event.sentIn_append]
  show SseItem.chunks (_ ++ [e].filterMap Event.sent?) = _
  rw [List.filterMap_cons_none he]
  simp [Generator.delivered, Generator.items]

theorem delivered_emit (x : SseItem) (p : Point) :
    (g.emit x p).delivered = g.delivered ++ SseItem.chunks [x] := by
  show SseItem.chunks (Event.sentIn (g.log ++ [.sent x])) = _
  simp [Generator.delivered, Generator.items]

theorem delivered_buffered (h : Buffered m g r) : r.2.delivered = g.delivered := by
  unfold Generator.delivered Generator.items
  rcases h.log with hl | hl
  · rw [hl]
  · rw [hl]
    simp

theorem delivered_afterActive : (m.afterActive now g).2.delivered = g.delivered := by
  rcases afterActive_spec now m g with ⟨-, hb⟩ | ⟨-, he⟩
  · exact delivered_buffered hb
  · rw [he]
    show (g.emit .done .yieldedDone).delivered = g.delivered
    rw [delivered_emit]
    exact List.append_nil _

theorem delivered_checkCutoff (c : TokenChunk) : (m.checkCutoff now g c).2.delivered = g.delivered := by
  rcases checkCutoff_spec now m g c with ⟨-, hb⟩ | he
  · exact delivered_buffered hb
  · rw [he]
    rfl

theorem delivered_raise (e : Exc) : (m.raise g e).2.delivered = g.delivered := by
  unfold Generator.delivered Generator.items
  rw [(raise_spec m g e).2]

theorem Generator.Sourced.checkCutoff (h : g.Sourced P) (c : TokenChunk) :
    (m.checkCutoff now g c).2.Sourced P :=
  h.same (sources_checkCutoff now m g c) (by rw [delivered_checkCutoff]; exact h.delivered)

theorem Generator.Sourced.raise (h : g.Sourced P) (e : Exc) : (m.raise g e).2.Sourced P :=
  h.same (sources_raise m g e) (by rw [delivered_raise]; exact h.delivered)

/-- A pulled chunk leaves the active upstream. -/
theorem Generator.Sourced.pullActive (h : g.Sourced P) {c : TokenChunk} {rest : List TokenChunk}
    (hc : g.active.chunks = c :: rest) :
    P c ∧ ({ g.record (.pulled c) with active := ⟨rest, g.active.ending⟩ } : Generator).Sourced P := by
  have hmem : ∀ d ∈ c :: rest, P d := hc ▸ h.active
  refine ⟨hmem c List.mem_cons_self, fun d hd => hmem d (List.mem_cons_of_mem _ hd), h.standby,
    h.factory, ?_⟩
  show ∀ d ∈ (g.record (.pulled c)).delivered, P d
  rw [delivered_record _ rfl]
  exact h.delivered

theorem Generator.Sourced.pullStandby (h : g.Sourced P) {c : TokenChunk} {rest : List TokenChunk}
    (hc : g.standby.chunks = c :: rest) :
    P c ∧ ({ g.record (.pulled c) with standby := ⟨rest, g.standby.ending⟩ } : Generator).Sourced P := by
  have hmem : ∀ d ∈ c :: rest, P d := hc ▸ h.standby
  refine ⟨hmem c List.mem_cons_self, h.active, fun d hd => hmem d (List.mem_cons_of_mem _ hd),
    h.factory, ?_⟩
  show ∀ d ∈ (g.record (.pulled c)).delivered, P d
  rw [delivered_record _ rfl]
  exact h.delivered

theorem Generator.Sourced.emit (h : g.Sourced P) {x : SseItem} (hx : ∀ c ∈ SseItem.chunks [x], P c)
    (p : Point) : (g.emit x p).Sourced P := by
  refine ⟨h.active, h.standby, h.factory, ?_⟩
  rw [delivered_emit]
  exact fun c hc => (List.mem_append.mp hc).elim (h.delivered c) (hx c)

theorem Generator.Sourced.record (h : g.Sourced P) {e : Event} (he : e.sent? = none) :
    (g.record e).Sourced P :=
  h.same rfl (by rw [delivered_record e he]; exact h.delivered)

/-- What a resumption delivers comes from what the generator reads. -/
theorem Resumed.sourced (h : Resumed now i m g r) (hg : g.Sourced P) : r.2.Sourced P := by
  have hdata : ∀ {c : TokenChunk}, P c → ∀ d ∈ SseItem.chunks [SseItem.data c], P d := by
    intro c hc d hd
    obtain rfl := List.mem_singleton.mp hd
    exact hc
  cases h with
  | start _ => exact (hg.record (e := .connected) rfl).same rfl (hg.record (e := .connected) rfl).delivered
  | dropActive c rest _ hc _ => exact (hg.pullActive hc).2.checkCutoff c
  | acceptActive c rest d _ hc _ _ _ =>
    obtain ⟨hP, hg'⟩ := hg.pullActive hc
    exact hg'.emit (hdata hP) _
  | gapActive c rest _ _ hc _ => exact (hg.pullActive hc).2.raise _
  | endActive _ _ _ =>
    have hg' := hg.record (e := .upstreamEnded g.active.ending) rfl
    exact hg'.same (sources_afterActive now m _) (by rw [delivered_afterActive]; exact hg'.delivered)
  | raiseActive e _ _ _ => exact (hg.record (e := .upstreamEnded g.active.ending) rfl).raise e
  | resumeActive c _ =>
    have hg' : ({ g with lastActivityTime := now } : Generator).Sourced P := hg.same rfl hg.delivered
    exact hg'.checkCutoff c
  | resumeKeepAlive _ _ => exact hg.same rfl hg.delivered
  | wake _ _ _ =>
    refine hg.same (sources_bufferingLoop now m g) ?_
    rw [delivered_buffered (buffered_bufferingLoop now m g)]
    exact hg.delivered
  | connectStandby u _ hu =>
    have hg' := hg.record (e := .connected) rfl
    exact ⟨hg'.active, hg.factory _ u hu, hg'.factory, hg'.delivered⟩
  | failStandby e _ _ => exact hg.raise e
  | dropStandby c rest _ hc _ => exact (hg.pullStandby hc).2
  | acceptStandby c rest d _ hc _ _ _ =>
    obtain ⟨hP, hg'⟩ := hg.pullStandby hc
    exact hg'.emit (hdata hP) _
  | gapStandby c rest _ _ hc _ => exact (hg.pullStandby hc).2.raise _
  | endStandby _ _ _ =>
    exact (hg.record (e := .upstreamEnded g.standby.ending) rfl).emit (by simp) _
  | raiseStandby e _ _ _ => exact (hg.record (e := .upstreamEnded g.standby.ending) rfl).raise e
  | resumeStandby _ => exact hg.same rfl hg.delivered
  | finish _ => exact hg.same rfl hg.delivered

end

/-! ### Through the proxy -/

namespace IngressProxy

variable {env : Env} {p q : IngressProxy} {l : ProxyLabel} {h : ℕ}

theorem sourced_called (env : Env) (p : IngressProxy) (h : ℕ) :
    (p.called env h).Sourced fun c => c.isFinal = false where
  active := sseChunkGenerator_isFinal _ _ _ _
  standby _ hc := by cases hc
  factory lf u hu := by
    obtain rfl := Except.ok.inj hu
    exact sseChunkGenerator_isFinal _ _ _ _
  delivered _ hc := by cases hc

theorem sourced_resume {P : TokenChunk → Prop} {s t : System} (hs : (s.generators h).Sourced P)
    (ht : s.step (.resume h) = some t) : (t.generators h).Sourced P := by
  obtain ⟨r, hr, rfl⟩ := Option.map_eq_some_iff.mp ht
  rw [System.put_self]
  exact (Resumed.of_eq hr).sourced hs

theorem Stepped.sourced (hq : Stepped env p l q)
    (hp : (p.system.generators h).Sourced fun c => c.isFinal = false) :
    (q.system.generators h).Sourced fun c => c.isFinal = false := by
  rcases hq.generator h with he | ⟨-, -, hs⟩ | ⟨-, hs⟩ | ⟨-, hs⟩
  · rwa [he]
  · refine sourced_resume ?_ hs
    rw [System.put_self]
    exact sourced_called env p h
  · exact sourced_resume hp hs
  · rw [close_eq hs]
    exact hp.same rfl hp.delivered

/-- No event that the proxy yields has a finish reason. -/
theorem sourced_run (a b : String) {ls : List ProxyLabel}
    (hp : Machine.run (step env) (new a b) ls = some p) :
    (p.system.generators h).Sourced fun c => c.isFinal = false :=
  Machine.run_inv (I := fun p => (p.system.generators h).Sourced fun c => c.isFinal = false)
    (fun _ _ _ hs ht => (Stepped.of_step ht).sourced hs)
    ⟨by simp [new, System.init, Generator.absent], by simp [new, System.init, Generator.absent],
      fun _ _ hu => by cases hu; simp, fun _ hc => by cases hc⟩ hp

/-- **The marker is never relayed**: whatever the upstreams send, no stream
that the client receives is marked. -/
theorem not_endMarked (env : Env) (a b : String) (ls : List ProxyLabel) (p : IngressProxy)
    (hp : Machine.run (step env) (new a b) ls = some p) (h : ℕ) (received : List SseItem)
    (hreceived : received <+: (p.system.generators h).items) (bytes : Bytes)
    (hbytes : encodeItems received = some bytes) : ¬ EndMarked (contentEvents bytes) := by
  obtain ⟨rest, hrest⟩ := hreceived
  refine not_endMarked_of_chunks (fun c hc => ?_) hbytes
  apply (sourced_run a b hp).delivered c
  show c ∈ SseItem.chunks (p.system.generators h).items
  rw [← hrest, SseItem.chunks_append]
  exact List.mem_append_left _ hc

/-- A request for both tokens. -/
def bothTokens : List (List Char × Json) :=
  [("request_id".toList, .text ['r']), ("max_tokens".toList, .int 2)]

/-- The engine serves the generation to its end. -/
def markedRun : List ProxyLabel :=
  [.request 0, .body 0 (some (.obj bothTokens)), .prepared 0, .resume 0, .resume 0, .resume 0,
    .resume 0, .resume 0, .resume 0]

theorem run_markedRun :
    ∃ p bytes, Machine.run (step (twoEngines 0)) (new "http://b" "http://c") markedRun = some p ∧
      (p.system.generators 0).point = .ended .completed ∧
      (p.system.generators 0).delivered.map TokenChunk.token = ["a", "b"] ∧
      encodeItems (p.system.generators 0).items = some bytes := by
  have hrun : (Machine.run (step (twoEngines 0)) (new "http://b" "http://c") markedRun).map
      (fun p => ((p.system.generators 0).point,
        (p.system.generators 0).delivered.map fun c => (c.token, c.sequenceId))) =
      some (.ended .completed, [(PyStr.ofString "a", 0), (PyStr.ofString "b", 1)]) := by decide +kernel
  obtain ⟨p, hp, hres⟩ := Option.map_eq_some_iff.mp hrun
  obtain ⟨hpoint, hchunks⟩ := Prod.mk.inj hres
  have hshort : ∀ c ∈ (p.system.generators 0).delivered, Json.Short c.sequenceId := by
    intro c hc
    have hmem := List.mem_map_of_mem (f := fun c : TokenChunk => (c.token, c.sequenceId)) hc
    rw [hchunks] at hmem
    rcases List.mem_cons.mp hmem with he | hmem
    · rw [(Prod.mk.inj he).2]
      exact Json.short_of_lt le_rfl (by decide)
    · rw [(Prod.mk.inj (List.mem_singleton.mp hmem)).2]
      exact Json.short_of_lt (by decide) (by decide)
  obtain ⟨bytes, hbytes⟩ := Option.isSome_iff_exists.mp
    ((encodeItems_isSome (p.system.generators 0).items).mpr hshort)
  have hmap := congrArg (List.map Prod.fst) hchunks
  rw [List.map_map] at hmap
  exact ⟨p, bytes, hp, hpoint, hmap, hbytes⟩

theorem not_endMarked_served :
    ∃ p bytes, Machine.run (step (twoEngines 0)) (new "http://b" "http://c") markedRun = some p ∧
      encodeItems (p.system.generators 0).items = some bytes ∧
      ¬ EndMarked (contentEvents bytes) := by
  obtain ⟨p, bytes, hp, -, -, hbytes⟩ := run_markedRun
  exact ⟨p, bytes, hp, hbytes, not_endMarked (twoEngines 0) "http://b" "http://c" markedRun p hp 0 _
    (List.prefix_refl _) bytes hbytes⟩

/-- The engine's last content event is marked, and the client gets all its
tokens, but no marked event. -/
theorem not_endMarked_bothTokens :
    ∃ content, (twoEngines 0).post 0 .active (completionsUrl "http://b")
        (.obj (withRequestId bothTokens "r")) =
          (LineReader.bounded LineReader.usualLimit).reply ⟨200, content⟩ ∧
      EndMarked (contentEvents content) ∧
      ∃ p bytes, Machine.run (step (twoEngines 0)) (new "http://b" "http://c") markedRun = some p ∧
        (p.system.generators 0).point = .ended .completed ∧
        (p.system.generators 0).delivered.map TokenChunk.token = ["a", "b"] ∧
        encodeItems (p.system.generators 0).items = some bytes ∧
        ¬ EndMarked (contentEvents bytes) := by
  refine ⟨MockLLMEngine.stream (.ofString "r") (fun _ => false) 0 0 ["a", "b"], ?_, ?_, ?_⟩
  · simp only [twoEngines, if_true]
    rfl
  · refine endMarked_stream (PyStr.unpaired_ofText _) ["a", "b"] 0 0 (List.cons_ne_nil _ _) (by decide)
      fun k hk => ?_
    have hk : k < 2 := hk
    exact Json.short_of_lt (by omega) (by omega)
  · obtain ⟨p, bytes, hp, hpoint, htok, hbytes⟩ := run_markedRun
    exact ⟨p, bytes, hp, hpoint, htok, hbytes,
      not_endMarked_of_chunks (sourced_run "http://b" "http://c" hp).delivered hbytes⟩

end IngressProxy
end Sgm
