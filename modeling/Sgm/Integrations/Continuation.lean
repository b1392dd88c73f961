/-
# A generation carried from engine to engine

The hooks of vLLM, SGLang and the mock engine resume a session at an engine of
the same corpus, the daemon records the chunks in the session, and the session
is resumed again elsewhere, any number of times. The chunks are the corpus from
its beginning, each token once; and they end where the client asked for, unless
the last engine was asked when nothing was left to ask for. The lines of the
engine's events are within the limit of the hooks' reader.

Key definitions: `VLLMPayload.toJson`, `NodeDaemon.record`, `Follows`, `relay`.
Key theorems: `streamResumed_engine`, `Follows.record`, `relay_seamless_iff`,
`listed_seamless_iff`.
-/
import Sgm.Core.NodeDaemon
import Sgm.Integrations.Streaming
import Sgm.Simulator.MockEngine

namespace Sgm

open Text

/-! ### The payload as the engine reads it -/

def ChatMessage.toJson (m : ChatMessage) : Json :=
  .obj [("role".toList, .text m.role.toList), ("content".toList, .str m.content)]

/-- A key that is there only where it has been set. -/
def optionalField (key : String) (v : Option Json) : List (List Char × Json) :=
  v.toList.map fun j => (key.toList, j)

/-- The payload, in the order in which it is put together. -/
def VLLMPayload.toJson (p : VLLMPayload) : List (List Char × Json) :=
  [("model".toList, .str p.model), ("prompt".toList, .str p.prompt),
    ("stream".toList, .bool p.stream), ("max_tokens".toList, .int p.maxTokens),
    ("temperature".toList, .float (.finite p.temperature)),
    ("top_p".toList, .float (.finite p.topP)),
    ("stop".toList, .arr (p.stop.map .str)),
    ("stream_options".toList, .obj [("include_usage".toList, .bool p.includeUsage)]),
    ("presence_penalty".toList, .float (.finite p.presencePenalty)),
    ("frequency_penalty".toList, .float (.finite p.frequencyPenalty)),
    ("request_id".toList, .text p.requestId.toList), ("start_seq_id".toList, .int p.startSeqId),
    ("is_resume".toList, .bool p.isResume)] ++
  optionalField "messages" (p.messages.map fun ms => .arr (ms.map ChatMessage.toJson)) ++
  optionalField "continue_final_message" (p.continueFinalMessage.map .bool) ++
  optionalField "add_generation_prompt" (p.addGenerationPrompt.map .bool) ++
  optionalField "prompt_token_ids" (p.promptTokenIds.map fun ids => .arr (ids.map .int)) ++
  [("extra_body".toList, .obj [("cutoff_sequence_id".toList, .int p.cutoffSequenceId),
    ("prefix_caching".toList, .bool p.prefixCaching),
    ("radix_attention_enabled".toList, .bool p.radixAttentionEnabled),
    ("cached_prefix_tokens".toList, .int p.cachedPrefixTokens)])] ++
  optionalField "skip_special_tokens" (p.skipSpecialTokens.map .bool) ++
  optionalField "spaces_between_special_tokens" (p.spacesBetweenSpecialTokens.map .bool)

/-- The engine at every endpoint, for the payloads of the hooks that read its
numbers; `nowMs` is the time of the request. The payloads of the others are not
followed here. -/
def MockLLMEngine.post (engine : MockLLMEngine) (show_ : Json → List Char) (reader : LineReader)
    (nowMs : ℤ) (paused : ℕ → Bool) : Post :=
  fun _ payload _ =>
    match payload with
    | .vllm payload => reader.reply (engine.handleChatCompletions show_ nowMs paused payload.toJson)
    | _ => .refused

/-! ### The stream of the engine, read by the hook -/

namespace VLLMInferenceEngineHook

variable {rid : String} {nextSeq : ℤ}

theorem parseLine_textLine {t : List Char} (h : Trimmed t) : parseLine rid nextSeq (textLine t) =
    if t = [] ∨ ":".toList.isPrefixOf t then (nextSeq, [], .next)
    else if "data:".toList.isPrefixOf t then
      if strip (t.drop 5) = "[DONE]".toList then (nextSeq, [], .stop)
      else
        (parsePayload (strip (t.drop 5)) nextSeq).elim (nextSeq, [], .next) fun p =>
          (p.2 + 1, [{ requestId := rid, sequenceId := p.2, token := p.1,
                       rawBytes := textLine t }], .next)
    else (nextSeq, [], .next) := by
  unfold parseLine
  simp only [decode_textLine, strip_line h]
  cases parsePayload (strip (t.drop 5)) nextSeq with
  | none => rfl
  | some p => rfl

theorem parseLine_blank : parseLine rid nextSeq (textLine []) = (nextSeq, [], .next) := by
  rw [parseLine_textLine ⟨by simp, by simp⟩, if_pos (Or.inl rfl)]

theorem parseLine_id {t : List Char} (h : Trimmed t) (hne : t ≠ []) :
    parseLine rid nextSeq (textLine ("id: ".toList ++ t)) = (nextSeq, [], .next) := by
  have htrim : Trimmed ("id: ".toList ++ t) := @trimmed_append 'i' "d: ".toList _ (by decide) h hne
  rw [parseLine_textLine htrim, if_neg (by simp), if_neg (by simp)]

theorem parseLine_data {payload : List Char} (h : Trimmed payload) (hne : payload ≠ []) :
    parseLine rid nextSeq (textLine (dataLine payload)) =
      if payload = "[DONE]".toList then (nextSeq, [], .stop)
      else
        (parsePayload payload nextSeq).elim (nextSeq, [], .next) fun p =>
          (p.2 + 1, [{ requestId := rid, sequenceId := p.2, token := p.1,
                       rawBytes := textLine (dataLine payload) }], .next) := by
  have htrim : Trimmed (dataLine payload) := @trimmed_append 'd' "ata: ".toList _ (by decide) h hne
  have hstrip : strip ((dataLine payload).drop 5) = payload := by
    have := @strip_pad [' '] payload [] h hne (by simp; decide) (by simp)
    rwa [List.append_nil] at this
  rw [parseLine_textLine htrim, hstrip, if_neg (by simp [dataLine_eq]), if_pos (by simp [dataLine_eq])]

/-- A line that yields nothing is passed over. -/
theorem chunks_next {l : Bytes} {lines : List Bytes} {seq : ℤ} {out : List TokenChunk} {ending : ReadEnd}
    (h : parseLine rid nextSeq l = (seq, out, .next)) :
    (parser rid).chunks nextSeq (l :: lines) ending = out ++ (parser rid).chunks seq lines ending := by
  rw [LineParser.chunks_cons, LineParser.read_next h, if_pos rfl]

/-- The three lines of an event of the engine. -/
theorem chunks_event {rid' token : PyStr} (hr : rid'.Unpaired) (ht : token.Unpaired) {seq : ℤ}
    (h : Json.Short seq) (isLast : Bool) (bs : Bytes) (e : ReadEnd) : ∃ raw, (parser rid).chunks nextSeq
      (contentLines (MockLLMEngine.event rid' token seq isLast ++ bs)) e =
        ⟨rid, seq, token, 0, false, raw⟩ :: (parser rid).chunks (seq + 1) (contentLines bs) e := by
  have hplain := MockLLMEngine.plain_payload hr ht h isLast
  have hdone : Json.dumps (MockLLMEngine.payload rid' token seq isLast) ≠ "[DONE]".toList := by
    rw [MockLLMEngine.payload, Json.dumps]
    simp
  have hnil : Json.dumps (MockLLMEngine.payload rid' token seq isLast) ≠ [] := by
    rw [MockLLMEngine.payload, Json.dumps]
    simp
  let raw := textLine (dataLine (Json.dumps (MockLLMEngine.payload rid' token seq isLast)))
  have hdata : parseLine rid nextSeq raw = (seq + 1, [⟨rid, seq, token, 0, false, raw⟩], .next) := by
    have htrim : Trimmed (Json.dumps (MockLLMEngine.payload rid' token seq isLast)) :=
      Json.trimmed_dumps_obj _
    refine (parseLine_data htrim hnil).trans ?_
    rw [if_neg hdone, MockLLMEngine.parsePayload_payload hr ht h isLast, Option.elim_some]
  refine ⟨raw, ?_⟩
  rw [MockLLMEngine.event, contentLines_numberedEvent seq hplain]
  simp only [List.cons_append, List.nil_append]
  rw [chunks_next (parseLine_id (Json.trimmed_dumpsInt seq) (idLine_spec seq).2), chunks_next hdata,
    chunks_next parseLine_blank]
  rfl

theorem chunks_stream (rid : String) {rid' : PyStr} (hr : rid'.Unpaired) (paused : ℕ → Bool) :
    ∀ (tokens : List PyStr) (idx : ℕ) (seq nextSeq : ℤ), (∀ token ∈ tokens, token.Unpaired) →
      (∀ k < tokens.length, Json.Short (seq + k)) →
      ∃ chunks, (parser rid).chunks nextSeq
          (contentLines (MockLLMEngine.stream rid' paused idx seq tokens)) .eof = chunks ∧
        Consecutive rid seq chunks ∧
        chunks.map TokenChunk.token = MockLLMEngine.served paused idx tokens
  | [], idx, seq, nextSeq, _, _ => by
    refine ⟨[], ?_, .nil, rfl⟩
    rw [MockLLMEngine.stream]
    cases paused idx with
    | true => rfl
    | false =>
      have hstop : parseLine rid nextSeq (textLine (dataLine "[DONE]".toList)) = (nextSeq, [], .stop) := by
        rw [parseLine_data trimmed_done (by decide), if_pos rfl]
      simp only [Bool.false_eq_true, if_false]
      rw [MockLLMEngine.doneLine_eq, contentLines_textLine (by decide), LineParser.chunks_cons, LineParser.read_stop hstop]
      rfl
  | token :: rest, idx, seq, nextSeq, htokens, hshort => by
    rw [MockLLMEngine.stream, MockLLMEngine.served]
    cases paused idx with
    | true => exact ⟨[], rfl, .nil, rfl⟩
    | false =>
      obtain ⟨ht, htail⟩ := List.forall_mem_cons.mp htokens
      obtain ⟨hseq, hrest⟩ := MockLLMEngine.short_tail hshort
      obtain ⟨raw, hevent⟩ := @chunks_event rid nextSeq _ _ hr ht seq hseq rest.isEmpty
        (MockLLMEngine.stream rid' paused (idx + 1) (seq + 1) rest) .eof
      obtain ⟨chunks, hread, hnum, htok⟩ :=
        chunks_stream rid hr paused rest (idx + 1) (seq + 1) (seq + 1) htail hrest
      have hhead : Consecutive rid seq [⟨rid, seq, token, 0, false, raw⟩] := .singleton rfl rfl
      refine ⟨⟨rid, seq, token, 0, false, raw⟩ :: chunks, ?_, hhead.append hnum, ?_⟩
      · simp only [Bool.false_eq_true, if_false]
        rw [hevent, hread]
      · simp only [Bool.false_eq_true, if_false, List.map_cons, htok]

end VLLMInferenceEngineHook

/-! ### One resumption -/

section
variable {engine : MockLLMEngine} {show_ : Json → List Char} {reader : LineReader} {limit : ℕ} {nowMs : ℤ}
  {paused : ℕ → Bool} {session : InferenceSession} {n m : ℕ}

/-- The stream of the engine to a payload that asks for `m` tokens from `n` on. -/
theorem replyChunks_engine (hreader : reader.HandsOut limit) {payload : VLLMPayload}
    (hfit : engine.Fits limit payload.requestId) (hstream : payload.stream = true)
    (hstart : payload.startSeqId = n) (hm : payload.maxTokens = m) (rid : String) (nextSeq : ℤ) :
    Consecutive rid n ((VLLMInferenceEngineHook.parser rid).replyChunks nextSeq
        (reader.reply (engine.handleChatCompletions show_ nowMs paused payload.toJson))) ∧
      ((VLLMInferenceEngineHook.parser rid).replyChunks nextSeq
        (reader.reply (engine.handleChatCompletions show_ nowMs paused payload.toJson))).map
          TokenChunk.token = MockLLMEngine.served paused 0 ((engine.corpus.take (n + m)).drop n) := by
  have hfields : ((Json.field? payload.toJson "stream".toList).getD (.bool true)).truthy = true ∧
      ((Json.field? payload.toJson "start_seq_id".toList).getD (.int 0)).toInt = some (n : ℤ) ∧
      Json.field? payload.toJson "max_tokens".toList = some (.int m) := by
    rw [← hstart, ← hm]
    exact ⟨hstream, rfl, rfl⟩
  obtain ⟨hs, hn, hmax⟩ := hfields
  have hr : PyStr.Unpaired payload.requestId := PyStr.unpaired_ofText _
  have hsent := engine.handleChatCompletions_stream show_ nowMs paused hs rfl hn hmax
  obtain ⟨htokens, hshort⟩ := engine.emitted_spec n m
  obtain ⟨chunks, hread, hnum, htok⟩ :=
    VLLMInferenceEngineHook.chunks_stream rid hr paused _ 0 n nextSeq htokens hshort
  have hchunks : (VLLMInferenceEngineHook.parser rid).replyChunks nextSeq
      (reader.reply (engine.handleChatCompletions show_ nowMs paused payload.toJson)) = chunks := by
    rw [hsent, hreader.reply_eq (hfit.stream hr paused n m), ← hread]
    rfl
  rw [hchunks]
  exact ⟨hnum, htok⟩

theorem streamResumed_engine (hreader : reader.HandsOut limit) (hfit : engine.Fits limit session.requestId)
    {hook : EngineHook} (hh : hook.ReadsSeq) (hs : session.isStreaming = true)
    (hn : session.lastFlushedSequenceId + 1 = n)
    (hm : hook.requestedTokens session session.lastFlushedSequenceId = m)
    (resumeEndpoint formatType : Option String) :
    Consecutive session.requestId n
        (hook.streamResumed (engine.post show_ reader nowMs paused) session resumeEndpoint formatType) ∧
      (hook.streamResumed (engine.post show_ reader nowMs paused) session resumeEndpoint
        formatType).map TokenChunk.token =
          MockLLMEngine.served paused 0 ((engine.corpus.take (n + m)).drop n) := by
  have hpayload {payload : VLLMPayload} (hid : payload.requestId = session.requestId) :=
    @replyChunks_engine engine show_ reader limit nowMs paused n m hreader payload (hid ▸ hfit)
  cases hook with
  | vllm hook => exact @hpayload (hook.buildPrefixCachingPayload session "chat" none) rfl hs hn hm _ _
  | sglang hook => exact @hpayload (hook.buildPrefixCachingPayload session "chat" none) rfl hs hn hm _ _
  | mock hook => exact @hpayload (hook.buildPrefixCachingPayload session "chat" none) rfl hs hn hm _ _
  | tensorrtLlm | tgi => exact hh.elim

theorem MockLLMEngine.served_isPrefix (paused : ℕ → Bool) : ∀ (tokens : List PyStr) (idx : ℕ),
    MockLLMEngine.served paused idx tokens <+: tokens
  | [], _ => List.nil_prefix
  | token :: rest, idx => by
    rw [MockLLMEngine.served]
    split
    · exact List.nil_prefix
    · exact (List.prefix_cons_inj token).mpr (served_isPrefix paused rest (idx + 1))

end

/-! ### The session of a stream -/

/-- The first `n` tokens of the corpus are recorded in the session. -/
structure Follows (corpus : List PyStr) (n : ℕ) (s : InferenceSession) : Prop where
  le : n ≤ corpus.length
  text : s.generatedText = corpus.take n
  total : s.totalTokensGenerated = n
  last : s.lastFlushedSequenceId + 1 = n
  streaming : s.isStreaming = true

/-- The chunks are recorded as they are flushed. -/
def NodeDaemon.record (d : NodeDaemon) (chunks : List TokenChunk) : NodeDaemon :=
  chunks.foldl (fun d c => d.updateSessionToken c.requestId c.tokenId c.token c.sequenceId) d

section
variable {corpus : List PyStr} {n : ℕ} {s : InferenceSession}

/-- Where nothing is recorded of the text, the count of the session decides. -/
theorem requestedTokens_empty {c : ℤ} (h : s.prefixTokens c = ([], 0)) {hook : EngineHook}
    (hh : hook.ReadsSeq) :
    hook.requestedTokens s c = max 1 (s.samplingParams.maxTokens - s.totalTokensGenerated) := by
  cases hook with
  | vllm hook | sglang hook | mock hook =>
    simp [EngineHook.requestedTokens, VLLMInferenceEngineHook.formatResumptionPayload,
      SGLangInferenceEngineHook.buildPrefixCachingPayload,
      VLLMInferenceEngineHook.buildPrefixCachingPayload, h]
  | tensorrtLlm | tgi => exact hh.elim

theorem Follows.requestedTokens (h : Follows corpus n s) {hook : EngineHook} (hh : hook.ReadsSeq) :
    hook.requestedTokens s s.lastFlushedSequenceId = max 1 (s.samplingParams.maxTokens - n) := by
  have hlast := h.last
  have hlen : s.generatedText.length = n := by
    rw [h.text, List.length_take, min_eq_left h.le]
  by_cases hn : n = 0
  · subst hn
    have hnil : s.generatedText = [] := List.length_eq_zero_iff.mp hlen
    have hcutoff := @prefixTokens_negative s s.lastFlushedSequenceId (by omega)
    rw [hnil] at hcutoff
    rw [requestedTokens_empty hcutoff hh, h.total]
  · rw [requestedTokens_inside (by omega) (by omega), hlast]

/-- What is recorded of a stream is the stream. -/
theorem Follows.record {chunks : List TokenChunk} : ∀ {d : NodeDaemon} {s : InferenceSession} {n : ℕ},
    Follows corpus n s → d.activeSessions.get? s.requestId = some s →
      Consecutive s.requestId n chunks → chunks.map TokenChunk.token <+: corpus.drop n →
      ∃ s', (d.record chunks).activeSessions.get? s.requestId = some s' ∧
        Follows corpus (n + chunks.length) s' ∧ s'.requestId = s.requestId ∧
        s'.samplingParams = s.samplingParams := by
  induction chunks with
  | nil => exact fun h hd _ _ => ⟨_, hd, h, rfl, rfl⟩
  | cons c rest ih =>
    intro d s n h hd hnum hpre
    have hid : c.requestId = s.requestId := hnum.requestId_eq c List.mem_cons_self
    obtain ⟨hseq, hrest⟩ := hnum.numbered
    obtain ⟨tail, htail⟩ := hpre
    have hlt : n < corpus.length := by
      have hlen := congrArg List.length htail
      simp only [List.map_cons, List.length_append, List.length_cons, List.length_drop] at hlen
      omega
    have hdrop : corpus.drop n = c.token :: corpus.drop (n + 1) ∧
        rest.map TokenChunk.token <+: corpus.drop (n + 1) := by
      rw [List.drop_eq_getElem_cons hlt] at htail ⊢
      obtain ⟨hhead, hmore⟩ := List.cons.inj htail
      exact ⟨by rw [hhead], tail, hmore⟩
    let s₁ : InferenceSession := { s with
      generatedTokens := s.generatedTokens ++ [c.tokenId]
      generatedText := s.generatedText ++ [c.token]
      totalTokensGenerated := s.totalTokensGenerated + 1
      lastFlushedSequenceId := c.sequenceId }
    have hs₁ : Follows corpus (n + 1) s₁ := by
      refine ⟨hlt, ?_, ?_, ?_, h.streaming⟩
      · have htoken : corpus[n]? = some c.token := by
          rw [← List.head?_drop, hdrop.1]
          rfl
        rw [List.take_add_one, htoken, ← h.text]
        rfl
      · exact_mod_cast congrArg (· + 1) h.total
      · show c.sequenceId + 1 = ((n + 1 : ℕ) : ℤ)
        rw [hseq]
        push_cast
        rfl
    have hd₁ : (d.updateSessionToken c.requestId c.tokenId c.token c.sequenceId).activeSessions.get?
        s.requestId = some s₁ := by
      rw [hid, NodeDaemon.updateSessionToken, hd]
      exact Dict.get?_set_self _ _ _
    have hnum₁ : Consecutive s.requestId ((n + 1 : ℕ) : ℤ) rest := by
      refine ⟨?_, fun c hc => hnum.requestId_eq c (List.mem_cons_of_mem _ hc)⟩
      push_cast
      exact hrest
    obtain ⟨s', hget, hfollows, hrid, hparams⟩ := ih hs₁ hd₁ hnum₁ hdrop.2
    refine ⟨s', hget, ?_, hrid, hparams⟩
    rwa [List.length_cons, show n + (rest.length + 1) = n + 1 + rest.length by omega]

end

/-! ### Any number of migrations -/

/-- A node on the way: the hook that resumes the session at its engine, when this
is asked and when it is paused, and the daemon that records what the client
gets. -/
structure Leg where
  hook : EngineHook
  nowMs : ℤ
  paused : ℕ → Bool
  daemon : NodeDaemon
  resumeEndpoint : Option String := none
  formatType : Option String := none

namespace Leg

variable (engine : MockLLMEngine) (show_ : Json → List Char) (reader : LineReader)

/-- The chunks that a node adds, and the session when it is handed on. -/
def carry (x : List TokenChunk × InferenceSession) (leg : Leg) : List TokenChunk × InferenceSession :=
  let chunks := leg.hook.streamResumed (engine.post show_ reader leg.nowMs leg.paused) x.2
    leg.resumeEndpoint leg.formatType
  (x.1 ++ chunks,
    (((leg.daemon.registerSession x.2).record chunks).activeSessions.get? x.2.requestId).getD x.2)

def relay (session : InferenceSession) (legs : List Leg) : List TokenChunk × InferenceSession :=
  legs.foldl (carry engine show_ reader) ([], session)

end Leg

section
variable {engine : MockLLMEngine} {show_ : Json → List Char} {reader : LineReader} {limit : ℕ}
  {session : InferenceSession} {x : List TokenChunk × InferenceSession}

/-- What the client has got is the beginning of the corpus, and the session knows
of it. -/
structure Carried (engine : MockLLMEngine) (session : InferenceSession)
    (x : List TokenChunk × InferenceSession) : Prop where
  consecutive : Consecutive session.requestId 0 x.1
  tokens : x.1.map TokenChunk.token = engine.corpus.take x.1.length
  follows : Follows engine.corpus x.1.length x.2
  requestId : x.2.requestId = session.requestId
  params : x.2.samplingParams = session.samplingParams

/-- A resumption adds tokens from where the client is, within what is asked for. -/
theorem Carried.resumed (hreader : reader.HandsOut limit) (hfit : engine.Fits limit session.requestId)
    (h : Carried engine session x) {hook : EngineHook} (hh : hook.ReadsSeq) (nowMs : ℤ) (paused : ℕ → Bool)
    (resumeEndpoint formatType : Option String) : ∃ (chunks : List TokenChunk) (m : ℕ),
      hook.streamResumed (engine.post show_ reader nowMs paused) x.2 resumeEndpoint formatType = chunks ∧
      (m : ℤ) = max 1 (session.samplingParams.maxTokens - x.1.length) ∧
      Consecutive session.requestId x.1.length chunks ∧
      chunks.map TokenChunk.token =
        MockLLMEngine.served paused 0 ((engine.corpus.take (x.1.length + m)).drop x.1.length) := by
  obtain ⟨m, hm⟩ : ∃ m : ℕ, (m : ℤ) = max 1 (session.samplingParams.maxTokens - x.1.length) :=
    ⟨_, Int.toNat_of_nonneg (by omega)⟩
  have hrequested : hook.requestedTokens x.2 x.2.lastFlushedSequenceId = m := by
    rw [h.follows.requestedTokens hh, h.params, hm]
  obtain ⟨hnum, htok⟩ := @streamResumed_engine engine show_ reader limit nowMs paused x.2 x.1.length m
    hreader (h.requestId ▸ hfit) hook hh h.follows.streaming h.follows.last hrequested resumeEndpoint formatType
  rw [h.requestId] at hnum
  exact ⟨_, m, rfl, hm, hnum, htok⟩

theorem Carried.carry (hreader : reader.HandsOut limit) (hfit : engine.Fits limit session.requestId)
    (h : Carried engine session x) {leg : Leg} (hh : leg.hook.ReadsSeq) :
    Carried engine session (leg.carry engine show_ reader x) := by
  obtain ⟨chunks, m, hchunks, -, hnum, htok⟩ := @Carried.resumed engine show_ reader limit session x hreader
    hfit h leg.hook hh leg.nowMs leg.paused leg.resumeEndpoint leg.formatType
  have hpre : chunks.map TokenChunk.token <+: engine.corpus.drop x.1.length := by
    rw [htok]
    refine (MockLLMEngine.served_isPrefix _ _ _).trans ?_
    exact (List.take_prefix _ _).drop _
  have hregistered : (leg.daemon.registerSession x.2).activeSessions.get? x.2.requestId = some x.2 :=
    Dict.get?_set_self _ _ _
  obtain ⟨s', hget, hfollows, hrid, hparams⟩ :=
    h.follows.record hregistered (h.requestId ▸ hnum) hpre
  have hcarry : leg.carry engine show_ reader x = (x.1 ++ chunks, s') := by
    unfold Leg.carry
    rw [hchunks]
    exact congrArg (fun s => (x.1 ++ chunks, s)) (congrArg (Option.getD · x.2) hget)
  rw [hcarry]
  refine ⟨?_, ?_, ?_, hrid.trans h.requestId, hparams.trans h.params⟩
  · refine h.consecutive.append ?_
    rwa [zero_add]
  · obtain ⟨tail, htail⟩ := hpre
    rw [List.map_append, List.length_append, h.tokens, List.take_add, ← htail,
      List.take_left' (List.length_map _)]
  · rwa [List.length_append]

theorem carried_relay (hreader : reader.HandsOut limit) (hfit : engine.Fits limit session.requestId)
    (hs : Follows engine.corpus 0 session) {legs : List Leg} (hl : ∀ leg ∈ legs, leg.hook.ReadsSeq) :
    Carried engine session (Leg.relay engine show_ reader session legs) := by
  induction legs using List.reverseRecOn with
  | nil => exact ⟨.nil, rfl, hs, rfl, rfl⟩
  | append_singleton legs leg ih =>
    have hlegs := ih fun l hmem => hl l (List.mem_append_left _ hmem)
    rw [Leg.relay, List.foldl_append]
    exact Carried.carry hreader hfit hlegs (hl leg (List.mem_append_right _ List.mem_cons_self))

/-- A generation survives any number of migrations. A session that is begun,
paused anywhere, handed on and resumed, as often as one likes, by the hooks that
read the numbers of the engine, gives the client the corpus from its beginning,
numbered from 0, each token once; and with an engine that is not paused at the
end, the tokens are those that the client asked for, if and only if the corpus
ends within them or the last engine was asked before they were used up. -/
theorem relay_seamless_iff (hreader : reader.HandsOut limit) (hfit : engine.Fits limit session.requestId)
    (hs : Follows engine.corpus 0 session) {legs : List Leg} (hl : ∀ leg ∈ legs, leg.hook.ReadsSeq)
    {hook : EngineHook} (hh : hook.ReadsSeq) (nowMs : ℤ) (resumeEndpoint formatType : Option String) :
    let x := Leg.relay engine show_ reader session legs
    let chunks := x.1 ++ hook.streamResumed (engine.post show_ reader nowMs fun _ => false) x.2
      resumeEndpoint formatType
    Consecutive session.requestId 0 chunks ∧ chunks.map TokenChunk.token <+: engine.corpus ∧
      (chunks.map TokenChunk.token = engine.corpus.take session.samplingParams.maxTokens.toNat ↔
        engine.corpus.length ≤ session.samplingParams.maxTokens ∨
          x.1.length < session.samplingParams.maxTokens) := by
  intro x chunks
  have hx : Carried engine session x := carried_relay hreader hfit hs hl
  obtain ⟨last, m, hlast, hm, hnum, htok⟩ := @Carried.resumed engine show_ reader limit session x hreader hfit
    hx hook hh nowMs (fun _ => false) resumeEndpoint formatType
  have hchunks : chunks = x.1 ++ last := congrArg (x.1 ++ ·) hlast
  rw [MockLLMEngine.served_never] at htok
  have htokens : chunks.map TokenChunk.token = engine.corpus.take (x.1.length + m) := by
    have hle : min (x.1.length + m) x.1.length = x.1.length := by omega
    rw [hchunks, List.map_append, htok, hx.tokens]
    conv_rhs => rw [← List.take_append_drop x.1.length (engine.corpus.take (x.1.length + m)),
      List.take_take, min_comm, hle]
  have hpos := session.samplingParams.maxTokens_pos
  refine ⟨?_, ?_, ?_⟩
  · rw [hchunks]
    refine hx.consecutive.append ?_
    rwa [zero_add]
  · rw [htokens]
    exact List.take_prefix _ _
  · rw [htokens]
    constructor
    · intro he
      have hlen := congrArg List.length he
      rw [List.length_take, List.length_take] at hlen
      omega
    · rintro (hend | hlt)
      · rw [List.take_of_length_le (by omega), List.take_of_length_le (by omega)]
      · rw [show x.1.length + m = session.samplingParams.maxTokens.toNat by omega]

/-- What a session made of the proxy's list asks for: the default, since neither
the client's limit nor what it has got is in the list. -/
theorem requestedTokens_listed (r : ActiveRequest) {hook : EngineHook} (hh : hook.ReadsSeq) :
    hook.requestedTokens r.session r.session.lastFlushedSequenceId = 512 := by
  have hcutoff : r.session.prefixTokens r.session.lastFlushedSequenceId = ([], 0) := by
    unfold InferenceSession.prefixTokens
    rw [if_neg (fun hno => hno.2 rfl), if_neg (fun hno => hno rfl)]
  exact (requestedTokens_empty hcutoff hh).trans rfl

/-- **A session learnt from the proxy.** Where the client has `n` tokens and the
session is made of the proxy's list, the resumption gives it the tokens after
these; they end where it asked for, if and only if this is 512 tokens on, or the
corpus ends before both. -/
theorem listed_seamless_iff (hreader : reader.HandsOut limit) (r : ActiveRequest)
    (hfit : engine.Fits limit r.requestId) {n : ℕ} (hn : r.session.lastFlushedSequenceId + 1 = n) (m : ℕ)
    {hook : EngineHook} (hh : hook.ReadsSeq) (nowMs : ℤ) (resumeEndpoint formatType : Option String) :
    let chunks := hook.streamResumed (engine.post show_ reader nowMs fun _ => false) r.session
      resumeEndpoint formatType
    Consecutive r.requestId n chunks ∧
      (engine.corpus.take n ++ chunks.map TokenChunk.token = engine.corpus.take m ↔
        n + 512 = m ∨ engine.corpus.length ≤ m ∧ engine.corpus.length ≤ n + 512) := by
  intro chunks
  obtain ⟨hnum, htok⟩ := @streamResumed_engine engine show_ reader limit nowMs (fun _ => false) r.session n 512
    hreader hfit hook hh rfl hn (requestedTokens_listed r hh) resumeEndpoint formatType
  rw [MockLLMEngine.served_never] at htok
  have htokens : engine.corpus.take n ++ chunks.map TokenChunk.token = engine.corpus.take (n + 512) := by
    rw [htok]
    conv_rhs => rw [← List.take_append_drop n (engine.corpus.take (n + 512)), List.take_take,
      min_eq_left (by omega)]
  refine ⟨hnum, ?_⟩
  rw [htokens]
  constructor
  · intro he
    have hlen := congrArg List.length he
    rw [List.length_take, List.length_take] at hlen
    omega
  · rintro (he | ⟨hm, h512⟩)
    · rw [he]
    · rw [List.take_of_length_le h512, List.take_of_length_le hm]

end

/-! ### A corpus of three tokens -/

def abcCorpus : List PyStr := ["a", "b", "c"]

theorem abcCorpus_ne : abcCorpus ≠ [] := List.cons_ne_nil _ _

theorem abcCorpus_length : abcCorpus.length < 2 ^ 63 := by decide

theorem abcCorpus_unpaired : ∀ token ∈ abcCorpus, token.Unpaired := by decide

def abcEngine : MockLLMEngine := ⟨abcCorpus, abcCorpus_ne, abcCorpus_length, abcCorpus_unpaired⟩

theorem fits_abcEngine : abcEngine.Fits LineReader.usualLimit "r" where
  event k token isLast hk l hl := by
    have hevents : ∀ token ∈ abcCorpus, ∀ k < 3, ∀ isLast,
        (MockLLMEngine.event "r" token (k : ℕ) isLast).length ≤ LineReader.usualLimit := by
      decide +kernel
    obtain ⟨hlt, -⟩ := List.getElem?_eq_some_iff.mp hk
    exact (length_le_of_mem_contentLines hl).trans
      (hevents token (List.mem_of_getElem? hk) k hlt isLast)
  done l hl := by
    have hdone : MockLLMEngine.doneLine.length ≤ LineReader.usualLimit := by decide +kernel
    exact (length_le_of_mem_contentLines hl).trans hdone

/-- A client that has one token and asked for two gets the rest of the corpus. -/
theorem listed_seamless_iff_one :
    ¬ abcEngine.corpus.take 1 ++ ((EngineHook.mock { baseUrl := "http://b" }).streamResumed
      (abcEngine.post (fun _ => []) (LineReader.bounded LineReader.usualLimit) 1700000000000 fun _ => false)
      (ActiveRequest.session { requestId := "r", lastFlushedSequenceId := some 0 }) none none).map
        TokenChunk.token = abcEngine.corpus.take 2 := by
  obtain ⟨-, hiff⟩ := @listed_seamless_iff abcEngine (fun _ => []) _ _
    (LineReader.handsOut_bounded LineReader.usualLimit)
    { requestId := "r", lastFlushedSequenceId := some 0 } fits_abcEngine 1 rfl 2
    (.mock { baseUrl := "http://b" }) trivial 1700000000000 none none
  rw [hiff]
  decide

end Sgm
