/-
# Resumed streams

`stream_resumed` of the engine hooks: the request to the standby's engine, and
its response line by line. The three parsers differ in what they skip, in what
ends them, and in where they catch exceptions; that of TGI feeds a stop filter
and flushes it at the end. Each is a `LineParser`, and all of them count: the
number of the next chunk moves exactly when a chunk is yielded
(`LineParser.Counts`). So a resumed stream is numbered from the cutoff on,
whatever the engine sends (`EngineHook.consecutive_streamResumed`).

Key definitions: `LineParser`, `LineParser.chunks`, `LineParser.Counts`,
`VLLMInferenceEngineHook.parser`, `TensorRTLLMEngineHook.parser`, `TGIEngineHook.parser`,
`EngineHook.streamResumed`.
Key theorems: `LineParser.Counts.chunks`, `TGIEngineHook.parseLine_cases`,
`EngineHook.consecutive_streamResumed`, `EngineHook.streamResumed_accepted`.
-/
import Sgm.Integrations.Payload
import Sgm.Integrations.StopFilter
import Sgm.Lib.Utf8
import Sgm.Proxy.Buffer
import Sgm.Proxy.Sse

namespace Sgm

open Text

/-! ### Parsers of lines -/

/-- What follows a line: the next one, the end of the loop, or an exception
that leaves the loop. -/
inductive After
  | next
  | stop
  | failed
  deriving DecidableEq

/-- What a line yields, and what is yielded after the loop. -/
structure LineParser (σ : Type) where
  line : σ → Bytes → σ × List TokenChunk × After
  conclude : σ → List TokenChunk

namespace LineParser

variable {σ : Type}

/-- What comes of a line, and whether the next one is read. -/
def read (p : LineParser σ) (s : σ) (lineBytes : Bytes) : σ × List TokenChunk × Bool :=
  match p.line s lineBytes with
  | (s', out, .next) => (s', out, true)
  | (s', out, .stop) => (s', out ++ p.conclude s', false)
  | (s', out, .failed) => (s', out, false)

theorem read_next {p : LineParser σ} {s s' : σ} {l : Bytes} {out : List TokenChunk}
    (h : p.line s l = (s', out, .next)) : p.read s l = (s', out, true) := by
  rw [read, h]

theorem read_stop {p : LineParser σ} {s s' : σ} {l : Bytes} {out : List TokenChunk}
    (h : p.line s l = (s', out, .stop)) : p.read s l = (s', out ++ p.conclude s', false) := by
  rw [read, h]

theorem read_failed {p : LineParser σ} {s s' : σ} {l : Bytes} {out : List TokenChunk}
    (h : p.line s l = (s', out, .failed)) : p.read s l = (s', out, false) := by
  rw [read, h]

/-- The chunks yielded from the lines of a body. -/
def chunks (p : LineParser σ) : σ → List Bytes → ReadEnd → List TokenChunk
  | s, [], .eof => p.conclude s
  | _, [], .error => []
  | s, lineBytes :: rest, ending =>
    let (s', out, goesOn) := p.read s lineBytes
    out ++ if goesOn then p.chunks s' rest ending else []

theorem chunks_cons (p : LineParser σ) (s : σ) (l : Bytes) (lines : List Bytes) (ending : ReadEnd) :
    p.chunks s (l :: lines) ending = (p.read s l).2.1 ++
      if (p.read s l).2.2 = true then p.chunks (p.read s l).1 lines ending else [] := rfl

/-- The chunks yielded from what a request meets. -/
def replyChunks (p : LineParser σ) (s : σ) : Reply → List TokenChunk
  | .refused => []
  | .response status lines ending => if status ≠ 200 then [] else p.chunks s lines ending

end LineParser

/-! ### vLLM -/

namespace VLLMInferenceEngineHook

def parseLine (requestId : String) (nextSeq : ℤ) (lineBytes : Bytes) : ℤ × List TokenChunk × After :=
  match decodeUtf8 lineBytes with
  | none => (nextSeq, [], .failed)
  | some text =>
    let line := strip text
    if line = [] ∨ ":".toList.isPrefixOf line then (nextSeq, [], .next)
    else if "data:".toList.isPrefixOf line then
      let dataStr := strip (line.drop 5)
      if dataStr = "[DONE]".toList then (nextSeq, [], .stop)
      else
        match parsePayload dataStr nextSeq with
        | some (token, seqId) =>
          (seqId + 1, [{ requestId := requestId, sequenceId := seqId, token := token,
                         rawBytes := lineBytes }], .next)
        | none => (nextSeq, [], .next)
    else (nextSeq, [], .next)

def parser (requestId : String) : LineParser ℤ where
  line := parseLine requestId
  conclude := fun _ => []

end VLLMInferenceEngineHook

/-! ### TensorRT-LLM -/

namespace TensorRTLLMEngineHook

/-- The value of `text_output`, or of what stands in for it; `none` where this
raises. -/
def textOutput (data : List (List Char × Json)) : Option Json :=
  let textOutput := (Json.field? data "text_output".toList).getD (.str [])
  if textOutput.truthy then some textOutput
  else
    match Json.field? data "text".toList, Json.field? data "choices".toList with
    | some text, _ => some text
    | none, none => some textOutput
    | none, some choices =>
      if choices.truthy then
        match choices with
        | .arr (.obj choice :: _) =>
          match (Json.field? choice "delta".toList).getD (.obj []) with
          | .obj delta => some ((Json.field? delta "content".toList).getD (.str []))
          | _ => none
        | _ => none
      else some textOutput

def parseData (requestId : String) (nextSeq : ℤ) (lineBytes : Bytes) (dataStr : List Char) :
    ℤ × List TokenChunk × After :=
  if dataStr = "[DONE]".toList then (nextSeq, [], .stop)
  else
    match Json.loads dataStr with
    | some (.obj data) =>
      let isFinal := ((Json.field? data "sequence_end".toList).getD (.bool false)).truthy
      match textOutput data with
      | some (.str token) =>
        (nextSeq + 1, [{ requestId := requestId, sequenceId := nextSeq, token := token,
                         isFinal := isFinal, rawBytes := lineBytes }],
          if isFinal then .stop else .next)
      | _ => (nextSeq, [], .next)
    | _ => (nextSeq, [], .next)

def parseLine (requestId : String) (nextSeq : ℤ) (lineBytes : Bytes) : ℤ × List TokenChunk × After :=
  let line := strip (Utf8.decodeReplace lineBytes)
  if line = [] ∨ ":".toList.isPrefixOf line then (nextSeq, [], .next)
  else
    parseData requestId nextSeq lineBytes
      (if "data:".toList.isPrefixOf line then strip (line.drop 5) else line)

def parser (requestId : String) : LineParser ℤ where
  line := parseLine requestId
  conclude := fun _ => []

end TensorRTLLMEngineHook

/-! ### TGI -/

/-- The chunks of the strings, numbered from `nextSeq` on. -/
def numberTokens (requestId : String) (isFinal : Bool) (rawBytes : Bytes) :
    ℤ → List PyStr → List TokenChunk
  | _, [] => []
  | nextSeq, token :: tokens =>
    { requestId := requestId, sequenceId := nextSeq, token := token, isFinal := isFinal,
      rawBytes := rawBytes } :: numberTokens requestId isFinal rawBytes (nextSeq + 1) tokens

namespace TGIEngineHook

/-- The local variables of the loop. -/
structure StreamState where
  nextSeq : ℤ
  stopFilter : SlidingWindowStopFilter

/-- What the fields of a line say. -/
inductive Parsed
  | raised
  | special
  | text (rawTokenText : Json) (isFinal : Bool)

/-- `d.get(key) is not None` -/
def given (fields : List (List Char × Json)) (key : List Char) : Bool :=
  match Json.field? fields key with
  | none | some .null => false
  | some _ => true

def parseCompat (data : List (List Char × Json)) : Parsed :=
  let choices := (Json.field? data "choices".toList).getD (.arr [])
  if choices.truthy then
    match choices with
    | .arr (.obj choice :: _) =>
      match (Json.field? choice "delta".toList).getD (.obj []) with
      | .obj delta =>
        .text ((Json.field? delta "content".toList).getD (.str [])) (given choice "finish_reason".toList)
      | _ => .raised
    | _ => .raised
  else .text (.str []) false

def parseNative (data : List (List Char × Json)) : Parsed :=
  match (Json.field? data "token".toList).getD (.obj []) with
  | .obj tokenInfo =>
    if ((Json.field? tokenInfo "special".toList).getD (.bool false)).truthy then .special
    else
      .text ((Json.field? tokenInfo "text".toList).getD (.str []))
        (given data "generated_text".toList || given data "details".toList)
  | _ => .raised

/-- `stop_filter.feed` of a JSON value, and the chunks' own check of what is
safe; `none` where one of them raises. -/
def feed (f : SlidingWindowStopFilter) (rawTokenText : Json) :
    Option (SlidingWindowStopFilter × List PyStr) :=
  if f.matchedStop then some (f, [])
  else
    match rawTokenText with
    | .str text => some (f.feed text)
    | rawTokenText => if rawTokenText.truthy then none else some (f, [])

/-- A line whose fields are read. -/
def parseFields (requestId : String) (s : StreamState) (lineBytes : Bytes) :
    Parsed → StreamState × List TokenChunk × After
  | .raised => (s, [], .failed)
  | .special => (s, [], .next)
  | .text rawTokenText isFinal =>
    match feed s.stopFilter rawTokenText with
    | none => (s, [], .failed)
    | some (stopFilter, safeTokens) =>
      (⟨s.nextSeq + safeTokens.length, stopFilter⟩,
        numberTokens requestId false lineBytes s.nextSeq safeTokens,
        if isFinal ∨ stopFilter.matchedStop then .stop else .next)

def parseData (compat : Bool) (requestId : String) (s : StreamState)
    (lineBytes : Bytes) (dataStr : List Char) : StreamState × List TokenChunk × After :=
  if dataStr = "[DONE]".toList then (s, [], .stop)
  else
    match Json.loads dataStr with
    | none => (s, [], if Json.tooLong dataStr then .failed else .next)
    | some (.obj data) =>
      parseFields requestId s lineBytes (if compat then parseCompat data else parseNative data)
    | some _ => (s, [], .failed)

def parseLine (compat : Bool) (requestId : String) (s : StreamState) (lineBytes : Bytes) :
    StreamState × List TokenChunk × After :=
  let line := strip (Utf8.decodeReplace lineBytes)
  if line = [] ∨ ":".toList.isPrefixOf line then (s, [], .next)
  else if "data:".toList.isPrefixOf line then
    parseData compat requestId s lineBytes (strip (line.drop 5))
  else (s, [], .next)

def parser (compat : Bool) (requestId : String) : LineParser StreamState where
  line := parseLine compat requestId
  conclude := fun s => numberTokens requestId true [] s.nextSeq s.stopFilter.flushFinal.2

end TGIEngineHook

/-! ### The streams -/

def InferenceSession.streamHeaders (session : InferenceSession) : List (String × String) :=
  [("Content-Type", "application/json"), ("X-SGM-Request-ID", session.requestId),
    ("X-SGM-Resumed", "true")]

/-- The payload of a request. -/
inductive StreamPayload
  | vllm (payload : VLLMPayload)
  | tensorrtLlm (payload : TensorRTPayload)
  | tgi (payload : TGIPayload)

/-- `http_session.post` of a URL, a payload and headers. -/
abbrev Post := PyStr → StreamPayload → List (String × String) → Reply

def VLLMInferenceEngineHook.streamResumed (hook : VLLMInferenceEngineHook) (post : Post)
    (session : InferenceSession) (resumeEndpoint : Option String) : List TokenChunk :=
  let url : String := targetEndpoint resumeEndpoint hook.baseUrl ++ "/v1/chat/completions"
  let payload := hook.buildPrefixCachingPayload session "chat" none
  let nextSeq := session.lastFlushedSequenceId + 1
  (VLLMInferenceEngineHook.parser session.requestId).replyChunks nextSeq
    (post url (.vllm payload) session.streamHeaders)

/-- The inherited method, with its own builder. -/
def SGLangInferenceEngineHook.streamResumed (hook : SGLangInferenceEngineHook) (post : Post)
    (session : InferenceSession) (resumeEndpoint : Option String) : List TokenChunk :=
  let url : String := targetEndpoint resumeEndpoint hook.baseUrl ++ "/v1/chat/completions"
  let payload := hook.buildPrefixCachingPayload session "chat" none
  let nextSeq := session.lastFlushedSequenceId + 1
  (VLLMInferenceEngineHook.parser session.requestId).replyChunks nextSeq
    (post url (.vllm payload) session.streamHeaders)

/-- The number after the cutoff, and never a negative one. -/
def InferenceSession.resumeSeq (session : InferenceSession) : ℤ :=
  let nextSeq := session.lastFlushedSequenceId + 1
  if nextSeq < 0 then 0 else nextSeq

def TensorRTLLMEngineHook.streamResumed (hook : TensorRTLLMEngineHook) (post : Post)
    (session : InferenceSession) (resumeEndpoint : Option String) : List TokenChunk :=
  let modelName := if session.model ≠ [] then session.model else hook.modelName
  let url : PyStr := .ofString (targetEndpoint resumeEndpoint hook.baseUrl ++ "/v2/models/") ++ modelName ++
    .ofString "/generate_stream"
  let payload := hook.buildPrefixCachingPayload session none
  (TensorRTLLMEngineHook.parser session.requestId).replyChunks session.resumeSeq
    (post url (.tensorrtLlm payload) session.streamHeaders)

namespace TGIEngineHook

/-- Whether the lines are those of the OpenAI-compatible interface. -/
def readsCompat (hook : TGIEngineHook) (formatType : Option String) : Bool :=
  hook.effectiveFormat formatType ∈ ["compat", "chat", "openai"]

/-- The local variables before the loop. -/
def startState (session : InferenceSession) : StreamState where
  nextSeq := session.resumeSeq
  stopFilter := .new (some session.stopWords)

def streamResumed (hook : TGIEngineHook) (post : Post)
    (session : InferenceSession) (resumeEndpoint formatType : Option String) : List TokenChunk :=
  let endpoint := targetEndpoint resumeEndpoint hook.baseUrl
  let effectiveFormat := hook.effectiveFormat formatType
  let url : String :=
    if hook.readsCompat formatType then endpoint ++ "/compat/v1/chat/completions"
    else endpoint ++ "/generate_stream"
  let payload := hook.buildPrefixCachingPayload session (some effectiveFormat) none
  (parser (hook.readsCompat formatType) session.requestId).replyChunks (startState session)
    (post url (.tgi payload) session.streamHeaders)

end TGIEngineHook

/-- The method of each hook; only that of TGI has a `formatType`. -/
def EngineHook.streamResumed (post : Post) (session : InferenceSession)
    (resumeEndpoint formatType : Option String) : EngineHook → List TokenChunk
  | .vllm hook => hook.streamResumed post session resumeEndpoint
  | .sglang hook => hook.streamResumed post session resumeEndpoint
  | .mock hook => hook.streamResumed post session resumeEndpoint
  | .tensorrtLlm hook => hook.streamResumed post session resumeEndpoint
  | .tgi hook => hook.streamResumed post session resumeEndpoint formatType

/-! ### Counting -/

/-- Chunks of the request, numbered from `a` on. -/
structure Consecutive (requestId : String) (a : ℤ) (chunks : List TokenChunk) : Prop where
  numbered : InOrder.Numbered TokenChunk.sequenceId a chunks
  requestId_eq : ∀ chunk ∈ chunks, chunk.requestId = requestId

namespace Consecutive

variable {requestId : String} {a : ℤ}

theorem nil : Consecutive requestId a [] := ⟨trivial, by simp⟩

theorem singleton {chunk : TokenChunk} (hseq : chunk.sequenceId = a)
    (hid : chunk.requestId = requestId) : Consecutive requestId a [chunk] :=
  ⟨⟨hseq, trivial⟩, by simpa using hid⟩

theorem append {l l' : List TokenChunk} (h : Consecutive requestId a l)
    (h' : Consecutive requestId (a + l.length) l') : Consecutive requestId a (l ++ l') := by
  refine ⟨InOrder.numbered_append.mpr ⟨h.numbered, h'.numbered⟩, ?_⟩
  intro chunk hmem
  rcases List.mem_append.mp hmem with hmem | hmem
  · exact h.requestId_eq chunk hmem
  · exact h'.requestId_eq chunk hmem

end Consecutive

theorem consecutive_numberTokens (requestId : String) (isFinal : Bool) (rawBytes : Bytes) (a : ℤ)
    (tokens : List PyStr) :
    Consecutive requestId a (numberTokens requestId isFinal rawBytes a tokens) := by
  induction tokens generalizing a with
  | nil => exact .nil
  | cons token tokens ih =>
    have htail := ih (a + 1)
    exact ⟨⟨rfl, htail.numbered⟩, List.forall_mem_cons.mpr ⟨rfl, htail.requestId_eq⟩⟩

theorem length_numberTokens (requestId : String) (isFinal : Bool) (rawBytes : Bytes) (a : ℤ)
    (tokens : List PyStr) :
    (numberTokens requestId isFinal rawBytes a tokens).length = tokens.length := by
  induction tokens generalizing a with
  | nil => rfl
  | cons token tokens ih => rw [numberTokens, List.length_cons, List.length_cons, ih]

namespace LineParser

variable {σ : Type} {p : LineParser σ} {nextSeq : σ → ℤ} {requestId : String} {ok : Bytes → Prop}

/-- On the lines that are `ok`, the number moves exactly with the chunks. -/
structure Counts (p : LineParser σ) (nextSeq : σ → ℤ) (requestId : String) (ok : Bytes → Prop) :
    Prop where
  line : ∀ s l, ok l → Consecutive requestId (nextSeq s) (p.line s l).2.1 ∧
    nextSeq (p.line s l).1 = nextSeq s + (p.line s l).2.1.length
  conclude : ∀ s, Consecutive requestId (nextSeq s) (p.conclude s)

theorem Counts.read (h : p.Counts nextSeq requestId ok) (s : σ) {l : Bytes} (hl : ok l) :
    Consecutive requestId (nextSeq s) (p.read s l).2.1 ∧ ((p.read s l).2.2 = true →
      nextSeq (p.read s l).1 = nextSeq s + (p.read s l).2.1.length) := by
  obtain ⟨hout, hnext⟩ := h.line s l hl
  rcases hline : p.line s l with ⟨s', out, after⟩
  rw [hline] at hout hnext
  cases after with
  | next =>
    rw [read_next hline]
    exact ⟨hout, fun _ => hnext⟩
  | failed =>
    rw [read_failed hline]
    exact ⟨hout, fun hf => absurd hf Bool.false_ne_true⟩
  | stop =>
    have hend := h.conclude s'
    rw [show nextSeq s' = nextSeq s + out.length from hnext] at hend
    rw [read_stop hline]
    exact ⟨hout.append hend, fun hf => absurd hf Bool.false_ne_true⟩

/-- Whatever the lines are, the chunks are numbered without a gap. -/
theorem Counts.chunks (h : p.Counts nextSeq requestId ok) (s : σ) {lines : List Bytes}
    (hl : ∀ l ∈ lines, ok l) (ending : ReadEnd) :
    Consecutive requestId (nextSeq s) (p.chunks s lines ending) := by
  induction lines generalizing s with
  | nil =>
    cases ending with
    | eof => exact h.conclude s
    | error => exact .nil
  | cons l lines ih =>
    obtain ⟨hl, hlines⟩ := List.forall_mem_cons.mp hl
    obtain ⟨hout, hnext⟩ := h.read s hl
    rw [chunks_cons]
    refine hout.append ?_
    by_cases hgoes : (p.read s l).2.2 = true
    · rw [if_pos hgoes, ← hnext hgoes]
      exact ih _ hlines
    · rw [if_neg hgoes]
      exact .nil

end LineParser

/-! ### The parsers count -/

/-- A `data:` line has no `seq` field. -/
def SeqFree (lineBytes : Bytes) : Prop :=
  ∀ text data, decodeUtf8 lineBytes = some text → "data:".toList.isPrefixOf (strip text) = true →
    Json.loads (strip ((strip text).drop 5)) = some (.obj data) → Json.field? data "seq".toList = none

/-- Without a `seq` field a chunk gets the current number. -/
theorem parsePayload_seq {payload : List Char} {token : PyStr} {seq seqId : ℤ}
    (hfree : ∀ data, Json.loads payload = some (.obj data) → Json.field? data "seq".toList = none)
    (h : parsePayload payload seq = some (token, seqId)) : seqId = seq := by
  unfold parsePayload at h
  rcases hl : Json.loads payload with _ | j
  · simp [hl] at h
  · cases j with
    | obj data =>
      have hseq : Json.toInt ((Json.field? data "seq".toList).getD (.int seq)) = some seq := by
        rw [hfree data hl]
        rfl
      simp only [hl, hseq, Option.bind_eq_bind, Option.bind_some, Option.bind_none] at h
      split at h
      · split at h
        · split at h
          · split at h
            · exact (Prod.mk.inj (Option.some.inj h)).2.symm
            · cases h
          · cases h
        · cases h
      · split at h
        · exact (Prod.mk.inj (Option.some.inj h)).2.symm
        · cases h
    | _ => simp [hl] at h

/-- A line yields nothing, or one chunk with the current number. -/
theorem VLLMInferenceEngineHook.parseLine_cases (requestId : String) (nextSeq : ℤ) {l : Bytes}
    (hl : SeqFree l) :
    (∃ after, parseLine requestId nextSeq l = (nextSeq, [], after)) ∨
      ∃ token, parseLine requestId nextSeq l = (nextSeq + 1,
        [{ requestId := requestId, sequenceId := nextSeq, token := token, rawBytes := l }], .next) := by
  unfold parseLine
  split
  · exact Or.inl ⟨.failed, rfl⟩
  · rename_i text htext
    dsimp only
    split_ifs with hblank hdata hdone
    · exact Or.inl ⟨.next, rfl⟩
    · exact Or.inl ⟨.stop, rfl⟩
    · split
      · rename_i token seqId hparse
        obtain rfl := parsePayload_seq (fun data => hl text data htext hdata) hparse
        exact Or.inr ⟨token, rfl⟩
      · exact Or.inl ⟨.next, rfl⟩
    · exact Or.inl ⟨.next, rfl⟩

theorem TensorRTLLMEngineHook.parseLine_cases (requestId : String) (nextSeq : ℤ) (l : Bytes) :
    (∃ after, parseLine requestId nextSeq l = (nextSeq, [], after)) ∨
      ∃ token isFinal, parseLine requestId nextSeq l = (nextSeq + 1,
        [{ requestId := requestId, sequenceId := nextSeq, token := token, isFinal := isFinal, rawBytes := l }],
        if isFinal then .stop else .next) := by
  have hdata : ∀ dataStr, (∃ after, parseData requestId nextSeq l dataStr = (nextSeq, [], after)) ∨
      ∃ token isFinal, parseData requestId nextSeq l dataStr = (nextSeq + 1,
        [{ requestId := requestId, sequenceId := nextSeq, token := token, isFinal := isFinal, rawBytes := l }],
        if isFinal then .stop else .next) := by
    intro dataStr
    unfold parseData
    split
    · exact Or.inl ⟨.stop, rfl⟩
    · split
      · dsimp only
        split
        · exact Or.inr ⟨_, _, rfl⟩
        · exact Or.inl ⟨.next, rfl⟩
      · exact Or.inl ⟨.next, rfl⟩
  unfold parseLine
  dsimp only
  split
  · exact Or.inl ⟨.next, rfl⟩
  · exact hdata _

/-- A line leaves the local variables alone, or feeds the stop filter and
yields what it lets through. -/
theorem TGIEngineHook.parseLine_cases (compat : Bool) (requestId : String) (s : StreamState)
    (l : Bytes) : (∃ after, parseLine compat requestId s l = (s, [], after)) ∨
      ∃ raw stopFilter tokens after, feed s.stopFilter raw = some (stopFilter, tokens) ∧
        parseLine compat requestId s l = (⟨s.nextSeq + tokens.length, stopFilter⟩,
          numberTokens requestId false l s.nextSeq tokens, after) := by
  have hfields : ∀ parsed, (∃ after, parseFields requestId s l parsed = (s, [], after)) ∨
      ∃ raw stopFilter tokens after, feed s.stopFilter raw = some (stopFilter, tokens) ∧
        parseFields requestId s l parsed = (⟨s.nextSeq + tokens.length, stopFilter⟩,
          numberTokens requestId false l s.nextSeq tokens, after) := by
    intro parsed
    cases parsed with
    | raised => exact Or.inl ⟨.failed, rfl⟩
    | special => exact Or.inl ⟨.next, rfl⟩
    | text raw isFinal =>
      unfold parseFields
      dsimp only
      split
      · exact Or.inl ⟨.failed, rfl⟩
      · rename_i stopFilter tokens hfeed
        exact Or.inr ⟨raw, stopFilter, tokens, _, hfeed, rfl⟩
  unfold parseLine
  dsimp only
  split
  · exact Or.inl ⟨.next, rfl⟩
  · split
    · unfold parseData
      split
      · exact Or.inl ⟨.stop, rfl⟩
      · split
        · exact Or.inl ⟨_, rfl⟩
        · exact hfields _
        · exact Or.inl ⟨.failed, rfl⟩
    · exact Or.inl ⟨.next, rfl⟩

theorem VLLMInferenceEngineHook.parser_counts (requestId : String) :
    (VLLMInferenceEngineHook.parser requestId).Counts id requestId SeqFree := by
  refine ⟨?_, fun _ => .nil⟩
  intro nextSeq l hl
  show Consecutive requestId nextSeq (parseLine requestId nextSeq l).2.1 ∧
    (parseLine requestId nextSeq l).1 = nextSeq + ((parseLine requestId nextSeq l).2.1.length : ℤ)
  rcases parseLine_cases requestId nextSeq hl with ⟨after, h⟩ | ⟨token, h⟩
  · rw [h]
    exact ⟨.nil, (Int.add_zero nextSeq).symm⟩
  · rw [h]
    exact ⟨.singleton rfl rfl, rfl⟩

theorem TensorRTLLMEngineHook.parser_counts (requestId : String) :
    (TensorRTLLMEngineHook.parser requestId).Counts id requestId fun _ => True := by
  refine ⟨?_, fun _ => .nil⟩
  intro nextSeq l _
  show Consecutive requestId nextSeq (parseLine requestId nextSeq l).2.1 ∧
    (parseLine requestId nextSeq l).1 = nextSeq + ((parseLine requestId nextSeq l).2.1.length : ℤ)
  rcases parseLine_cases requestId nextSeq l with ⟨after, h⟩ | ⟨token, isFinal, h⟩
  · rw [h]
    exact ⟨.nil, (Int.add_zero nextSeq).symm⟩
  · rw [h]
    exact ⟨.singleton rfl rfl, rfl⟩

theorem TGIEngineHook.parser_counts (compat : Bool) (requestId : String) :
    (parser compat requestId).Counts StreamState.nextSeq requestId fun _ => True := by
  refine ⟨?_, fun s => consecutive_numberTokens requestId true [] s.nextSeq _⟩
  intro s l _
  show Consecutive requestId s.nextSeq (parseLine compat requestId s l).2.1 ∧
    (parseLine compat requestId s l).1.nextSeq =
      s.nextSeq + ((parseLine compat requestId s l).2.1.length : ℤ)
  rcases parseLine_cases compat requestId s l with ⟨after, h⟩ | ⟨_, stopFilter, tokens, after, -, h⟩
  · rw [h]
    exact ⟨.nil, (Int.add_zero s.nextSeq).symm⟩
  · rw [h]
    refine ⟨consecutive_numberTokens requestId false l s.nextSeq tokens, ?_⟩
    rw [length_numberTokens]

/-! ### Resumed streams are accepted -/

/-- Every chunk passes, one after the other. -/
def TokenDeduplicator.Accepts (requestId : String) : TokenDeduplicator → List TokenChunk → Prop
  | _, [] => True
  | d, chunk :: chunks => ∃ d', d.filterChunk requestId chunk = .ok (some chunk, d') ∧
      Accepts requestId d' chunks

theorem TokenDeduplicator.accepts_numbered {requestId : String} {chunks : List TokenChunk}
    {d : TokenDeduplicator}
    (h : InOrder.Numbered TokenChunk.sequenceId (d.getLastFlushed requestId + 1) chunks) :
    d.Accepts requestId chunks := by
  induction chunks generalizing d with
  | nil => trivial
  | cons chunk chunks ih =>
    obtain ⟨hseq, htail⟩ := h
    refine ⟨_, filterChunk_next hseq, ih ?_⟩
    have hlast : (d.lastFlushed.set requestId chunk.sequenceId).get? requestId = some chunk.sequenceId :=
      Dict.get?_set_self _ _ _
    rw [getLastFlushed, hlast, Option.getD_some, hseq]
    exact htail

/-- No `data:` line of the reply has a `seq` field. -/
def Reply.SeqFree : Reply → Prop
  | .refused => True
  | .response _ lines _ => ∀ l ∈ lines, Sgm.SeqFree l

theorem LineParser.Counts.replyChunks {σ : Type} {p : LineParser σ} {nextSeq : σ → ℤ}
    {requestId : String} {ok : Bytes → Prop} (h : p.Counts nextSeq requestId ok) (s : σ) {reply : Reply}
    (hok : ∀ status lines ending, reply = .response status lines ending → ∀ l ∈ lines, ok l) :
    Consecutive requestId (nextSeq s) (p.replyChunks s reply) := by
  cases reply with
  | refused => exact .nil
  | response status lines ending =>
    show Consecutive requestId (nextSeq s) (if status ≠ 200 then [] else p.chunks s lines ending)
    split
    · exact .nil
    · exact h.chunks s (hok status lines ending rfl) ending

namespace EngineHook

/-- The hooks that take a number from the line where there is one. -/
def ReadsSeq : EngineHook → Prop
  | .vllm _ | .sglang _ | .mock _ => True
  | .tensorrtLlm _ | .tgi _ => False

variable {session : InferenceSession}

theorem consecutive_streamResumed (post : Post) (resumeEndpoint formatType : Option String) (hook : EngineHook)
    (hc : -1 ≤ session.lastFlushedSequenceId)
    (hseq : hook.ReadsSeq → ∀ url payload headers, (post url payload headers).SeqFree) :
    Consecutive session.requestId (session.lastFlushedSequenceId + 1)
      (hook.streamResumed post session resumeEndpoint formatType) := by
  have hresume : session.resumeSeq = session.lastFlushedSequenceId + 1 := if_neg (by omega)
  have hvllm : ∀ reply : Reply, reply.SeqFree →
      Consecutive session.requestId (session.lastFlushedSequenceId + 1)
        ((VLLMInferenceEngineHook.parser session.requestId).replyChunks
          (session.lastFlushedSequenceId + 1) reply) := by
    intro reply hfree
    apply (VLLMInferenceEngineHook.parser_counts session.requestId).replyChunks
    rintro status lines ending rfl
    exact hfree
  cases hook with
  | vllm hook => exact hvllm _ (hseq trivial _ _ _)
  | sglang hook => exact hvllm _ (hseq trivial _ _ _)
  | mock hook => exact hvllm _ (hseq trivial _ _ _)
  | tensorrtLlm hook =>
    rw [← hresume]
    exact (TensorRTLLMEngineHook.parser_counts session.requestId).replyChunks _
      fun _ _ _ _ _ _ => trivial
  | tgi hook =>
    rw [← hresume]
    exact (TGIEngineHook.parser_counts (hook.readsCompat formatType)
      session.requestId).replyChunks (TGIEngineHook.startState session) fun _ _ _ _ _ _ => trivial

/-- **A resumed stream goes on where the cutoff was.** Whatever the standby's
engine answers, the chunks that `stream_resumed` yields are numbered from the
cutoff on without gap or repetition and belong to the session's request, so a
deduplicator that has flushed up to the cutoff lets every one of them pass. -/
theorem streamResumed_accepted (post : Post) (resumeEndpoint formatType : Option String) (hook : EngineHook)
    (hc : -1 ≤ session.lastFlushedSequenceId)
    (hseq : hook.ReadsSeq → ∀ url payload headers, (post url payload headers).SeqFree) :
    Consecutive session.requestId (session.lastFlushedSequenceId + 1)
        (hook.streamResumed post session resumeEndpoint formatType) ∧
      ∀ d : TokenDeduplicator, d.getLastFlushed session.requestId = session.lastFlushedSequenceId →
        d.Accepts session.requestId
          (hook.streamResumed post session resumeEndpoint formatType) := by
  have h := consecutive_streamResumed post resumeEndpoint formatType hook hc hseq
  refine ⟨h, ?_⟩
  intro d hd
  apply TokenDeduplicator.accepts_numbered
  rw [hd]
  exact h.numbered

/-- A plain event has no `seq` field. -/
theorem seqFree_plain {payload : List Char} {token : PyStr} (h : PlainEvent payload token) :
    SeqFree (textLine (dataLine payload)) := by
  intro text data htext _ hloads
  rw [decode_textLine] at htext
  obtain rfl := Option.some.inj htext
  have hstrip : strip ((strip (dataLine payload ++ ['\n'])).drop 5) = payload := by
    have htrim : Trimmed (dataLine payload) :=
      @trimmed_append 'd' "ata: ".toList _ (by decide) h.trimmed h.ne_done.1
    have hpad := @strip_pad [' '] payload [] h.trimmed h.ne_done.1 (by simp; decide) (by simp)
    rw [List.append_nil] at hpad
    rw [strip_line htrim]
    exact hpad
  rw [hstrip] at hloads
  obtain ⟨fields, _, _, _, hl, hseq, -⟩ := h.content
  rw [hl] at hloads
  obtain rfl := Json.obj.inj (Option.some.inj hloads)
  exact hseq

theorem seqFree_reply_plain {payload : List Char} {token : PyStr} (h : PlainEvent payload token)
    (status : ℕ) : (Reply.response status [textLine (dataLine payload)] .eof).SeqFree := by
  intro l hl
  obtain rfl := List.mem_singleton.mp hl
  exact seqFree_plain h

/-- A token with a lone surrogate. -/
def surrogateToken : PyStr := [.char 'h', .surrogate 0]

theorem streamResumed_accepted_surrogate :
    Consecutive "r" 5 (EngineHook.streamResumed
      (fun _ _ _ => .response 200 [textLine (dataLine (plainPayload surrogateToken))] .eof)
      { requestId := "r", lastFlushedSequenceId := 4 } none none (.vllm ⟨"http://b"⟩)) :=
  (@streamResumed_accepted { requestId := "r", lastFlushedSequenceId := 4 }
    (fun _ _ _ => .response 200 [textLine (dataLine (plainPayload surrogateToken))] .eof) none none
    (.vllm ⟨"http://b"⟩) (by decide)
    fun _ _ _ _ => seqFree_reply_plain (plainEvent_plainPayload (by decide)) 200).1

/-- A comment, a line that is no JSON, a special token and two others. -/
example : ((EngineHook.streamResumed
    (fun _ _ _ => .response 200
      [textLine ": hi".toList, textLine (dataLine "x".toList),
        textLine (dataLine (Json.dumps (.obj [("token".toList, .obj [("special".toList, .bool true)])]))),
        textLine (dataLine "\x7b\"token\": \x7b\"text\": \"\\ud800\"\x7d\x7d".toList),
        textLine (dataLine (Json.dumps (.obj [("token".toList, .obj [("text".toList, .text ['a'])])])))] .eof)
    { requestId := "r", lastFlushedSequenceId := 4 } none none (.tgi ⟨"http://b", false⟩)).map
      fun chunk => (chunk.sequenceId, chunk.token)) = [(5, [.surrogate 0]), (6, "a")] := by
  decide +kernel

end EngineHook

end Sgm
