/-
# Resumption payloads

What the engine hooks of `daemon/integrations` send to the standby's engine to
go on with a request: `vllm.py` (which `sglang.py` and `mock.py` extend),
`tensorrt_llm.py` and `tgi.py`. Each builder cuts the generated text at the
cutoff (`prefixTokens`), puts it behind the prompt, and asks for what is left
of the token budget; `resume_request` announces the number of the first token
to come. Keyword arguments that overwrite entries of a payload are left out:
nothing passes any.

At a cutoff inside the generated text the builders agree with each other and
with the numbering. At a cutoff of `-1` they send the whole generated text,
and the numbering starts at zero (`resumption_agrees_iff`). The budget is
clamped at one token, so a request whose history has reached it is given one
more with each migration (`budget_conserved`).

Key definitions: `prefixTokens`, `VLLMInferenceEngineHook`, `SGLangInferenceEngineHook`,
`TensorRTLLMEngineHook`, `TGIEngineHook`, `EngineHook`, `Agrees`, `Migrations`.
Key theorems: `prefixTokens_inside`, `requestedTokens_inside`, `resumption_agrees_iff`,
`budget_conserved`.
-/
import Sgm.Models

namespace Sgm

/-! ### What the builders share -/

inductive BackendType
  | vllm | sglang | tensorrtLlm | tgi | mock
  deriving DecidableEq, Repr

/-- A message of a chat. -/
structure ChatMessage where
  role : String
  content : PyStr
  deriving DecidableEq, Repr

/-- What `resume_request` returns. -/
structure ResumptionDescriptor (π : Type) where
  endpoint : String
  url : PyStr
  backend : Option BackendType := none
  payload : π
  headers : List (String × String)
  startingSequenceId : ℤ
  requestId : String
  remainingTokens : Option ℤ := none

namespace InferenceSession

/-- The prefix tokens at a cutoff, and `num_tokens`. -/
def prefixTokens (session : InferenceSession) (cutoff : ℤ) : List PyStr × ℤ :=
  if 0 ≤ cutoff ∧ session.generatedText ≠ [] then
    let numTokens := min (session.generatedText.length : ℤ) (cutoff + 1)
    (session.generatedText.take numTokens.toNat, numTokens)
  else if session.generatedText ≠ [] then (session.generatedText, session.generatedText.length)
  else ([], 0)

def chatMessages (session : InferenceSession) (prefixStr : PyStr) : List ChatMessage :=
  if session.prompt ≠ [] ∧ prefixStr ≠ [] then [⟨"user", session.prompt⟩, ⟨"assistant", prefixStr⟩]
  else if session.prompt ≠ [] then [⟨"user", session.prompt⟩]
  else [⟨"user", session.prompt ++ prefixStr⟩]

/-- The stop words, or the default ones if there are none. -/
def stopWords (session : InferenceSession) : List PyStr :=
  if session.samplingParams.stop ≠ [] then session.samplingParams.stop else ["<|eot_id|>", "</s>"]

def resumeHeaders (session : InferenceSession) : List (String × String) :=
  [("Content-Type", "application/json"), ("X-SGM-Request-ID", session.requestId),
    ("X-SGM-Client-Conn-ID", session.clientConnectionId), ("X-SGM-Resumed", "true"),
    ("X-SGM-Cutoff-Sequence-ID", toString session.lastFlushedSequenceId)]

end InferenceSession

/-- `(resume_endpoint or self.base_url).rstrip("/")` -/
def targetEndpoint (resumeEndpoint : Option String) (baseUrl : String) : String :=
  let endpoint := match resumeEndpoint with
    | some e => if e ≠ "" then e else baseUrl
    | none => baseUrl
  String.ofList (endpoint.toList.rdropWhile (· = '/'))

/-! ### vLLM -/

structure VLLMPayload where
  model : PyStr
  prompt : PyStr
  stream : Bool
  maxTokens : ℤ
  temperature : ℚ
  topP : ℚ
  stop : List PyStr
  includeUsage : Bool := true
  presencePenalty : ℚ
  frequencyPenalty : ℚ
  requestId : String
  startSeqId : ℤ
  isResume : Bool := true
  messages : Option (List ChatMessage)
  continueFinalMessage : Option Bool
  addGenerationPrompt : Option Bool
  promptTokenIds : Option (List ℤ)
  cutoffSequenceId : ℤ
  prefixCaching : Bool := true
  radixAttentionEnabled : Bool := true
  cachedPrefixTokens : ℤ
  skipSpecialTokens : Option Bool := none
  spacesBetweenSpecialTokens : Option Bool := none

structure VLLMInferenceEngineHook where
  baseUrl : String

namespace VLLMInferenceEngineHook

def formatResumptionPayload (_ : VLLMInferenceEngineHook) (session : InferenceSession)
    (cutoffSequenceId : Option ℤ) (includeMessages : Bool) : VLLMPayload :=
  let cutoff := cutoffSequenceId.getD session.lastFlushedSequenceId
  let (tokens, numTokens) := session.prefixTokens cutoff
  let generatedPrefixStr := tokens.flatten
  let totalGen := if 0 < numTokens then numTokens else session.totalTokensGenerated
  { model := session.model
    prompt := session.prompt ++ generatedPrefixStr
    stream := session.isStreaming
    maxTokens := max 1 (session.samplingParams.maxTokens - totalGen)
    temperature := session.samplingParams.temperature
    topP := session.samplingParams.topP
    stop := session.samplingParams.stop
    presencePenalty := session.samplingParams.presencePenalty
    frequencyPenalty := session.samplingParams.frequencyPenalty
    requestId := session.requestId
    startSeqId := cutoff + 1
    messages := if includeMessages then some (session.chatMessages generatedPrefixStr) else none
    continueFinalMessage := if includeMessages then some true else none
    addGenerationPrompt := if includeMessages then some (decide (generatedPrefixStr = [])) else none
    promptTokenIds :=
      if session.promptTokens ≠ [] ∨ session.generatedTokens ≠ [] then
        some (session.promptTokens ++ session.generatedTokens.take numTokens.toNat)
      else none
    cutoffSequenceId := cutoff
    cachedPrefixTokens := numTokens }

def buildPrefixCachingPayload (hook : VLLMInferenceEngineHook) (session : InferenceSession)
    (formatType : String) (cutoffSequenceId : Option ℤ) : VLLMPayload :=
  hook.formatResumptionPayload session cutoffSequenceId (formatType == "chat")

def resumeRequest (hook : VLLMInferenceEngineHook) (session : InferenceSession)
    (resumeEndpoint : Option String) : ResumptionDescriptor VLLMPayload :=
  let endpoint := targetEndpoint resumeEndpoint hook.baseUrl
  { endpoint := endpoint
    url := endpoint ++ "/v1/chat/completions"
    payload := hook.buildPrefixCachingPayload session "chat" none
    headers := session.resumeHeaders
    startingSequenceId := session.lastFlushedSequenceId + 1
    requestId := session.requestId }

end VLLMInferenceEngineHook

/-- The hook of the mock engine overrides none of these. -/
abbrev MockInferenceEngineHook := VLLMInferenceEngineHook

/-! ### SGLang -/

structure SGLangInferenceEngineHook extends VLLMInferenceEngineHook

namespace SGLangInferenceEngineHook

def buildPrefixCachingPayload (hook : SGLangInferenceEngineHook) (session : InferenceSession)
    (formatType : String) (cutoffSequenceId : Option ℤ) : VLLMPayload :=
  { hook.toVLLMInferenceEngineHook.buildPrefixCachingPayload session formatType cutoffSequenceId with
    skipSpecialTokens := some false, spacesBetweenSpecialTokens := some true }

/-- The inherited method, with the builder above. -/
def resumeRequest (hook : SGLangInferenceEngineHook) (session : InferenceSession)
    (resumeEndpoint : Option String) : ResumptionDescriptor VLLMPayload :=
  { hook.toVLLMInferenceEngineHook.resumeRequest session resumeEndpoint with
    payload := hook.buildPrefixCachingPayload session "chat" none }

end SGLangInferenceEngineHook

/-! ### TensorRT-LLM -/

structure TensorRTPayload where
  textInput : PyStr
  maxTokens : ℤ
  stream : Bool := true
  temperature : ℚ
  topP : ℚ
  stopWords : List PyStr
  badWords : List String := []
  excludeInputFromOutput : Bool := true
  returnContextLogits : Bool := false
  returnGenerationLogits : Bool := false
  endId : ℤ := 128001
  padId : ℤ := 128004
  cutoffSequenceId : ℤ
  cachedPrefixTokens : ℤ

structure TensorRTLLMEngineHook where
  baseUrl : String
  modelName : String

namespace TensorRTLLMEngineHook

/-- Sampling parameters have no `metadata`, so the end and pad tokens are the
default ones. -/
def buildPrefixCachingPayload (_ : TensorRTLLMEngineHook) (session : InferenceSession)
    (cutoffSequenceId : Option ℤ) : TensorRTPayload :=
  let cutoff := cutoffSequenceId.getD session.lastFlushedSequenceId
  let (tokens, numTokens) := session.prefixTokens cutoff
  { textInput := session.prompt ++ tokens.flatten
    maxTokens := max 1 (session.samplingParams.maxTokens - numTokens)
    temperature := session.samplingParams.temperature
    topP := session.samplingParams.topP
    stopWords := session.stopWords
    cutoffSequenceId := cutoff
    cachedPrefixTokens := numTokens }

def resumeRequest (hook : TensorRTLLMEngineHook) (session : InferenceSession)
    (resumeEndpoint : Option String) : ResumptionDescriptor TensorRTPayload :=
  let endpoint := targetEndpoint resumeEndpoint hook.baseUrl
  let modelName : PyStr := if session.model ≠ [] then session.model else hook.modelName
  let payload := hook.buildPrefixCachingPayload session none
  { endpoint := endpoint
    url := .ofString (endpoint ++ "/v2/models/") ++ modelName ++ .ofString "/generate_stream"
    backend := some .tensorrtLlm
    payload := payload
    headers := session.resumeHeaders
    startingSequenceId := session.lastFlushedSequenceId + 1
    requestId := session.requestId
    remainingTokens := some payload.maxTokens }

end TensorRTLLMEngineHook

/-! ### TGI -/

/-- The two formats of a TGI payload. -/
inductive TGIBody
  | compat (model : PyStr) (messages : List ChatMessage) (maxTokens : ℤ) (temperature topP : ℚ)
      (stop : List PyStr) (stream returnFullText : Bool)
  | native (inputs : PyStr) (maxNewTokens : ℤ) (temperature topP : ℚ) (stop : List PyStr)
      (returnFullText details decoderInputDetails : Bool)

/-- `payload.get("parameters", {}).get("max_new_tokens", payload.get("max_tokens", 1))` -/
def TGIBody.remainingTokens : TGIBody → ℤ
  | .compat _ _ maxTokens _ _ _ _ _ => maxTokens
  | .native _ maxNewTokens _ _ _ _ _ _ => maxNewTokens

def TGIBody.inputs? : TGIBody → Option PyStr
  | .compat .. => none
  | .native inputs _ _ _ _ _ _ _ => some inputs

structure TGIPayload where
  body : TGIBody
  cutoffSequenceId : ℤ
  cachedPrefixTokens : ℤ

structure TGIEngineHook where
  baseUrl : String
  useOpenaiCompat : Bool := false

namespace TGIEngineHook

def effectiveFormat (hook : TGIEngineHook) (formatType : Option String) : String :=
  let default := if hook.useOpenaiCompat then "compat" else "native"
  match formatType with
  | some f => if f ≠ "" then f else default
  | none => default

def buildPrefixCachingPayload (hook : TGIEngineHook) (session : InferenceSession)
    (formatType : Option String) (cutoffSequenceId : Option ℤ) : TGIPayload :=
  let cutoff := cutoffSequenceId.getD session.lastFlushedSequenceId
  let (tokens, numTokens) := session.prefixTokens cutoff
  let prefixStr := tokens.flatten
  let remainingTokens := max 1 (session.samplingParams.maxTokens - numTokens)
  let sampling := session.samplingParams
  let body :=
    if hook.effectiveFormat formatType ∈ ["compat", "chat", "openai"] then
      TGIBody.compat (if session.model ≠ [] then session.model else "tgi")
        (session.chatMessages prefixStr) remainingTokens sampling.temperature sampling.topP
        session.stopWords true false
    else
      TGIBody.native (session.prompt ++ prefixStr) remainingTokens sampling.temperature sampling.topP
        session.stopWords false true false
  ⟨body, cutoff, numTokens⟩

def resumeRequest (hook : TGIEngineHook) (session : InferenceSession) (resumeEndpoint : Option String)
    (formatType : Option String) : ResumptionDescriptor TGIPayload :=
  let endpoint := targetEndpoint resumeEndpoint hook.baseUrl
  let format := hook.effectiveFormat formatType
  let payload := hook.buildPrefixCachingPayload session (some format) none
  { endpoint := endpoint
    url :=
      if format ∈ ["compat", "chat", "openai"] then endpoint ++ "/compat/v1/chat/completions"
      else endpoint ++ "/generate_stream"
    backend := some .tgi
    payload := payload
    headers := session.resumeHeaders
    startingSequenceId := session.lastFlushedSequenceId + 1
    requestId := session.requestId
    remainingTokens := some payload.body.remainingTokens }

end TGIEngineHook

/-! ### The hooks side by side -/

inductive EngineHook
  | vllm (hook : VLLMInferenceEngineHook)
  | sglang (hook : SGLangInferenceEngineHook)
  | mock (hook : MockInferenceEngineHook)
  | tensorrtLlm (hook : TensorRTLLMEngineHook)
  | tgi (hook : TGIEngineHook)

namespace EngineHook

/-- Not the OpenAI-compatible interface of TGI. -/
def Native : EngineHook → Prop
  | .tgi hook => hook.useOpenaiCompat = false
  | _ => True

/-- The continuation prompt of the payload that `resume_request` announces:
`prompt`, `text_input` or `inputs`. -/
def continuationPrompt (session : InferenceSession) : EngineHook → Option PyStr
  | .vllm hook => some (hook.resumeRequest session none).payload.prompt
  | .sglang hook => some (hook.resumeRequest session none).payload.prompt
  | .mock hook => some (hook.resumeRequest session none).payload.prompt
  | .tensorrtLlm hook => some (hook.resumeRequest session none).payload.textInput
  | .tgi hook => (hook.resumeRequest session none none).payload.body.inputs?

def cachedPrefixTokens (session : InferenceSession) : EngineHook → ℤ
  | .vllm hook => (hook.resumeRequest session none).payload.cachedPrefixTokens
  | .sglang hook => (hook.resumeRequest session none).payload.cachedPrefixTokens
  | .mock hook => (hook.resumeRequest session none).payload.cachedPrefixTokens
  | .tensorrtLlm hook => (hook.resumeRequest session none).payload.cachedPrefixTokens
  | .tgi hook => (hook.resumeRequest session none none).payload.cachedPrefixTokens

def startingSequenceId (session : InferenceSession) : EngineHook → ℤ
  | .vllm hook => (hook.resumeRequest session none).startingSequenceId
  | .sglang hook => (hook.resumeRequest session none).startingSequenceId
  | .mock hook => (hook.resumeRequest session none).startingSequenceId
  | .tensorrtLlm hook => (hook.resumeRequest session none).startingSequenceId
  | .tgi hook => (hook.resumeRequest session none none).startingSequenceId

/-- The number of tokens that the payload for a cutoff asks the standby for. -/
def requestedTokens (session : InferenceSession) (cutoff : ℤ) : EngineHook → ℤ
  | .vllm hook => (hook.formatResumptionPayload session (some cutoff) true).maxTokens
  | .sglang hook => (hook.buildPrefixCachingPayload session "chat" (some cutoff)).maxTokens
  | .mock hook => (hook.formatResumptionPayload session (some cutoff) true).maxTokens
  | .tensorrtLlm hook => (hook.buildPrefixCachingPayload session (some cutoff)).maxTokens
  | .tgi hook => (hook.buildPrefixCachingPayload session none (some cutoff)).body.remainingTokens

end EngineHook

/-! ### The prefix -/

section Prefix

variable {session : InferenceSession} {c : ℤ}

theorem prefixTokens_inside (h0 : 0 ≤ c) (h1 : c < session.generatedText.length) :
    session.prefixTokens c = (session.generatedText.take (c + 1).toNat, c + 1) := by
  have hne : session.generatedText ≠ [] := by
    intro hnil
    rw [hnil, List.length_nil] at h1
    omega
  have hmin : min (session.generatedText.length : ℤ) (c + 1) = c + 1 := by omega
  unfold InferenceSession.prefixTokens
  rw [if_pos ⟨h0, hne⟩, hmin]

/-- A negative cutoff takes the whole text. -/
theorem prefixTokens_negative (h : c < 0) :
    session.prefixTokens c = (session.generatedText, (session.generatedText.length : ℤ)) := by
  unfold InferenceSession.prefixTokens
  rw [if_neg (by omega)]
  by_cases hne : session.generatedText ≠ []
  · rw [if_pos hne]
  · rw [if_neg hne]
    rw [not_not] at hne
    rw [hne]
    rfl

namespace EngineHook

theorem continuationPrompt_eq {hook : EngineHook} (hn : hook.Native) :
    hook.continuationPrompt session =
      some (session.prompt ++ (session.prefixTokens session.lastFlushedSequenceId).1.flatten) := by
  cases hook with
  | vllm hook => rfl
  | sglang hook => rfl
  | mock hook => rfl
  | tensorrtLlm hook => rfl
  | tgi hook =>
    have hformat : hook.effectiveFormat (some (hook.effectiveFormat none)) = "native" := by
      have : hook.useOpenaiCompat = false := hn
      simp [TGIEngineHook.effectiveFormat, this]
    simp [continuationPrompt, TGIEngineHook.resumeRequest, TGIEngineHook.buildPrefixCachingPayload,
      hformat, TGIBody.inputs?]

theorem cachedPrefixTokens_eq (hook : EngineHook) :
    hook.cachedPrefixTokens session = (session.prefixTokens session.lastFlushedSequenceId).2 := by
  cases hook <;> rfl

theorem startingSequenceId_eq (hook : EngineHook) :
    hook.startingSequenceId session = session.lastFlushedSequenceId + 1 := by
  cases hook <;> rfl

end EngineHook

end Prefix

/-! ### Prefix and numbering -/

/-- The continuation prompt is the prompt with the tokens up to the cutoff,
and their number is announced as the number of the next token. -/
structure Agrees (hook : EngineHook) (session : InferenceSession) : Prop where
  prompt_eq : hook.continuationPrompt session =
    some (session.prompt ++ (session.generatedText.take (session.lastFlushedSequenceId + 1).toNat).flatten)
  cached_eq : hook.cachedPrefixTokens session = session.lastFlushedSequenceId + 1
  starting_eq : hook.cachedPrefixTokens session = hook.startingSequenceId session

/-- **Prefix and numbering agree** exactly when something was flushed or
nothing generated. -/
theorem resumption_agrees_iff {hook : EngineHook} (hn : hook.Native) {session : InferenceSession}
    (hlow : -1 ≤ session.lastFlushedSequenceId)
    (hhigh : session.lastFlushedSequenceId < session.generatedText.length) :
    Agrees hook session ↔ 0 ≤ session.lastFlushedSequenceId ∨ session.generatedText = [] := by
  constructor
  · intro h
    by_contra hneg
    push Not at hneg
    have hcached := h.cached_eq
    rw [hook.cachedPrefixTokens_eq, prefixTokens_negative hneg.1] at hcached
    have hpos := List.length_pos_of_ne_nil hneg.2
    have : session.lastFlushedSequenceId = -1 := by omega
    simp only [this] at hcached
    omega
  · intro h
    have hcutoff : session.prefixTokens session.lastFlushedSequenceId =
        (session.generatedText.take (session.lastFlushedSequenceId + 1).toNat,
          session.lastFlushedSequenceId + 1) := by
      by_cases h0 : 0 ≤ session.lastFlushedSequenceId
      · exact prefixTokens_inside h0 hhigh
      · have hnil : session.generatedText = [] := h.resolve_left h0
        have hlast : session.lastFlushedSequenceId = -1 := by omega
        rw [prefixTokens_negative (by omega), hnil, hlast]
        rfl
    have hcached : hook.cachedPrefixTokens session = _ := hook.cachedPrefixTokens_eq
    rw [hcutoff] at hcached
    refine ⟨?_, hcached, ?_⟩
    · rw [EngineHook.continuationPrompt_eq hn, hcutoff]
    · rw [hcached, hook.startingSequenceId_eq]

theorem resumption_agrees_flushedOne :
    Agrees (.tgi ⟨"http://standby:8001", false⟩)
      { requestId := "r", prompt := "Say: ", generatedText := ["a", "b"], lastFlushedSequenceId := 0 } := by
  have hn : EngineHook.Native (.tgi ⟨"http://standby:8001", false⟩) := rfl
  exact (resumption_agrees_iff hn (by decide) (by decide)).mpr (Or.inl (by decide))

/-- Nothing flushed yet: the prompt has the whole history, the numbering
starts before it. -/
theorem not_agrees_unflushed :
    ¬ Agrees (.vllm ⟨"http://standby:8001"⟩)
        { requestId := "r", prompt := "Say: ", generatedText := ["a", "b"] } ∧
      ¬ Agrees (.tensorrtLlm ⟨"http://standby:8001", "ensemble"⟩)
        { requestId := "r", prompt := "Say: ", generatedText := ["a", "b"] } ∧
      ¬ Agrees (.tgi ⟨"http://standby:8001", false⟩)
        { requestId := "r", prompt := "Say: ", generatedText := ["a", "b"] } := by
  refine ⟨fun h => ?_, fun h => ?_, fun h => ?_⟩
  · exact absurd h.starting_eq (by decide)
  · exact absurd h.starting_eq (by decide)
  · exact absurd h.starting_eq (by decide)

/-! ### The token budget -/

/-- Every builder asks for the same number of tokens. -/
theorem requestedTokens_inside {session : InferenceSession} {c : ℤ} (h0 : 0 ≤ c)
    (h1 : c < session.generatedText.length) (hook : EngineHook) :
    hook.requestedTokens session c = max 1 (session.samplingParams.maxTokens - (c + 1)) := by
  have hcutoff := prefixTokens_inside h0 h1
  have hvllm : ∀ (h : VLLMInferenceEngineHook) (b : Bool),
      (h.formatResumptionPayload session (some c) b).maxTokens =
        max 1 (session.samplingParams.maxTokens - (c + 1)) := by
    intro h b
    have hpos : 0 < c + 1 := by omega
    simp [VLLMInferenceEngineHook.formatResumptionPayload, hcutoff, hpos]
  cases hook with
  | vllm hook => exact hvllm hook true
  | sglang hook => exact hvllm hook.toVLLMInferenceEngineHook true
  | mock hook => exact hvllm hook true
  | tensorrtLlm hook =>
    simp [EngineHook.requestedTokens, TensorRTLLMEngineHook.buildPrefixCachingPayload, hcutoff]
  | tgi hook =>
    simp only [EngineHook.requestedTokens, TGIEngineHook.buildPrefixCachingPayload, Option.getD_some,
      hcutoff]
    by_cases hf : hook.effectiveFormat none ∈ ["compat", "chat", "openai"]
    · rw [if_pos hf]
      rfl
    · rw [if_neg hf]
      rfl

/-- `Migrations params n k`: the client can have `n` tokens of a request with
these parameters after migrations of which `k` were made with the budget used
up. Each is made by some hook at the cutoff that the client has reached, and
the standby generates at most what is asked for. -/
inductive Migrations (params : SamplingParams) : ℕ → ℕ → Prop
  | served {n : ℕ} (h : (n : ℤ) ≤ params.maxTokens) : Migrations params n 0
  | migrate {n k m : ℕ} {session : InferenceSession} {c : ℤ} {hook : EngineHook}
      (before : Migrations params n k) (hparams : session.samplingParams = params)
      (hc : (n : ℤ) = c + 1) (h0 : 0 ≤ c) (h1 : c < session.generatedText.length)
      (hm : (m : ℤ) ≤ hook.requestedTokens session c) :
      Migrations params (n + m) (if (n : ℤ) < params.maxTokens then k else k + 1)

theorem Migrations.le {params : SamplingParams} {n k : ℕ} (h : Migrations params n k) :
    (n : ℤ) ≤ params.maxTokens + k := by
  induction h with
  | served h => simpa using h
  | @migrate n k m session c hook before hparams hc h0 h1 hm ih =>
    rw [requestedTokens_inside h0 h1, hparams, ← hc] at hm
    by_cases hlt : (n : ℤ) < params.maxTokens
    · rw [if_pos hlt]
      push_cast
      omega
    · rw [if_neg hlt]
      push_cast
      omega

/-- **The token budget.** The builders ask for the same number of tokens,
which fills up the budget, and is one when nothing is left of it. So over any
number of migrations the client gets at most its budget, and one token more
for each migration made when the budget was used up. -/
theorem budget_conserved :
    (∀ (session : InferenceSession) (c : ℤ), 0 ≤ c → c < session.generatedText.length →
      ∀ hook : EngineHook,
        (∀ hook' : EngineHook, hook'.requestedTokens session c = hook.requestedTokens session c) ∧
        (c + 1 < session.samplingParams.maxTokens →
          c + 1 + hook.requestedTokens session c = session.samplingParams.maxTokens) ∧
        (session.samplingParams.maxTokens ≤ c + 1 → hook.requestedTokens session c = 1)) ∧
    ∀ (params : SamplingParams) (n k : ℕ), Migrations params n k → (n : ℤ) ≤ params.maxTokens + k := by
  refine ⟨?_, fun params n k h => h.le⟩
  intro session c h0 h1 hook
  refine ⟨fun hook' => ?_, fun hlt => ?_, fun hle => ?_⟩
  · rw [requestedTokens_inside h0 h1, requestedTokens_inside h0 h1]
  · rw [requestedTokens_inside h0 h1]
    omega
  · rw [requestedTokens_inside h0 h1]
    omega

/-- A request that has all its tokens is given one more. -/
theorem not_within_budget :
    ¬ ∀ (session : InferenceSession) (c : ℤ), 0 ≤ c → c < session.generatedText.length →
      ∀ hook : EngineHook, c + 1 + hook.requestedTokens session c ≤ session.samplingParams.maxTokens := by
  intro h
  have h1 := h { requestId := "r", generatedText := ["a"], samplingParams := { maxTokens := 1 } } 0
    (by decide) (by decide) (.vllm ⟨"http://standby:8001"⟩)
  exact absurd h1 (by decide)

end Sgm
