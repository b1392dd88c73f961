/-
# The factory of the hooks

`EngineHookFactory`: the kind of an engine is given, or found by probes; each
GET of a probe fails or brings what the server has at that time, so a probe is
asked of its attempt and path. The engine of the simulator has `/health` alone
of the paths that are probed, and is taken for itself or, where that probe is
lost, for vLLM: both hooks drive it.

Key definitions: `EngineHookFactory.autoDetect`, `EngineHookFactory.create`,
`MockLLMEngine.get`, `NodeDaemon.startHook`.
Key theorems: `EngineHookFactory.create_strict`, `NodeDaemon.readsSeq_startHook_iff`,
`started_relay_seamless_iff`.
-/
import Sgm.Integrations.Continuation

namespace Sgm

/-! ### The kinds of engines -/

inductive FactoryError
  | engineDetectionError (msg : String)
  | valueError (msg : String)
  /-- a keyword argument that the constructor does not take -/
  | typeError
  deriving DecidableEq

def BackendType.value : BackendType → String
  | .vllm => "vllm"
  | .sglang => "sglang"
  | .tensorrtLlm => "tensorrt_llm"
  | .tgi => "tgi"
  | .mock => "mock"

/-- The names, with the backend of the hook that each stands for. -/
def engineHookRegistry : List (String × BackendType) :=
  [(BackendType.vllm.value, .vllm), (BackendType.sglang.value, .sglang),
    (BackendType.tensorrtLlm.value, .tensorrtLlm), (BackendType.tgi.value, .tgi),
    (BackendType.mock.value, .mock), ("trtllm", .tensorrtLlm), ("trt", .tensorrtLlm),
    ("tensorrt", .tensorrtLlm), ("text_generation_inference", .tgi), ("srt", .sglang),
    ("sim", .mock), ("simulator", .mock)]

def engineHookOf (targetType : String) : Option BackendType :=
  (engineHookRegistry.find? (·.1 = targetType)).map Prod.snd

/-- `str.lower`, of the letters with a small letter in ASCII: these, and the
sign of the kelvin. The others are in no name. -/
def lower (s : String) : String :=
  String.ofList (s.toList.map fun c => if c = Char.ofNat 0x212A then 'k' else c.toLower)

/-- The keyword arguments that are given beside those that every hook takes. -/
structure HookKwargs where
  fallback : Option (Option BackendType) := none
  strictDetection : Option Bool := none
  modelName : Option String := none
  useOpenaiCompat : Option Bool := none

/-- The constructor of the hook. -/
def BackendType.construct (cls : BackendType) (baseUrl : String) (kwargs : HookKwargs) :
    Except FactoryError EngineHook :=
  let url := targetEndpoint (some baseUrl) "http://127.0.0.1:8001"
  if kwargs.fallback.isSome ∨ kwargs.strictDetection.isSome ∨
      (kwargs.modelName.isSome ∧ cls ≠ .tensorrtLlm) ∨ (kwargs.useOpenaiCompat.isSome ∧ cls ≠ .tgi) then
    .error .typeError
  else
    match cls with
    | .vllm => .ok (.vllm { baseUrl := url })
    | .sglang => .ok (.sglang { baseUrl := url })
    | .mock => .ok (.mock { baseUrl := url })
    | .tensorrtLlm => .ok (.tensorrtLlm {
        baseUrl := url, modelName := kwargs.modelName.getD "tensorrt_llm" })
    | .tgi => .ok (.tgi { baseUrl := url, useOpenaiCompat := kwargs.useOpenaiCompat.getD false })

/-! ### The probes -/

/-- What the GET of a probe brings: an exception, or a status, with the body where
it is JSON. -/
inductive ProbeReply
  | raised
  | status (code : ℕ) (body : Option Json)

namespace ProbeReply

def isOk : ProbeReply → Bool
  | .status code _ => decide (code = 200)
  | .raised => false

/-- The probe of `/health`. -/
def health : ProbeReply → Option BackendType
  | .status 200 (some (.obj data)) =>
    if (Json.field? data "role".toList).isSome ∨ (Json.field? data "paused".toList).isSome ∨
        (Json.field? data "port".toList).isSome then some .mock
    else some .vllm
  | .status 200 _ => some .vllm
  | _ => none

end ProbeReply

namespace EngineHookFactory

/-- The probes of which the status alone counts, in their order. -/
def probes : List (String × BackendType) :=
  [("/v2/health/ready", .tensorrtLlm), ("/info", .tgi), ("/get_model_info", .sglang),
    ("/version", .vllm)]

def attempt (probe : String → ProbeReply) : Option BackendType :=
  match probes.find? fun p => (probe p.1).isOk with
  | some (_, backend) => some backend
  | none => (probe "/health").health

def autoDetect (engineUrl : String) (probe : ℕ → String → ProbeReply) (retries : ℤ)
    (fallback : Option BackendType) : Except FactoryError BackendType :=
  match (List.range (max 1 retries).toNat).findSome? fun i => attempt (probe i) with
  | some backend => .ok backend
  | none =>
    match fallback with
    | some backend => .ok backend
    | none => .error (.engineDetectionError ("Failed to auto-detect inference engine at " ++ engineUrl ++
        " after " ++ toString retries ++ " attempt(s)"))

def isUrl (s : String) : Bool :=
  "http://".toList.isPrefixOf s.toList || "https://".toList.isPrefixOf s.toList

def unknownText (targetType : String) : String :=
  "Unknown or unsupported engine type: '" ++ targetType ++ "'. Supported: ['" ++
    "', '".intercalate (engineHookRegistry.map Prod.fst) ++ "']"

/-- `s or default` -/
def orElse (s : Option String) (default : String) : String :=
  match s with
  | some s => if s ≠ "" then s else default
  | none => default

/-- `engine_type` and `engine_url`, which may be given in either order. -/
def ordered (engineType engineUrl : Option String) : Option String × Option String :=
  match engineType with
  | some t =>
    if isUrl t then
      let actualType := orElse engineUrl "auto"
      (some (if isUrl actualType then "auto" else actualType), some t)
    else (engineType, engineUrl)
  | none => (engineType, engineUrl)

/-- The kind that is asked for; `override` is the variable `SGM_ENGINE_TYPE`. -/
def targetOf (override engineType : Option String) : String :=
  let targetType := lower (orElse engineType "auto")
  match override with
  | some v => if lower v ∉ ["", "auto", "none"] then lower v else targetType
  | none => targetType

def create (override engineType engineUrl : Option String) (kwargs : HookKwargs)
    (probe : ℕ → String → ProbeReply) : Except FactoryError EngineHook :=
  let (engineType, engineUrl) := ordered engineType engineUrl
  let effectiveUrl := orElse engineUrl "http://127.0.0.1:8001"
  let targetType := targetOf override engineType
  if targetType = "auto" then
    let fallbackArg := kwargs.fallback.getD none
    let kwargs := { kwargs with fallback := none }
    match autoDetect effectiveUrl probe 1 fallbackArg with
    | .ok backend => backend.construct effectiveUrl kwargs
    | .error e =>
      if kwargs.strictDetection.getD false then .error e
      else BackendType.vllm.construct effectiveUrl kwargs
  else
    match engineHookOf targetType with
    | some cls => cls.construct effectiveUrl kwargs
    | none => .error (.valueError (unknownText targetType))

/-- The kind that `create_sync` takes. -/
def syncTargetOf (engineType : String) : String :=
  if engineType ≠ "" then lower engineType else "vllm"

def createSync (engineType engineUrl : String) (kwargs : HookKwargs) : Except FactoryError EngineHook :=
  match engineHookOf (syncTargetOf engineType) with
  | some cls => cls.construct engineUrl kwargs
  | none => .error (.valueError (unknownText (syncTargetOf engineType)))

/-- With `strict_detection` there is never a hook: the argument is passed on to the
constructor, and none takes it. -/
theorem create_strict (override engineType engineUrl : Option String) {kwargs : HookKwargs}
    (probe : ℕ → String → ProbeReply) (hs : kwargs.strictDetection.isSome) (hook : EngineHook) :
    create override engineType engineUrl kwargs probe ≠ .ok hook := by
  have hconstruct (cls : BackendType) (url : String) (kw : HookKwargs)
      (hkw : kw.strictDetection = kwargs.strictDetection) : cls.construct url kw ≠ .ok hook := by
    unfold BackendType.construct
    rw [if_pos (Or.inr (Or.inl (hkw ▸ hs)))]
    exact fun he => by cases he
  unfold create
  dsimp only
  split
  · split
    · exact hconstruct _ _ _ rfl
    · split
      · exact fun he => by cases he
      · exact hconstruct _ _ _ rfl
  · split
    · exact hconstruct _ _ _ rfl
    · exact fun he => by cases he

end EngineHookFactory

/-! ### The engine of the simulator, probed -/

namespace MockLLMEngine

variable (nodeRole : String) (port : ℤ)

def handleHealth (isPaused : Bool) : Json :=
  .obj [("status".toList, .text "healthy".toList), ("role".toList, .text nodeRole.toList),
    ("port".toList, .int port), ("paused".toList, .bool isPaused)]

/-- The GET requests: the other paths are not routed, or for POST alone. -/
def get (isPaused : Bool) (path : String) : ProbeReply :=
  if path = "/health" then .status 200 (some (handleHealth nodeRole port isPaused))
  else if path ∈ ["/v1/chat/completions", "/v1/completions", "/pause", "/abort", "/resume"] then
    .status 405 none
  else .status 404 none

/-- The probes of a daemon reach the engine, paused or not, or fail. -/
def Probed (probe : ℕ → String → ProbeReply) : Prop :=
  ∀ i path, probe i path = .raised ∨ ∃ isPaused, probe i path = get nodeRole port isPaused path

end MockLLMEngine

namespace NodeDaemon

/-- The hook of a daemon that has started: `custom` is the hook it has been given. -/
def startHook (override : Option String) (custom : Option EngineHook) (engineType : Option String)
    (engineUrl : String) (probe : ℕ → String → ProbeReply) : Except FactoryError EngineHook :=
  let engineUrl := String.ofList (engineUrl.toList.rdropWhile (· = '/'))
  let engineType := lower (EngineHookFactory.orElse engineType "auto")
  match custom with
  | some hook => .ok hook
  | none =>
    if engineType ≠ "auto" then EngineHookFactory.createSync engineType engineUrl {}
    else
      match EngineHookFactory.create override (some "auto") (some engineUrl) {} probe with
      | .ok hook => .ok hook
      | .error _ => BackendType.vllm.construct engineUrl {}

end NodeDaemon

section
variable {nodeRole : String} {port : ℤ} {probe : ℕ → String → ProbeReply}

theorem MockLLMEngine.Probed.isOk (h : MockLLMEngine.Probed nodeRole port probe) (i : ℕ) {path : String}
    (hpath : path ≠ "/health") : (probe i path).isOk = false := by
  obtain hraised | ⟨isPaused, hget⟩ := h i path
  · rw [hraised]
    rfl
  · rw [hget, MockLLMEngine.get, if_neg hpath]
    split <;> rfl

/-- The probes find the engine itself, or nothing. -/
theorem MockLLMEngine.Probed.attempt (h : MockLLMEngine.Probed nodeRole port probe) (i : ℕ)
    {backend : BackendType} (hb : EngineHookFactory.attempt (probe i) = some backend) : backend = .mock := by
  have hnone : EngineHookFactory.probes.find? (fun p => (probe i p.1).isOk) = none := by
    refine List.find?_eq_none.mpr fun p hp => ?_
    rw [@MockLLMEngine.Probed.isOk _ _ _ h i p.1 (by revert p; decide)]
    exact Bool.false_ne_true
  unfold EngineHookFactory.attempt at hb
  rw [hnone] at hb
  obtain hraised | ⟨isPaused, hget⟩ := h i "/health"
  · rw [hraised] at hb
    cases hb
  · rw [hget] at hb
    exact (Option.some.inj hb).symm

theorem MockLLMEngine.Probed.autoDetect (h : MockLLMEngine.Probed nodeRole port probe) {url : String}
    {retries : ℤ} {backend : BackendType}
    (hb : EngineHookFactory.autoDetect url probe retries none = .ok backend) : backend = .mock := by
  unfold EngineHookFactory.autoDetect at hb
  split at hb
  next found hfound =>
    obtain ⟨i, -, hi⟩ := List.exists_of_findSome?_eq_some hfound
    exact (Except.ok.inj hb) ▸ h.attempt i hi
  next => cases hb

end

/-! ### The hook that a daemon starts with -/

section
variable {nodeRole : String} {port : ℤ} {probe : ℕ → String → ProbeReply} {cls : BackendType}
  {url : String} {hook : EngineHook}

theorem BackendType.exists_construct (cls : BackendType) (url : String) :
    ∃ hook, cls.construct url {} = .ok hook := by
  unfold BackendType.construct
  rw [if_neg (by simp)]
  cases cls <;> exact ⟨_, rfl⟩

theorem BackendType.readsSeq_construct {kwargs : HookKwargs} (h : cls.construct url kwargs = .ok hook) :
    hook.ReadsSeq ↔ cls ≠ .tensorrtLlm ∧ cls ≠ .tgi := by
  unfold BackendType.construct at h
  split at h
  · cases h
  · cases cls <;> cases h <;> simp [EngineHook.ReadsSeq]

namespace NodeDaemon

/-- The kind that the daemon has been told of, by its argument or the variable. -/
def configured (override engineType : Option String) : String :=
  let engineType := lower (EngineHookFactory.orElse engineType "auto")
  if engineType ≠ "auto" then EngineHookFactory.syncTargetOf engineType
  else EngineHookFactory.targetOf override (some "auto")

/-- The kinds whose hooks count the tokens themselves. -/
def Counting (targetType : String) : Prop :=
  engineHookOf targetType = some .tensorrtLlm ∨ engineHookOf targetType = some .tgi

instance (targetType : String) : Decidable (Counting targetType) :=
  inferInstanceAs (Decidable (engineHookOf targetType = some .tensorrtLlm ∨
    engineHookOf targetType = some .tgi))

theorem counting_iff {targetType : String} (h : engineHookOf targetType = some cls) :
    ¬ Counting targetType ↔ cls ≠ .tensorrtLlm ∧ cls ≠ .tgi := by
  unfold Counting
  rw [h, not_or, Option.some_inj, Option.some_inj]

theorem not_counting {targetType : String} (h : engineHookOf targetType = none) : ¬ Counting targetType := by
  unfold Counting
  rw [h]
  simp

theorem create_auto (override : Option String) (url : String) (probe : ℕ → String → ProbeReply) :
    EngineHookFactory.create override (some "auto") (some url) {} probe =
      let effectiveUrl := EngineHookFactory.orElse (some url) "http://127.0.0.1:8001"
      let targetType := EngineHookFactory.targetOf override (some "auto")
      if targetType = "auto" then
        match EngineHookFactory.autoDetect effectiveUrl probe 1 none with
        | .ok backend => backend.construct effectiveUrl {}
        | .error _ => BackendType.vllm.construct effectiveUrl {}
      else
        match engineHookOf targetType with
        | some cls => cls.construct effectiveUrl {}
        | none => .error (.valueError (EngineHookFactory.unknownText targetType)) := by
  have hordered : EngineHookFactory.ordered (some "auto") (some url) = (some "auto", some url) := by
    have hurl : EngineHookFactory.isUrl "auto" = false := by decide
    simp only [EngineHookFactory.ordered, hurl, Bool.false_eq_true, if_false]
  unfold EngineHookFactory.create
  rw [hordered]
  rfl

/-- What comes of the detection, or of the variable in its place. -/
theorem readsSeq_create (hp : MockLLMEngine.Probed nodeRole port probe) (override : Option String)
    (h : EngineHookFactory.create override (some "auto") (some url) {} probe = .ok hook) :
    hook.ReadsSeq ↔ ¬ Counting (EngineHookFactory.targetOf override (some "auto")) := by
  rw [create_auto] at h
  dsimp only at h
  split at h
  next hauto =>
    rw [hauto]
    refine iff_of_true ?_ (not_counting (by decide))
    split at h
    next hdetected =>
      rw [hp.autoDetect hdetected] at h
      exact (BackendType.readsSeq_construct h).mpr ⟨by decide, by decide⟩
    next => exact (BackendType.readsSeq_construct h).mpr ⟨by decide, by decide⟩
  next =>
    split at h
    next hcls => rw [BackendType.readsSeq_construct h, counting_iff hcls]
    next => cases h

/-- Without a hook, the name that the variable holds is none of the known ones. -/
theorem not_counting_of_create {override : Option String} {e : FactoryError}
    (h : EngineHookFactory.create override (some "auto") (some url) {} probe = .error e) :
    ¬ Counting (EngineHookFactory.targetOf override (some "auto")) := by
  have hconstruct (cls : BackendType) (url : String) : cls.construct url {} ≠ .error e := by
    obtain ⟨hook, hok⟩ := cls.exists_construct url
    rw [hok]
    exact fun he => by cases he
  rw [create_auto] at h
  dsimp only at h
  split at h
  next =>
    split at h
    · exact absurd h (hconstruct _ _)
    · exact absurd h (hconstruct _ _)
  next =>
    split at h
    next => exact absurd h (hconstruct _ _)
    next hnone => exact not_counting hnone

/-- A daemon that probes the engine of the simulator starts with a hook that reads
the engine's numbers, whichever probes fail and whatever the engine does between
them, unless it has been told of a kind that does not. -/
theorem readsSeq_startHook_iff (hp : MockLLMEngine.Probed nodeRole port probe)
    {override engineType : Option String}
    (h : startHook override none engineType url probe = .ok hook) :
    hook.ReadsSeq ↔ ¬ Counting (configured override engineType) := by
  unfold startHook at h
  unfold configured
  dsimp only at h ⊢
  by_cases hauto : lower (EngineHookFactory.orElse engineType "auto") = "auto"
  · rw [if_neg (not_not.mpr hauto)] at h ⊢
    split at h
    next hcreate =>
      cases h
      exact readsSeq_create hp override hcreate
    next hcreate =>
      refine iff_of_true ?_ (not_counting_of_create hcreate)
      exact (BackendType.readsSeq_construct h).mpr ⟨by decide, by decide⟩
  · rw [if_pos hauto] at h ⊢
    unfold EngineHookFactory.createSync at h
    split at h
    next hcls => rw [BackendType.readsSeq_construct h, counting_iff hcls]
    next => cases h

end NodeDaemon
end

/-- A daemon at the engine of the simulator starts with the hook, and has not been
told of a kind that counts for itself, whatever else it has been told. -/
def NodeDaemon.StartsWith (hook : EngineHook) : Prop :=
  ∃ override engineType nodeRole port url probe, ¬ Counting (configured override engineType) ∧
    MockLLMEngine.Probed nodeRole port probe ∧ startHook override none engineType url probe = .ok hook

theorem NodeDaemon.StartsWith.readsSeq {hook : EngineHook} (h : NodeDaemon.StartsWith hook) :
    hook.ReadsSeq := by
  obtain ⟨override, engineType, nodeRole, port, url, probe, hk, hp, hstart⟩ := h
  exact (readsSeq_startHook_iff hp hstart).mpr hk

/-- **The hooks that are found carry a generation on.** Where the daemons on the
way each find their hook at the engine of the simulator, whichever of the probes
fail, and none of them is told of a kind that counts for itself, a generation
survives any number of migrations. -/
theorem started_relay_seamless_iff {engine : MockLLMEngine} {show_ : Json → List Char} {reader : LineReader}
    {limit : ℕ} {session : InferenceSession} (hreader : reader.HandsOut limit)
    (hfit : engine.Fits limit session.requestId) (hs : Follows engine.corpus 0 session) {legs : List Leg}
    (hl : ∀ leg ∈ legs, NodeDaemon.StartsWith leg.hook) {hook : EngineHook}
    (hh : NodeDaemon.StartsWith hook) (nowMs : ℤ) (resumeEndpoint formatType : Option String) :
    let x := Leg.relay engine show_ reader session legs
    let chunks := x.1 ++ hook.streamResumed (engine.post show_ reader nowMs fun _ => false) x.2
      resumeEndpoint formatType
    Consecutive session.requestId 0 chunks ∧ chunks.map TokenChunk.token <+: engine.corpus ∧
      (chunks.map TokenChunk.token = engine.corpus.take session.samplingParams.maxTokens.toNat ↔
        engine.corpus.length ≤ session.samplingParams.maxTokens ∨
          x.1.length < session.samplingParams.maxTokens) :=
  relay_seamless_iff hreader hfit hs (fun leg hleg => (hl leg hleg).readsSeq) hh.readsSeq nowMs
    resumeEndpoint formatType

/-! ### Two daemons -/

/-- A session that asks for two tokens. -/
def twoOfThree : InferenceSession where
  requestId := "r"
  samplingParams := { SamplingParams.default with maxTokens := 2, maxTokens_pos := Int.le.intro 1 rfl }

theorem follows_twoOfThree : Follows abcEngine.corpus 0 twoOfThree := ⟨by decide, rfl, rfl, rfl, rfl⟩

/-- The first engine is paused after a token. -/
def firstLeg : Leg where
  hook := .vllm { baseUrl := "http://a" }
  nowMs := 1700000000000
  paused := MockLLMEngine.pausedFrom 1
  daemon := {}

/-- What the client and the second engine have after it. -/
def afterFirst : List TokenChunk × InferenceSession :=
  Leg.relay abcEngine (fun _ => []) (LineReader.bounded LineReader.usualLimit) twoOfThree [firstLeg]

/-- The probes of the first daemon fail, and it takes the engine for vLLM; the
second is told that it is SGLang. -/
theorem started_relay_seamless_iff_two : (afterFirst.1 ++
    (EngineHook.sglang { baseUrl := "http://b" }).streamResumed (abcEngine.post (fun _ => [])
      (LineReader.bounded LineReader.usualLimit) 1700000001000 fun _ => false) afterFirst.2 none none).map
        TokenChunk.token = abcCorpus.take 2 := by
  have hlen : (afterFirst.1.length : ℤ) < twoOfThree.samplingParams.maxTokens := by decide +kernel
  have hfirst : NodeDaemon.StartsWith firstLeg.hook :=
    ⟨none, none, "active", 8001, "http://a", fun _ _ => .raised, by decide +kernel, fun _ _ => Or.inl rfl, rfl⟩
  have hsecond : NodeDaemon.StartsWith (.sglang { baseUrl := "http://b" }) :=
    ⟨some "TGI", some "SRT", "standby", 8002, "http://b/", fun _ => MockLLMEngine.get "standby" 8002 false,
      by decide +kernel, fun _ _ => Or.inr ⟨false, rfl⟩, rfl⟩
  obtain ⟨-, -, hiff⟩ := @started_relay_seamless_iff abcEngine (fun _ => []) _ _ twoOfThree
    (LineReader.handsOut_bounded LineReader.usualLimit) fits_abcEngine follows_twoOfThree [firstLeg]
    (fun leg hleg => List.mem_singleton.mp hleg ▸ hfirst) (.sglang { baseUrl := "http://b" }) hsecond
    1700000001000 none none
  exact hiff.mpr (Or.inr hlen)

end Sgm
