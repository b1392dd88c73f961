/-
# The mock engine

`simulator/mock_engine.py`: the streaming response to a completion request. The
pause flag is shared with other requests and changes at any time; a response is
a function of the values its checks see. What the proxy's parser makes of the
stream is stated here too, since it is the meeting of two formats: the engine
numbers its tokens from `start_seq_id`, and the parser takes these numbers,
where the lines of the tokens are within the limit of its reader.

Key definitions: `MockLLMEngine`, `MockLLMEngine.handleChatCompletions`, `pausedFrom`,
`MockLLMEngine.Fits`.
Key theorems: `readLines_stream`, `sseChunkGenerator_engine`.
-/
import Sgm.Proxy.Sse

namespace Sgm

open Text

/-- `l[i:j]`. -/
def pySlice {α : Type*} (l : List α) (i j : ℤ) : List α :=
  let at_ (x : ℤ) : ℕ := (if x < 0 then max (x + l.length) 0 else min x l.length).toNat
  (l.drop (at_ i)).take (at_ j - at_ i)

theorem pySlice_of_nonneg {α : Type*} (l : List α) (i j : ℕ) :
    pySlice l i j = (l.take j).drop i := by
  have hi : (if (i : ℤ) < 0 then max ((i : ℤ) + l.length) 0 else min (i : ℤ) l.length).toNat =
      min i l.length := by
    rw [if_neg (by omega)]
    omega
  have hj : (if (j : ℤ) < 0 then max ((j : ℤ) + l.length) 0 else min (j : ℤ) l.length).toNat =
      min j l.length := by
    rw [if_neg (by omega)]
    omega
  simp only [pySlice, hi, hj]
  rw [List.drop_take]
  rcases le_total i l.length with h | h
  · rw [Nat.min_eq_left h]
    rcases le_total j l.length with h' | h'
    · rw [Nat.min_eq_left h']
    · rw [Nat.min_eq_right h', List.take_of_length_le (by simp),
        List.take_of_length_le (by rw [List.length_drop]; omega)]
  · rw [Nat.min_eq_right h, List.drop_length, List.drop_eq_nil_of_le h]
    simp

/-- A server's corpus: not empty, since an empty one is replaced by the default,
and no longer than a list can be. No token has two surrogates that make up a
character, which `json.loads` would join. -/
structure MockLLMEngine where
  corpus : List PyStr
  corpus_ne : corpus ≠ []
  corpus_length : corpus.length < 2 ^ 63
  corpus_unpaired : ∀ token ∈ corpus, token.Unpaired

namespace MockLLMEngine

def defaultGenerationCorpus : List PyStr :=
  ["The", " quick", " brown", " fox", " jumps", " over", " the", " lazy", " dog", " and",
    " runs", " across", " the", " wide", " open", " fields", " towards", " the", " green",
    " mountains.", " The", " sun", " sets", " behind", " the", " horizon,", " casting", " golden",
    " light", " upon", " the", " tranquil", " valley", " below.", " Deep", " learning", " models",
    " require", " substantial", " compute,", " making", " spot", " GPU", " migration", " essential",
    " for", " cost-effective", " large", " scale", " AI."].map .ofString

/-- `corpus or DEFAULT_GENERATION_CORPUS`. -/
def new (corpus : Option (List PyStr))
    (h : ∀ c ∈ corpus, c.length < 2 ^ 63 ∧ ∀ token ∈ c, token.Unpaired) : MockLLMEngine :=
  match corpus with
  | some (t :: ts) => ⟨t :: ts, by simp, (h _ rfl).1, (h _ rfl).2⟩
  | _ => ⟨defaultGenerationCorpus, by simp [defaultGenerationCorpus], by simp [defaultGenerationCorpus],
      fun _ ht => by
        obtain ⟨t, -, rfl⟩ := List.mem_map.mp ht
        exact PyStr.unpaired_ofText _⟩

def payload (requestId token : PyStr) (seq : ℤ) (isLast : Bool) : Json :=
  .obj [
    ("id".toList, .str (.ofString "chatcmpl-" ++ requestId)),
    ("choices".toList, .arr [.obj [
      ("delta".toList, .obj [("content".toList, .str token)]),
      ("index".toList, .int 0),
      ("finish_reason".toList, if isLast then .text "stop".toList else .null)]]),
    ("token".toList, .str token),
    ("seq".toList, .int seq)]

/-- The lines of one token. -/
def event (requestId token : PyStr) (seq : ℤ) (isLast : Bool) : Bytes :=
  encodeUtf8 ("id: ".toList ++ Json.dumpsInt seq ++ "\ndata: ".toList ++
    Json.dumps (payload requestId token seq isLast) ++ "\n\n".toList)

def doneLine : Bytes := encodeUtf8 "data: [DONE]\n\n".toList

/-- The stream from token `idx` on; `paused k` is the value of `is_paused` at
check `k`. -/
def stream (requestId : PyStr) (paused : ℕ → Bool) : ℕ → ℤ → List PyStr → Bytes
  | idx, _, [] => if paused idx then [] else doneLine
  | idx, currentSeq, token :: rest =>
    -- no other task runs between the break and the last check
    if paused idx then []
    else event requestId token currentSeq rest.isEmpty ++
      stream requestId paused (idx + 1) (currentSeq + 1) rest

/-- `body.get("request_id", f"mock-{int(time.time() * 1000)}")`, as it is written
into a text; `show_` is `str` of a value that is not a string. -/
def requestIdOf (show_ : Json → List Char) (nowMs : ℤ) (body : List (List Char × Json)) : PyStr :=
  match Json.field? body "request_id".toList with
  | none => .ofText ("mock-".toList ++ Json.dumpsInt nowMs)
  | some (.str s) => s
  | some j => .ofText (show_ j)

/-- The response to a request that comes in at `nowMs`, and whose body is an
object. An exception before the response is a status 500. -/
def handleChatCompletions (engine : MockLLMEngine) (show_ : Json → List Char) (nowMs : ℤ)
    (paused : ℕ → Bool) (body : List (List Char × Json)) : ServerResponse :=
  let isStreaming := (Json.field? body "stream".toList).getD (.bool true)
  let requestId := requestIdOf show_ nowMs body
  match ((Json.field? body "start_seq_id".toList).getD (.int 0)).toInt,
      ((Json.field? body "max_tokens".toList).getD (.int engine.corpus.length)).toInt with
  | some startSeq, some maxTokens =>
    let tokensToEmit :=
      if startSeq < engine.corpus.length then pySlice engine.corpus startSeq (startSeq + maxTokens)
      else []
    if isStreaming.truthy then ⟨200, stream requestId paused 0 startSeq tokensToEmit⟩
    else
      ⟨200, encodeUtf8 (Json.dumps (.obj [
        ("id".toList, .str (.ofString "chatcmpl-" ++ requestId)),
        ("object".toList, .text "chat.completion".toList),
        ("choices".toList, .arr [.obj [("message".toList, .obj [
          ("role".toList, .text "assistant".toList),
          ("content".toList, .str tokensToEmit.flatten)])]])]))⟩
  | _, _ => { status := 500 }

/-- The lines of the stream are within the limit of a reader, whatever part of
the corpus it is made of. -/
structure Fits (engine : MockLLMEngine) (limit : ℕ) (requestId : PyStr) : Prop where
  event : ∀ (k : ℕ) (token : PyStr) (isLast : Bool), engine.corpus[k]? = some token →
    ∀ l ∈ contentLines (event requestId token k isLast), l.length ≤ limit
  done : ∀ l ∈ contentLines doneLine, l.length ≤ limit

/-! ### The stream, parsed -/

theorem plain_payload {rid token : PyStr} (hr : rid.Unpaired) (ht : token.Unpaired) {seq : ℤ}
    (h : Json.Short seq) (isLast : Bool) : (payload rid token seq isLast).Plain := by
  have h0 : Json.Short 0 := Json.short_of_lt le_rfl (by decide)
  have hid : PyStr.Unpaired (.ofString "chatcmpl-" ++ rid) := hr.text_append _
  cases isLast <;>
    simp [payload, Json.Plain, Json.PlainFields, Json.PlainItems, h, h0, hid, ht, PyStr.unpaired_ofText]

theorem parsePayload_payload {rid token : PyStr} (hr : rid.Unpaired) (ht : token.Unpaired) {seq : ℤ}
    (h : Json.Short seq) (isLast : Bool) (currentSeq : ℤ) :
    parsePayload (Json.dumps (payload rid token seq isLast)) currentSeq = some (token, seq) := by
  rw [parsePayload, Json.loads_dumps (plain_payload hr ht h isLast)]
  rfl

/-- The lines of an event, for the parser: the id, the chunk, nothing. -/
theorem readLines_event (rid' : String) {rid token : PyStr} (hr : rid.Unpaired) (ht : token.Unpaired)
    {seq : ℤ} (h : Json.Short seq) (isLast : Bool) (bs : Bytes) (currentSeq : ℤ) :
    ∃ raw, readLines rid' (contentLines (event rid token seq isLast ++ bs)) currentSeq =
      ⟨⟨rid', seq, token, 0, false, raw⟩ :: (readLines rid' (contentLines bs) (seq + 1)).chunks,
        (readLines rid' (contentLines bs) (seq + 1)).ending⟩ :=
  readLines_numberedEvent seq (plain_payload hr ht h isLast)
    (parsePayload_payload hr ht h isLast) rid' bs currentSeq

/-- The tokens written before a check sees the pause. -/
def served (paused : ℕ → Bool) : ℕ → List PyStr → List PyStr
  | _, [] => []
  | idx, token :: rest => if paused idx then [] else token :: served paused (idx + 1) rest

/-- No check of the response sees the pause. -/
def runsThrough (paused : ℕ → Bool) : ℕ → List PyStr → Bool
  | idx, [] => !paused idx
  | idx, _ :: rest => !paused idx && runsThrough paused (idx + 1) rest

theorem doneLine_eq : doneLine = textLine (dataLine "[DONE]".toList) ++ (textLine [] ++ []) := by decide

/-- The numbers after the first one. -/
theorem add_one_add_cast (seq : ℤ) (k : ℕ) : seq + 1 + (k : ℤ) = seq + ((k + 1 : ℕ) : ℤ) := by
  push_cast
  ring

theorem short_tail {token : PyStr} {rest : List PyStr} {seq : ℤ}
    (h : ∀ k < (token :: rest).length, Json.Short (seq + k)) :
    Json.Short seq ∧ ∀ k < rest.length, Json.Short (seq + 1 + k) := by
  refine ⟨by simpa using h 0 (by simp), fun k hk => ?_⟩
  rw [add_one_add_cast]
  exact h (k + 1) (by simpa using hk)

theorem readLines_stream (rid' : String) {rid : PyStr} (hr : rid.Unpaired) (paused : ℕ → Bool) :
    ∀ (tokens : List PyStr) (idx : ℕ) (seq currentSeq : ℤ), (∀ token ∈ tokens, token.Unpaired) →
    (∀ k < tokens.length, Json.Short (seq + k)) →
    ∃ chunks, readLines rid' (contentLines (stream rid paused idx seq tokens)) currentSeq =
        ⟨chunks, if runsThrough paused idx tokens then .done else .closed⟩ ∧
      InOrder.Numbered TokenChunk.sequenceId seq chunks ∧
      chunks.map TokenChunk.token = served paused idx tokens
  | [], idx, seq, currentSeq, _, _ => by
    refine ⟨[], ?_, trivial, rfl⟩
    rw [stream, runsThrough]
    cases paused idx with
    | true => rfl
    | false =>
      simp only [Bool.false_eq_true, if_false, Bool.not_false, if_true]
      rw [doneLine_eq, contentLines_textLine (by decide), readLines, readLine_done]
  | token :: rest, idx, seq, currentSeq, htokens, hshort => by
    rw [stream, runsThrough, served]
    cases paused idx with
    | true => exact ⟨[], rfl, trivial, rfl⟩
    | false =>
      obtain ⟨ht, hrest⟩ := List.forall_mem_cons.mp htokens
      obtain ⟨h0, hshort⟩ := short_tail hshort
      obtain ⟨raw, hevent⟩ := readLines_event rid' hr ht h0 rest.isEmpty
        (stream rid paused (idx + 1) (seq + 1) rest) currentSeq
      obtain ⟨chunks, hread, hnum, htok⟩ :=
        readLines_stream rid' hr paused rest (idx + 1) (seq + 1) (seq + 1) hrest hshort
      refine ⟨⟨rid', seq, token, 0, false, raw⟩ :: chunks, ?_, ⟨rfl, hnum⟩, ?_⟩
      · simp only [Bool.false_eq_true, if_false, Bool.not_false, Bool.true_and]
        rw [hevent, hread]
      · simp only [Bool.false_eq_true, if_false, List.map_cons, htok]

theorem contentLines_event {rid token : PyStr} (hr : rid.Unpaired) (ht : token.Unpaired) {seq : ℤ}
    (h : Json.Short seq) (isLast : Bool) (bs : Bytes) :
    contentLines (event rid token seq isLast ++ bs) =
      contentLines (event rid token seq isLast) ++ contentLines bs := by
  have hplain := plain_payload hr ht h isLast
  have hnil := contentLines_numberedEvent seq hplain []
  rw [List.append_nil, show contentLines [] = [] from rfl, List.append_nil] at hnil
  rw [event, contentLines_numberedEvent seq hplain, hnil]

/-- The stream fits where its events and its last line do. -/
theorem fits_stream {rid : PyStr} (hr : rid.Unpaired) (paused : ℕ → Bool) {limit : ℕ}
    (hdone : ∀ l ∈ contentLines doneLine, l.length ≤ limit) :
    ∀ (tokens : List PyStr) (idx : ℕ) (seq : ℤ), (∀ token ∈ tokens, token.Unpaired) →
    (∀ k < tokens.length, Json.Short (seq + k)) →
    (∀ (k : ℕ) (token : PyStr) (isLast : Bool), tokens[k]? = some token →
      ∀ l ∈ contentLines (event rid token (seq + k) isLast), l.length ≤ limit) →
    ∀ l ∈ contentLines (stream rid paused idx seq tokens), l.length ≤ limit
  | [], idx, seq, _, _, _ => by
    rw [stream]
    split_ifs
    · nofun
    · exact hdone
  | token :: rest, idx, seq, htokens, hshort, hfit => by
    obtain ⟨ht, hrest⟩ := List.forall_mem_cons.mp htokens
    obtain ⟨h0, hshort⟩ := short_tail hshort
    rw [stream]
    split_ifs
    · nofun
    · intro l hl
      rw [contentLines_event hr ht h0] at hl
      rcases List.mem_append.mp hl with hl | hl
      · have hevent := hfit 0 token rest.isEmpty rfl l
        rw [Nat.cast_zero, add_zero] at hevent
        exact hevent hl
      · refine fits_stream hr paused hdone rest (idx + 1) (seq + 1) hrest hshort
          (fun k token' isLast hk => ?_) l hl
        rw [add_one_add_cast]
        exact hfit (k + 1) token' isLast hk

/-- Paused at token `p`, for good. -/
def pausedFrom (p : ℕ) : ℕ → Bool := fun k => p ≤ k

theorem served_pausedFrom (p : ℕ) : ∀ (tokens : List PyStr) (idx : ℕ),
    served (pausedFrom p) idx tokens = tokens.take (p - idx)
  | [], idx => by simp [served]
  | token :: rest, idx => by
    rw [served, served_pausedFrom p rest (idx + 1), pausedFrom]
    by_cases h : p ≤ idx
    · simp [h]
    · rw [show p - idx = p - (idx + 1) + 1 by omega, List.take_succ_cons]
      simp [h]

theorem served_never (tokens : List PyStr) (idx : ℕ) : served (fun _ => false) idx tokens = tokens := by
  induction tokens generalizing idx with
  | nil => rfl
  | cons token rest ih => simp [served, ih]

theorem served_of_runsThrough {paused : ℕ → Bool} : ∀ {tokens : List PyStr} {idx : ℕ},
    runsThrough paused idx tokens = true → served paused idx tokens = tokens
  | [], _, _ => rfl
  | token :: rest, idx, h => by
    rw [runsThrough, Bool.and_eq_true, Bool.not_eq_true'] at h
    rw [served, h.1, served_of_runsThrough h.2]
    rfl

/-- The tokens of a request for `m` tokens from `start` on. -/
theorem tokensToEmit_eq (engine : MockLLMEngine) (start m : ℕ) :
    (if (start : ℤ) < engine.corpus.length then
      pySlice engine.corpus start ((start : ℤ) + (m : ℤ)) else []) =
      (engine.corpus.take (start + m)).drop start := by
  split_ifs with h
  · have := pySlice_of_nonneg engine.corpus start (start + m)
    push_cast at this
    exact this
  · rw [List.drop_eq_nil_of_le]
    rw [List.length_take]
    omega

/-- What is sent in a streaming response to such a request. -/
theorem handleChatCompletions_stream (engine : MockLLMEngine) (show_ : Json → List Char) (nowMs : ℤ)
    (paused : ℕ → Bool) {body : List (List Char × Json)} {rid : PyStr} {start m : ℕ}
    (hstream : ((Json.field? body "stream".toList).getD (.bool true)).truthy = true)
    (hid : Json.field? body "request_id".toList = some (.str rid))
    (hstart : ((Json.field? body "start_seq_id".toList).getD (.int 0)).toInt = some (start : ℤ))
    (hm : Json.field? body "max_tokens".toList = some (.int m)) :
    engine.handleChatCompletions show_ nowMs paused body =
      ⟨200, stream rid paused 0 start ((engine.corpus.take (start + m)).drop start)⟩ := by
  have hmax : (Json.int (m : ℤ)).toInt = some (m : ℤ) := rfl
  rw [handleChatCompletions, requestIdOf]
  simp only [hm, hid, hstart, hmax, Option.getD_some, tokensToEmit_eq, if_pos hstream]

/-- The tokens sent are text of the corpus, and their numbers are short. -/
theorem emitted_spec (engine : MockLLMEngine) (start m : ℕ) :
    (∀ token ∈ (engine.corpus.take (start + m)).drop start, token.Unpaired) ∧
    ∀ k < ((engine.corpus.take (start + m)).drop start).length, Json.Short ((start : ℤ) + k) := by
  have hlen := engine.corpus_length
  refine ⟨fun token ht => engine.corpus_unpaired token (List.mem_of_mem_take (List.mem_of_mem_drop ht)),
    fun k hk => ?_⟩
  rw [List.length_drop, List.length_take] at hk
  exact Json.short_of_lt (by omega) (by omega)

theorem Fits.stream {engine : MockLLMEngine} {limit : ℕ} {rid : PyStr} (h : engine.Fits limit rid)
    (hr : rid.Unpaired) (paused : ℕ → Bool) (start m : ℕ) :
    ∀ l ∈ contentLines (stream rid paused 0 start ((engine.corpus.take (start + m)).drop start)),
      l.length ≤ limit := by
  obtain ⟨hun, hshort⟩ := engine.emitted_spec start m
  refine fits_stream hr paused h.done _ 0 start hun hshort fun k token isLast hk => ?_
  have hget : engine.corpus[start + k]? = some token := by
    rw [List.getElem?_drop, List.getElem?_take] at hk
    split_ifs at hk
    exact hk
  have hevent := h.event (start + k) token isLast hget
  rwa [Nat.cast_add] at hevent

/-- What the proxy reads of a streaming response to a request for `max_tokens`
tokens from `start_seq_id` on. -/
theorem sseChunkGenerator_engine {reader : LineReader} {limit : ℕ} (hreader : reader.HandsOut limit)
    (engine : MockLLMEngine) (show_ : Json → List Char) (nowMs : ℤ) (paused : ℕ → Bool)
    (post : String → Json → Reply) (url rid' : String) (body : List (List Char × Json)) {rid : PyStr}
    (start m : ℕ) (hr : rid.Unpaired) (hfit : engine.Fits limit rid)
    (hpost : post url (.obj body) =
      reader.reply (engine.handleChatCompletions show_ nowMs paused body))
    (hstream : ((Json.field? body "stream".toList).getD (.bool true)).truthy = true)
    (hid : Json.field? body "request_id".toList = some (.str rid))
    (hstart : ((Json.field? body "start_seq_id".toList).getD (.int 0)).toInt = some (start : ℤ))
    (hm : Json.field? body "max_tokens".toList = some (.int m)) :
    ∃ chunks e, sseChunkGenerator post url (.obj body) rid' = ⟨chunks, e⟩ ∧
      (e = .done ∨ e = .closed) ∧
      (e = .done → runsThrough paused 0 ((engine.corpus.take (start + m)).drop start) = true) ∧
      InOrder.Numbered TokenChunk.sequenceId start chunks ∧
      chunks.map TokenChunk.token = served paused 0 ((engine.corpus.take (start + m)).drop start) := by
  obtain ⟨hun, hshort⟩ := engine.emitted_spec start m
  obtain ⟨chunks, hread, hnum, htok⟩ := readLines_stream rid' hr paused
    ((engine.corpus.take (start + m)).drop start) 0 start 0 hun hshort
  have hgen : sseChunkGenerator post url (.obj body) rid' =
      ⟨chunks, if runsThrough paused 0 ((engine.corpus.take (start + m)).drop start) then .done
        else .closed⟩ := by
    rw [← hread, sseChunkGenerator, hpost,
      engine.handleChatCompletions_stream show_ nowMs paused hstream hid hstart hm,
      hreader.reply_eq (hfit.stream hr paused start m)]
    rfl
  refine ⟨chunks, _, hgen, ?_, fun h => by_contra fun hno => ?_, hnum, htok⟩
  · split_ifs
    · exact Or.inl rfl
    · exact Or.inr rfl
  · rw [if_neg hno] at h
    cases h

end MockLLMEngine
end Sgm
