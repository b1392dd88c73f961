/-
# Reading an upstream's event stream

`_sse_chunk_generator` of `proxy/ingress.py`: the request to an upstream, its
response line by line, and the chunks parsed from it. Every way in which the
reading can fail (no connection, another status than 200, an error while
reading, bytes that are not UTF-8) ends the iteration like an upstream that
closes; only a `[DONE]` line is told apart here, as `UpstreamEnd.done`, and the
multiplexer does not see the difference.

The lines are those that the client library hands out. How it makes them of a
body is its own matter (`LineReader`): a long line ends the iteration, and the
limit is not this program's. Within the limit they are the lines of the body
(`LineReader.HandsOut`).

Key definitions: `Reply`, `LineReader`, `contentLines`, `readLine`, `sseChunkGenerator`,
`PlainEvent`.
Key theorems: `sseChunkGenerator_not_raised`, `readLine_id`, `readLine_data`,
`readLines_numberedEvent`, `readLines_plain`.
-/
import Sgm.Lib.InOrder
import Sgm.Lib.Json
import Sgm.Proxy.Upstream

namespace Sgm

open Text

/-! ### Responses -/

/-- How the reading of a response body ends. -/
inductive ReadEnd
  | eof
  | error
  deriving DecidableEq

/-- What a request to an upstream meets: an exception before the response, or a
status, the lines that `async for line_bytes in resp.content` hands out, and the
end of this iteration. -/
inductive Reply
  | refused
  | response (status : ℕ) (lines : List Bytes) (ending : ReadEnd)

/-- What a server sends. -/
structure ServerResponse where
  status : ℕ
  content : Bytes := []

def newline : UInt8 := 10

/-- The lines, each with its newline, and what comes after the last newline. -/
def splitLines : Bytes → List Bytes × Bytes
  | [] => ([], [])
  | b :: bs =>
    let (ls, rest) := splitLines bs
    if b = newline then ([b] :: ls, rest)
    else
      match ls with
      | [] => ([], b :: rest)
      | l :: ls => ((b :: l) :: ls, rest)

/-- The lines of a body; the last one may be unfinished. -/
def contentLines (content : Bytes) : List Bytes :=
  let (ls, rest) := splitLines content
  if rest = [] then ls else ls ++ [rest]

/-- The iteration over a body that arrives whole, as the client library does it. -/
abbrev LineReader := Bytes → List Bytes × ReadEnd

namespace LineReader

def reply (reader : LineReader) (resp : ServerResponse) : Reply :=
  .response resp.status (reader resp.content).1 (reader resp.content).2

/-- Lines within the limit are handed out one by one. -/
def HandsOut (reader : LineReader) (limit : ℕ) : Prop :=
  ∀ content, (∀ l ∈ contentLines content, l.length ≤ limit) → reader content = (contentLines content, .eof)

theorem HandsOut.reply_eq {reader : LineReader} {limit : ℕ} (h : reader.HandsOut limit)
    {resp : ServerResponse} (hfit : ∀ l ∈ contentLines resp.content, l.length ≤ limit) :
    reader.reply resp = .response resp.status (contentLines resp.content) .eof := by
  rw [reply, h _ hfit]

/-- The longest line that is handed out of a buffer of 256 KiB. -/
def usualLimit : ℕ := 524288

/-- A reader with a limit, which raises at a line that is longer. -/
def bounded (limit : ℕ) : LineReader := fun content =>
  if ∀ l ∈ contentLines content, l.length ≤ limit then (contentLines content, .eof)
  else ((contentLines content).takeWhile fun l => l.length ≤ limit, .error)

theorem handsOut_bounded (limit : ℕ) : (bounded limit).HandsOut limit := fun _ h => if_pos h

end LineReader

theorem splitLines_line {l : Bytes} (h : newline ∉ l) (bs : Bytes) :
    splitLines (l ++ newline :: bs) = ((l ++ [newline]) :: (splitLines bs).1, (splitLines bs).2) := by
  induction l with
  | nil => simp [splitLines]
  | cons b l ih =>
    have hb : b ≠ newline := fun hb => h (by simp [hb])
    rw [List.cons_append, splitLines, ih fun hl => h (List.mem_cons_of_mem b hl)]
    simp only [if_neg hb, List.cons_append]

theorem contentLines_line {l : Bytes} (h : newline ∉ l) (bs : Bytes) :
    contentLines (l ++ newline :: bs) = (l ++ [newline]) :: contentLines bs := by
  simp only [contentLines, splitLines_line h]
  split <;> rfl

theorem flatten_contentLines (content : Bytes) : (contentLines content).flatten = content := by
  have hsplit : (splitLines content).1.flatten ++ (splitLines content).2 = content := by
    induction content with
    | nil => rfl
    | cons b bs ih =>
      simp only [splitLines]
      split_ifs with hb
      · rw [List.flatten_cons, List.append_assoc, ih]
        rfl
      · split
        · rename_i hnil
          rw [hnil] at ih
          exact congrArg (b :: ·) ih
        · rename_i l ls hls
          rw [hls] at ih
          exact congrArg (b :: ·) ih
  simp only [contentLines]
  split_ifs with hrest
  · rw [hrest, List.append_nil] at hsplit
    exact hsplit
  · rw [List.flatten_append, List.flatten_singleton]
    exact hsplit

theorem length_le_of_mem_contentLines {l content : Bytes} (h : l ∈ contentLines content) :
    l.length ≤ content.length := by
  have hsub := (List.sublist_flatten_of_mem h).length_le
  rwa [flatten_contentLines] at hsub

/-! ### The parser -/

/-- The token and the id in the payload of a `data:` line; `none` where the
parsing raises, which skips the line. -/
def parsePayload (payload : List Char) (currentSeq : ℤ) : Option (PyStr × ℤ) := do
  let .obj data ← Json.loads payload | none
  let choices := (Json.field? data "choices".toList).getD (.arr [])
  let token ←
    match choices with
    | .arr (choice :: _) =>
      match choice with
      | .obj choice =>
        match (Json.field? choice "delta".toList).getD (.obj []) with
        | .obj delta => some ((Json.field? delta "content".toList).getD (.str []))
        | _ => none
      | _ => none
    | _ => some ((Json.field? data "token".toList).getD (.str []))
  let seqId ← ((Json.field? data "seq".toList).getD (.int currentSeq)).toInt
  -- the validation of `TokenChunk`
  let .str token := token | none
  some (token, seqId)

/-- What a line does to the reading. -/
inductive LineResult
  | next (currentSeq : ℤ)
  | chunk (chunk : TokenChunk)
  | done
  | failed

def readLine (requestId : String) (lineBytes : Bytes) (currentSeq : ℤ) : LineResult :=
  match decodeUtf8 lineBytes with
  | none => .failed
  | some text =>
    let line := strip text
    if line = [] then .next currentSeq
    else if "id:".toList.isPrefixOf line then
      .next ((parseInt (strip (line.drop 3))).getD currentSeq)
    else if "data:".toList.isPrefixOf line then
      let payloadStr := strip (line.drop 5)
      if payloadStr = "[DONE]".toList then .done
      else
        match parsePayload payloadStr currentSeq with
        | some (token, seqId) =>
          .chunk { requestId := requestId, sequenceId := seqId, token := token,
                   rawBytes := lineBytes }
        | none => .next currentSeq
    else .next currentSeq

def readLines (requestId : String) : List Bytes → ℤ → Upstream
  | [], _ => ⟨[], .closed⟩
  | lineBytes :: rest, currentSeq =>
    match readLine requestId lineBytes currentSeq with
    | .failed => ⟨[], .closed⟩
    | .done => ⟨[], .done⟩
    | .next seq => readLines requestId rest seq
    | .chunk chunk =>
      let upstream := readLines requestId rest (chunk.sequenceId + 1)
      ⟨chunk :: upstream.chunks, upstream.ending⟩

/-- Connects to an upstream and reads its stream. The `post` is the client
session's. -/
def sseChunkGenerator (post : String → Json → Reply) (url : String) (body : Json)
    (requestId : String) : Upstream :=
  match post url body with
  | .refused => ⟨[], .closed⟩
  | .response status lines _ =>
    if status ≠ 200 then ⟨[], .closed⟩
    else
      let currentSeq := 0
      readLines requestId lines currentSeq

/-- The iteration itself never raises. -/
theorem readLines_not_raised (rid : String) (ls : List Bytes) (seq : ℤ) (e : Exc) :
    (readLines rid ls seq).ending ≠ .raised e := by
  induction ls generalizing seq with
  | nil => simp [readLines]
  | cons l ls ih =>
    rw [readLines]
    split
    · simp
    · simp
    · exact ih _
    · exact ih _

theorem sseChunkGenerator_not_raised (post : String → Json → Reply) (url : String) (body : Json)
    (rid : String) (e : Exc) : (sseChunkGenerator post url body rid).ending ≠ .raised e := by
  unfold sseChunkGenerator
  split
  · simp
  · split_ifs
    · simp
    · exact readLines_not_raised _ _ _ e

/-! ### Lines of text -/

/-- A line of text on the wire. -/
def textLine (t : List Char) : Bytes := encodeUtf8 t ++ [newline]

theorem decode_textLine (t : List Char) : decodeUtf8 (textLine t) = some (t ++ ['\n']) := by
  have h : textLine t = encodeUtf8 (t ++ ['\n']) := by
    rw [encodeUtf8_append]
    rfl
  rw [h, decode_encode]

theorem contentLines_textLine {t : List Char} (h : newline ∉ encodeUtf8 t) (bs : Bytes) :
    contentLines (textLine t ++ bs) = textLine t :: contentLines bs := by
  rw [textLine, List.append_assoc, List.singleton_append]
  exact contentLines_line h bs

theorem strip_line {t : List Char} (h : Trimmed t) : strip (t ++ ['\n']) = t := by
  cases t with
  | nil => rfl
  | cons c t => exact @strip_pad [] (c :: t) ['\n'] h (by simp) (by simp) (by simp; decide)

theorem readLine_textLine {t : List Char} (h : Trimmed t) (rid : String) (seq : ℤ) :
    readLine rid (textLine t) seq =
      if t = [] then .next seq
      else if "id:".toList.isPrefixOf t then .next ((parseInt (strip (t.drop 3))).getD seq)
      else if "data:".toList.isPrefixOf t then
        if strip (t.drop 5) = "[DONE]".toList then .done
        else
          match parsePayload (strip (t.drop 5)) seq with
          | some (token, seqId) =>
            .chunk { requestId := rid, sequenceId := seqId, token := token,
                     rawBytes := textLine t }
          | none => .next seq
      else .next seq := by
  unfold readLine
  simp only [decode_textLine, strip_line h]

theorem readLine_blank (rid : String) (seq : ℤ) : readLine rid (textLine []) seq = .next seq := by
  rw [readLine_textLine ⟨by simp, by simp⟩, if_pos rfl]

/-- The text of a `data:` line. -/
def dataLine (payload : List Char) : List Char := "data: ".toList ++ payload

theorem dataLine_eq (payload : List Char) :
    dataLine payload = ['d', 'a', 't', 'a', ':', ' '] ++ payload := rfl

theorem trimmed_append {c : Char} {p t : List Char} (hc : isSpace c = false) (h : Trimmed t)
    (ht : t ≠ []) : Trimmed (c :: p ++ t) := by
  constructor
  · intro d hd
    obtain rfl : c = d := Option.some.inj hd
    exact hc
  · intro d hd
    rw [List.getLast?_append_of_ne_nil _ ht] at hd
    exact h.2 d hd

theorem readLine_data {payload : List Char} (h : Trimmed payload) (hne : payload ≠ []) (rid : String)
    (seq : ℤ) : readLine rid (textLine (dataLine payload)) seq =
      if payload = "[DONE]".toList then .done
      else
        match parsePayload payload seq with
        | some (token, seqId) =>
          .chunk { requestId := rid, sequenceId := seqId, token := token,
                   rawBytes := textLine (dataLine payload) }
        | none => .next seq := by
  have htrim : Trimmed (dataLine payload) := @trimmed_append 'd' "ata: ".toList _ (by decide) h hne
  have hstrip : strip ((dataLine payload).drop 5) = payload := by
    have := @strip_pad [' '] payload [] h hne (by simp; decide) (by simp)
    rwa [List.append_nil] at this
  rw [readLine_textLine htrim, hstrip, if_neg (by simp [dataLine_eq]),
    if_neg (by simp [dataLine_eq]), if_pos (by simp [dataLine_eq])]

theorem trimmed_done : Trimmed "[DONE]".toList := by
  constructor
  · intro c hc
    obtain rfl : '[' = c := Option.some.inj hc
    decide
  · intro c hc
    obtain rfl : ']' = c := Option.some.inj hc
    decide

theorem readLine_done (rid : String) (seq : ℤ) :
    readLine rid (textLine (dataLine "[DONE]".toList)) seq = .done := by
  rw [readLine_data trimmed_done (by decide), if_pos rfl]

/-- An `id:` line only sets the number for events without one. -/
theorem readLine_id {t : List Char} (h : Trimmed t) (hne : t ≠ []) (rid : String) (seq : ℤ) :
    ∃ seq', readLine rid (textLine ("id: ".toList ++ t)) seq = .next seq' := by
  have htrim : Trimmed ("id: ".toList ++ t) := @trimmed_append 'i' "d: ".toList _ (by decide) h hne
  rw [readLine_textLine htrim, if_neg (by simp), if_pos (by simp)]
  exact ⟨_, rfl⟩

theorem newline_not_mem_printable {l : List Char} (h : Json.Printable l) :
    newline ∉ encodeUtf8 l := by
  rw [encodeUtf8_ascii fun c hc => by have := h c hc; omega]
  intro hmem
  obtain ⟨c, hc, heq⟩ := List.mem_map.mp hmem
  have h1 := h c hc
  have h2 : c.toUInt8.toNat = c.toNat % 256 := rfl
  rw [heq, newline] at h2
  have h3 : (10 : UInt8).toNat = 10 := rfl
  omega

theorem newline_not_mem_encode_append {p t : List Char} (hp : newline ∉ encodeUtf8 p)
    (ht : newline ∉ encodeUtf8 t) : newline ∉ encodeUtf8 (p ++ t) := by
  rw [encodeUtf8_append]
  exact fun h => (List.mem_append.mp h).elim hp ht

/-! ### Numbered events -/

/-- The lines of an event with its number in an `id:` line. -/
theorem numberedEvent_eq (seq : ℤ) (payload : Json) :
    encodeUtf8 ("id: ".toList ++ Json.dumpsInt seq ++ "\ndata: ".toList ++ Json.dumps payload ++
        "\n\n".toList) =
      textLine ("id: ".toList ++ Json.dumpsInt seq) ++
        (textLine (dataLine (Json.dumps payload)) ++ textLine []) := by
  have h1 : "\ndata: ".toList = ['\n'] ++ ['d', 'a', 't', 'a', ':', ' '] := rfl
  have h2 : "\n\n".toList = ['\n'] ++ ['\n'] := rfl
  have h3 : encodeUtf8 ['\n'] = [newline] := rfl
  have h4 : encodeUtf8 [] = [] := rfl
  simp only [dataLine_eq, textLine, h1, h2, h3, h4, encodeUtf8_append, List.append_assoc,
    List.nil_append]

theorem idLine_spec (seq : ℤ) :
    newline ∉ encodeUtf8 ("id: ".toList ++ Json.dumpsInt seq) ∧ Json.dumpsInt seq ≠ [] := by
  refine ⟨newline_not_mem_encode_append (by decide)
    (newline_not_mem_printable (Json.printable_dumpsInt seq)), ?_⟩
  obtain ⟨c, t, ht, -⟩ := (Json.opens_dumpsInt seq).1
  rw [ht]
  exact List.cons_ne_nil c t

theorem newline_not_mem_dataLine {j : Json} (hplain : j.Plain) :
    newline ∉ encodeUtf8 (dataLine (Json.dumps j)) :=
  newline_not_mem_encode_append (by decide) (newline_not_mem_printable (Json.printable_dumps _ hplain))

theorem contentLines_numberedEvent (seq : ℤ) {payload : Json} (hplain : payload.Plain) (bs : Bytes) :
    contentLines (encodeUtf8 ("id: ".toList ++ Json.dumpsInt seq ++ "\ndata: ".toList ++
        Json.dumps payload ++ "\n\n".toList) ++ bs) =
      [textLine ("id: ".toList ++ Json.dumpsInt seq), textLine (dataLine (Json.dumps payload)),
        textLine []] ++ contentLines bs := by
  rw [numberedEvent_eq, List.append_assoc, List.append_assoc, contentLines_textLine (idLine_spec seq).1,
    contentLines_textLine (newline_not_mem_dataLine hplain), contentLines_textLine (by simp [encodeUtf8])]
  rfl

/-- The lines of a numbered event, for the parser: the id, the chunk, nothing. -/
theorem readLines_numberedEvent (seq : ℤ) {seq' : ℤ} {fields : List (List Char × Json)}
    {token : PyStr} (hplain : (Json.obj fields).Plain)
    (hparse : ∀ currentSeq, parsePayload (Json.dumps (.obj fields)) currentSeq = some (token, seq'))
    (rid : String) (bs : Bytes) (currentSeq : ℤ) :
    ∃ raw, readLines rid (contentLines (encodeUtf8 ("id: ".toList ++ Json.dumpsInt seq ++
        "\ndata: ".toList ++ Json.dumps (.obj fields) ++ "\n\n".toList) ++ bs)) currentSeq =
      ⟨⟨rid, seq', token, 0, false, raw⟩ :: (readLines rid (contentLines bs) (seq' + 1)).chunks,
        (readLines rid (contentLines bs) (seq' + 1)).ending⟩ := by
  obtain ⟨curSeq, hseq⟩ := readLine_id (Json.trimmed_dumpsInt seq) (idLine_spec seq).2 rid currentSeq
  have hpay : Json.dumps (.obj fields) ≠ [] ∧ Json.dumps (.obj fields) ≠ "[DONE]".toList := by
    rw [Json.dumps]
    exact ⟨by simp, by simp⟩
  have hread := readLine_data (Json.trimmed_dumps_obj fields) hpay.1 rid curSeq
  rw [if_neg hpay.2] at hread
  simp only [hparse] at hread
  refine ⟨textLine (dataLine (Json.dumps (.obj fields))), ?_⟩
  rw [contentLines_numberedEvent seq hplain, List.cons_append, readLines, hseq]
  simp only
  rw [List.cons_append, readLines, hread]
  simp only
  rw [List.cons_append, List.nil_append, readLines, readLine_blank]

/-! ### Plain events -/

/-- The payload of an event with a token and neither number nor extra newline,
as OpenAI-compatible engines send it. -/
structure PlainEvent (payload : List Char) (token : PyStr) : Prop where
  oneLine : newline ∉ encodeUtf8 payload
  trimmed : Trimmed payload
  content : ∃ data choice choices delta, Json.loads payload = some (.obj data) ∧
    Json.field? data "seq".toList = none ∧
    Json.field? data "choices".toList = some (.arr (.obj choice :: choices)) ∧
    Json.field? choice "delta".toList = some (.obj delta) ∧
    Json.field? delta "content".toList = some (.str token)

theorem PlainEvent.parsePayload {payload : List Char} {token : PyStr} (h : PlainEvent payload token)
    (seq : ℤ) : parsePayload payload seq = some (token, seq) := by
  obtain ⟨data, choice, choices, delta, hl, hs, hc, hd, ht⟩ := h.content
  simp only [Sgm.parsePayload, hl, hs, hc, hd, ht, Json.toInt, Option.bind_eq_bind, Option.bind_some,
    Option.getD_some, Option.getD_none]

theorem loads_done : Json.loads "[DONE]".toList = none := by decide

theorem PlainEvent.ne_done {payload : List Char} {token : PyStr} (h : PlainEvent payload token) :
    payload ≠ [] ∧ payload ≠ "[DONE]".toList := by
  obtain ⟨data, _, _, _, hl, -⟩ := h.content
  constructor
  · rintro rfl
    cases hl
  · rintro rfl
    rw [loads_done] at hl
    cases hl

/-- A plain event of any token. -/
def plainPayload (token : PyStr) : List Char :=
  Json.dumps (.obj [("choices".toList, .arr [.obj [("delta".toList,
    .obj [("content".toList, .str token)])]])])

theorem plainEvent_plainPayload {token : PyStr} (h : token.Unpaired) :
    PlainEvent (plainPayload token) token := by
  have hplain : Json.Plain (.obj [("choices".toList, .arr [.obj [("delta".toList,
      .obj [("content".toList, .str token)])]])]) := by
    simp [Json.Plain, Json.PlainFields, Json.PlainItems, h]
  exact ⟨newline_not_mem_printable (Json.printable_dumps _ hplain), Json.trimmed_dumps_obj _,
    _, _, _, _, Json.loads_dumps hplain, rfl, rfl, rfl, rfl⟩

/-- The lines of a stream of plain events, each closed by a blank line. -/
def plainLines (payloads : List (List Char)) : List Bytes :=
  payloads.flatMap fun payload => [textLine (dataLine payload), textLine []]

theorem contentLines_plain {payloads : List (List Char)} {tokens : List PyStr}
    (h : List.Forall₂ PlainEvent payloads tokens) (tail : Bytes) :
    contentLines ((plainLines payloads).flatten ++ tail) = plainLines payloads ++ contentLines tail := by
  induction h with
  | nil => rfl
  | @cons payload token payloads tokens hev _ ih =>
    have hline : newline ∉ encodeUtf8 (dataLine payload) :=
      newline_not_mem_encode_append (by decide) hev.oneLine
    have hsplit : plainLines (payload :: payloads) =
        textLine (dataLine payload) :: textLine [] :: plainLines payloads := rfl
    rw [hsplit, List.flatten_cons, List.flatten_cons, List.append_assoc, List.append_assoc,
      contentLines_textLine hline, contentLines_textLine (by simp [encodeUtf8]), ih]
    rfl

/-- The chunks of plain events: whatever the request asked for, they are
numbered from the counter on. -/
theorem readLines_plain (rid : String) (tail : List Bytes) :
    ∀ (payloads : List (List Char)) (tokens : List PyStr) (seq : ℤ),
    List.Forall₂ PlainEvent payloads tokens →
    ∃ chunks seq', (readLines rid (plainLines payloads ++ tail) seq) =
        ⟨chunks ++ (readLines rid tail seq').chunks, (readLines rid tail seq').ending⟩ ∧
      InOrder.Numbered TokenChunk.sequenceId seq chunks ∧ chunks.map TokenChunk.token = tokens := by
  intro payloads tokens seq h
  induction h generalizing seq with
  | nil => exact ⟨[], seq, rfl, trivial, rfl⟩
  | @cons payload token payloads tokens hev _ ih =>
    obtain ⟨chunks, seq', hread, hnum, htok⟩ := ih (seq + 1)
    have hsplit : plainLines (payload :: payloads) ++ tail =
        textLine (dataLine payload) :: textLine [] :: (plainLines payloads ++ tail) := rfl
    have hdata := readLine_data hev.trimmed hev.ne_done.1 rid seq
    rw [if_neg hev.ne_done.2, hev.parsePayload] at hdata
    refine ⟨⟨rid, seq, token, 0, false, textLine (dataLine payload)⟩ :: chunks, seq', ?_, ⟨rfl, hnum⟩,
      by rw [List.map_cons, htok]⟩
    rw [hsplit, readLines, hdata]
    simp only
    rw [readLines, readLine_blank]
    simp only
    rw [hread, List.cons_append]

end Sgm
