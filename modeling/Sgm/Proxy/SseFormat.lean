/-
# The proxy's event stream on the wire

`_format_sse_chunk` of `proxy/upstream.py`, and the bytes of the other items
that `stream_with_handover` yields. A proxy that reads this stream from another
proxy parses it as it would an engine's: each chunk is an event with its
number, which the parser takes from the payload, comments and blank lines are
skipped, and the end of stream signal ends the reading. What a token holds does
not matter, since it is escaped in one line of ASCII; only two surrogates that
make up a character are read as this character (`joinedChunk`).

Key definitions: `formatSseChunk`, `SseItem.bytes`, `encodeItems`.
Key theorems: `encodeItems_isSome`, `readLines_encodeItems`, `sseChunkGenerator_encodeItems`.
-/
import Sgm.Proxy.Moves
import Sgm.Proxy.Sse

namespace Sgm

open Text

/-- The payload of a chunk's event. -/
def chunkPayload (chunk : TokenChunk) : Json :=
  .obj [
    ("id".toList, .text ("chatcmpl-".toList ++ chunk.requestId.toList)),
    ("object".toList, .text "chat.completion.chunk".toList),
    ("choices".toList, .arr [.obj [
      ("index".toList, .int 0),
      ("delta".toList, .obj [("content".toList, .str chunk.token)]),
      ("finish_reason".toList, if chunk.isFinal then .text "stop".toList else .null)]]),
    ("seq".toList, .int chunk.sequenceId)]

/-- Formats a chunk as an event. `none` where the number has more digits than
Python converts to text, which raises. -/
def formatSseChunk (chunk : TokenChunk) : Option Bytes :=
  if Json.Short chunk.sequenceId then
    some (encodeUtf8 ("id: ".toList ++ Json.dumpsInt chunk.sequenceId ++ "\ndata: ".toList ++
      Json.dumps (chunkPayload chunk) ++ "\n\n".toList))
  else none

/-- What is yielded for an item. -/
def SseItem.bytes : SseItem → Option Bytes
  | .data chunk => formatSseChunk chunk
  | .keepAlive => some (encodeUtf8 ": keep-alive\n\n".toList)
  | .done => some (encodeUtf8 "data: [DONE]\n\n".toList)

/-- What is yielded for the items, put together. -/
def encodeItems (items : List SseItem) : Option Bytes := (items.mapM SseItem.bytes).map List.flatten

theorem encodeItems_nil : encodeItems [] = some [] := rfl

theorem encodeItems_cons (item : SseItem) (items : List SseItem) :
    encodeItems (item :: items) =
      item.bytes.bind fun b => (encodeItems items).map fun bs => b ++ bs := by
  rw [encodeItems, List.mapM_cons]
  rcases item.bytes with _ | b
  · rfl
  · rcases h : items.mapM SseItem.bytes with _ | bs
    · simp [encodeItems, h]
    · simp [encodeItems, h]

theorem encodeItems_cons_eq_some {item : SseItem} {items : List SseItem} {bytes : Bytes} :
    encodeItems (item :: items) = some bytes ↔
      ∃ b bs, item.bytes = some b ∧ encodeItems items = some bs ∧ bytes = b ++ bs := by
  rw [encodeItems_cons]
  constructor
  · intro h
    obtain ⟨b, hb, h⟩ := Option.bind_eq_some_iff.mp h
    obtain ⟨bs, hbs, rfl⟩ := Option.map_eq_some_iff.mp h
    exact ⟨b, bs, hb, hbs, rfl⟩
  · rintro ⟨b, bs, hb, hbs, rfl⟩
    rw [hb, hbs]
    rfl

/-- Formatting fails for numbers that cannot be written, and for nothing else:
no token is too strange. -/
theorem encodeItems_isSome (items : List SseItem) :
    (encodeItems items).isSome ↔
      ∀ chunk ∈ SseItem.chunks items, Json.Short chunk.sequenceId := by
  induction items with
  | nil => simp [encodeItems_nil]
  | cons item items ih =>
    rw [encodeItems_cons]
    rcases item with chunk | _ | _
    · have hitem : (SseItem.data chunk).bytes = formatSseChunk chunk := rfl
      rw [hitem, SseItem.chunks_data, List.forall_mem_cons, ← ih, formatSseChunk]
      split
      · rename_i h
        simp [h]
      · rename_i h
        simp [h]
    · rw [SseItem.chunks_keepAlive, ← ih]
      simp [SseItem.bytes]
    · rw [SseItem.chunks_done, ← ih]
      simp [SseItem.bytes]

/-! ### What the next proxy reads -/

/-- A chunk with the pairs of surrogates in its token joined, as it is read. -/
def joinedChunk (chunk : TokenChunk) : TokenChunk := { chunk with token := chunk.token.join }

theorem plain_joinedChunk {chunk : TokenChunk} (h : Json.Short chunk.sequenceId) :
    (chunkPayload (joinedChunk chunk)).Plain := by
  have h0 : Json.Short 0 := Json.short_of_lt le_rfl (by decide)
  have ht := PyStr.unpaired_join chunk.token
  rcases hf : chunk.isFinal with _ | _
  · simp [chunkPayload, joinedChunk, hf, Json.Plain, Json.PlainFields, Json.PlainItems, h, h0, ht,
      PyStr.unpaired_ofText]
  · simp [chunkPayload, joinedChunk, hf, Json.Plain, Json.PlainFields, Json.PlainItems, h, h0, ht,
      PyStr.unpaired_ofText]

/-- The two are written alike. -/
theorem formatSseChunk_joinedChunk (chunk : TokenChunk) :
    formatSseChunk (joinedChunk chunk) = formatSseChunk chunk := by
  have hdumps : Json.dumps (chunkPayload (joinedChunk chunk)) = Json.dumps (chunkPayload chunk) := by
    cases hf : chunk.isFinal <;>
      simp only [chunkPayload, joinedChunk, hf, Json.dumps, Json.dumpsItems, Json.dumpsFields,
        Json.dumpsStr_join]
  rw [formatSseChunk, hdumps]
  rfl

theorem parsePayload_joinedChunk {chunk : TokenChunk} (h : Json.Short chunk.sequenceId)
    (currentSeq : ℤ) :
    parsePayload (Json.dumps (chunkPayload (joinedChunk chunk))) currentSeq =
      some (chunk.token.join, chunk.sequenceId) := by
  rw [parsePayload, Json.loads_dumps (plain_joinedChunk h)]
  rfl

/-- The event of a chunk gives its number and its token. -/
theorem readLines_formatSseChunk {chunk : TokenChunk} {b : Bytes} (h : formatSseChunk chunk = some b)
    (rid : String) (bs : Bytes) (currentSeq : ℤ) :
    ∃ raw, readLines rid (contentLines (b ++ bs)) currentSeq =
      ⟨⟨rid, chunk.sequenceId, chunk.token.join, 0, false, raw⟩ ::
          (readLines rid (contentLines bs) (chunk.sequenceId + 1)).chunks,
        (readLines rid (contentLines bs) (chunk.sequenceId + 1)).ending⟩ := by
  rw [← formatSseChunk_joinedChunk, formatSseChunk] at h
  split at h
  · rename_i hshort
    obtain rfl := Option.some.inj h
    exact readLines_numberedEvent chunk.sequenceId (@plain_joinedChunk chunk hshort)
      (@parsePayload_joinedChunk chunk hshort) rid bs currentSeq
  · cases h

/-- A comment is skipped, with the blank line after it. -/
theorem readLines_keepAlive (rid : String) (bs : Bytes) (currentSeq : ℤ) :
    readLines rid (contentLines (encodeUtf8 ": keep-alive\n\n".toList ++ bs)) currentSeq =
      readLines rid (contentLines bs) currentSeq := by
  have hlines : encodeUtf8 ": keep-alive\n\n".toList =
      textLine ": keep-alive".toList ++ textLine [] := by decide +kernel
  have htrim : Trimmed ": keep-alive".toList :=
    @trimmed_append ':' " keep-aliv".toList ['e'] (by decide) ⟨by simp; decide, by simp; decide⟩
      (by simp)
  have hcomment : readLine rid (textLine ": keep-alive".toList) currentSeq = .next currentSeq := by
    rw [readLine_textLine htrim, if_neg (by decide), if_neg (by decide), if_neg (by decide)]
  rw [hlines, List.append_assoc, contentLines_textLine (by decide +kernel),
    contentLines_textLine (by simp [encodeUtf8]), readLines, hcomment]
  show readLines rid (textLine [] :: contentLines bs) currentSeq = _
  rw [readLines, readLine_blank]

theorem readLines_done (rid : String) (bs : Bytes) (currentSeq : ℤ) :
    readLines rid (contentLines (encodeUtf8 "data: [DONE]\n\n".toList ++ bs)) currentSeq =
      ⟨[], .done⟩ := by
  have hlines : encodeUtf8 "data: [DONE]\n\n".toList =
      textLine (dataLine "[DONE]".toList) ++ textLine [] := by decide +kernel
  rw [hlines, List.append_assoc, contentLines_textLine (by decide +kernel), readLines, readLine_done]

/-- The items before the end of stream signal, and nothing after it. -/
theorem readLines_encodeItems (rid : String) (rest : Bytes) :
    ∀ {items : List SseItem} {bytes : Bytes} (currentSeq : ℤ), SseItem.done ∉ items →
      encodeItems (items ++ [.done]) = some bytes →
      ∃ chunks, readLines rid (contentLines (bytes ++ rest)) currentSeq = ⟨chunks, .done⟩ ∧
        chunks.map (fun c => (c.sequenceId, c.token)) =
          (SseItem.chunks items).map fun c => (c.sequenceId, c.token.join)
  | [], bytes, currentSeq, _, h => by
    obtain ⟨b, bs, hb, hbs, rfl⟩ := encodeItems_cons_eq_some.mp h
    obtain rfl := Option.some.inj hb
    refine ⟨[], ?_, rfl⟩
    rw [List.append_assoc, readLines_done]
  | item :: items, bytes, currentSeq, hdone, h => by
    obtain ⟨b, bs, hb, hbs, rfl⟩ := encodeItems_cons_eq_some.mp h
    have hrest : SseItem.done ∉ items := fun hm => hdone (List.mem_cons_of_mem _ hm)
    rw [List.append_assoc]
    rcases item with chunk | _ | _
    · obtain ⟨chunks, hread, hmap⟩ :=
        readLines_encodeItems rid rest (chunk.sequenceId + 1) hrest hbs
      obtain ⟨raw, hevent⟩ := readLines_formatSseChunk hb rid (bs ++ rest) currentSeq
      refine ⟨⟨rid, chunk.sequenceId, chunk.token.join, 0, false, raw⟩ :: chunks, ?_, ?_⟩
      · rw [hevent, hread]
      · rw [SseItem.chunks_data, List.map_cons, List.map_cons, hmap]
    · obtain rfl := Option.some.inj hb
      rw [readLines_keepAlive]
      obtain ⟨chunks, hread, hmap⟩ := readLines_encodeItems rid rest currentSeq hrest hbs
      exact ⟨chunks, hread, hmap⟩
    · exact absurd List.mem_cons_self hdone

/-- **The parser undoes the encoder.** Of the bytes of any chunks and comments
and the end of stream signal a proxy reads the numbers and tokens of the
chunks in order, and then stops, whatever follows. The lines must be within the
limit of the reader, and the tokens strings that `json.loads` makes of what
`json.dumps` writes. -/
theorem sseChunkGenerator_encodeItems {reader : LineReader} {limit : ℕ} (hreader : reader.HandsOut limit)
    {items : List SseItem} {bytes : Bytes} (hdone : SseItem.done ∉ items)
    (hjson : ∀ chunk ∈ SseItem.chunks items,
      Json.loads (Json.dumps (.str chunk.token)) = some (.str chunk.token))
    (h : encodeItems (items ++ [.done]) = some bytes) {rest : Bytes}
    (hfit : ∀ l ∈ contentLines (bytes ++ rest), l.length ≤ limit)
    {post : String → Json → Reply} {url : String} {body : Json}
    (hpost : post url body = reader.reply ⟨200, bytes ++ rest⟩) (rid : String) :
    ∃ chunks, sseChunkGenerator post url body rid = ⟨chunks, .done⟩ ∧
      chunks.map (fun c => (c.sequenceId, c.token)) =
        (SseItem.chunks items).map fun c => (c.sequenceId, c.token) := by
  obtain ⟨chunks, hread, hmap⟩ := readLines_encodeItems rid rest 0 hdone h
  have hjoin : (SseItem.chunks items).map (fun c => (c.sequenceId, c.token.join)) =
      (SseItem.chunks items).map fun c => (c.sequenceId, c.token) :=
    List.map_congr_left fun chunk hc => by
      rw [PyStr.join_of_unpaired (Json.loads_dumps_str_iff.mp (hjson chunk hc))]
  refine ⟨chunks, ?_, hmap.trans hjoin⟩
  rw [sseChunkGenerator, hpost, hreader.reply_eq hfit]
  exact hread

/-- A token of the very texts that the parser looks for, and one that is a
surrogate. -/
theorem sseChunkGenerator_encodeItems_texts :
    ∃ bytes chunks, encodeItems [.keepAlive, .data ⟨"r", 7, "\n\ndata: [DONE]\nid: 3", 0, true, []⟩,
        .data ⟨"r", 8, [.surrogate 5], 0, true, []⟩, .done] = some bytes ∧
      sseChunkGenerator (fun _ _ => (LineReader.bounded LineReader.usualLimit).reply ⟨200, bytes⟩) "" .null "q" =
        ⟨chunks, .done⟩ ∧
      chunks.map (fun c => (c.sequenceId, c.token)) =
        [(7, PyStr.ofString "\n\ndata: [DONE]\nid: 3"), (8, [.surrogate 5])] := by
  let items : List SseItem := [.keepAlive, .data ⟨"r", 7, "\n\ndata: [DONE]\nid: 3", 0, true, []⟩,
    .data ⟨"r", 8, [.surrogate 5], 0, true, []⟩]
  obtain ⟨bytes, hbytes⟩ : ∃ bytes, encodeItems (items ++ [.done]) = some bytes :=
    Option.isSome_iff_exists.mp (by decide +kernel)
  have hlen : bytes.length ≤ LineReader.usualLimit := by
    have hle : ∀ b ∈ encodeItems (items ++ [.done]), b.length ≤ LineReader.usualLimit := by decide +kernel
    exact hle bytes hbytes
  have hdone : SseItem.done ∉ items := by simp [items]
  have hjson : ∀ chunk ∈ SseItem.chunks items,
      Json.loads (Json.dumps (.str chunk.token)) = some (.str chunk.token) := by
    intro chunk hc
    rw [Json.loads_dumps_str_iff]
    revert chunk
    decide +kernel
  have hfit : ∀ l ∈ contentLines (bytes ++ []), l.length ≤ LineReader.usualLimit := by
    intro l hl
    rw [List.append_nil] at hl
    exact (length_le_of_mem_contentLines hl).trans hlen
  let post : String → Json → Reply := fun _ _ => (LineReader.bounded LineReader.usualLimit).reply ⟨200, bytes⟩
  have hpost : post "" .null = (LineReader.bounded LineReader.usualLimit).reply ⟨200, bytes ++ []⟩ := by
    rw [List.append_nil]
  obtain ⟨chunks, hread, hmap⟩ := sseChunkGenerator_encodeItems (LineReader.handsOut_bounded LineReader.usualLimit)
    hdone hjson hbytes hfit hpost "q"
  exact ⟨bytes, chunks, hbytes, hread, hmap⟩

end Sgm
