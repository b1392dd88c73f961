/-
# Characters that are cut across lines

A tokenizer may split a character of several bytes over two tokens or more, and
TGI sends each token as the `text` field of one line. `stream_resumed` decodes
every line by itself, with replacement characters for what is broken, and does
not use the incremental decoder that it makes. So the text of a stream survives
exactly if no character is cut (`multibyte_iff`).

Key definitions: `NativeFrame`, `nativeBody`, `nativeLines`, `Sendable`.
Key theorems: `NativeFrame.parseLine_line`, `tokenText_chunks`, `multibyte_lines_iff`,
`multibyte_iff`.
-/
import Sgm.Integrations.Streaming

namespace Sgm

open Text Occurrence

/-! ### Native lines -/

/-- What stands around the text of a token in a native line. Around any text
without escapes it is a token that is neither special nor the last. -/
structure NativeFrame where
  before : List Char
  behind : List Char
  before_line : '\n' ∉ before
  behind_line : '\n' ∉ behind
  opens : ∃ c t, before = c :: t ∧ isSpace c = false
  closes : ∃ t c, behind = '"' :: (t ++ [c]) ∧ isSpace c = false
  parsed : ∀ w, Json.Raw w → ∃ data, Json.loads (before ++ (w ++ behind)) = some (.obj data) ∧
    TGIEngineHook.parseNative data = .text (.text w) false

namespace NativeFrame

variable (frame : NativeFrame)

/-- The line that carries some bytes as the text. -/
def line (piece : Bytes) : Bytes :=
  encodeUtf8 ("data:".toList ++ frame.before) ++ (piece ++ (encodeUtf8 frame.behind ++ [newline]))

/-- The event with this line. -/
def event (piece : Bytes) : Bytes := frame.line piece ++ [newline]

theorem newline_not_mem_encode {w : List Char} (h : '\n' ∉ w) : newline ∉ encodeUtf8 w :=
  fun hmem => h (Utf8.mem_encode_ascii (b := newline) (by decide) hmem)

theorem contentLines_event {piece : Bytes} (hp : newline ∉ piece) (rest : Bytes) :
    contentLines (frame.event piece ++ rest) = frame.line piece :: [newline] :: contentLines rest := by
  have hline : newline ∉ encodeUtf8 ("data:".toList ++ frame.before) ++ (piece ++ encodeUtf8 frame.behind) := by
    have hbefore : newline ∉ encodeUtf8 ("data:".toList ++ frame.before) := by
      apply newline_not_mem_encode_append (by decide)
      exact newline_not_mem_encode frame.before_line
    intro hmem
    rcases List.mem_append.mp hmem with hmem | hmem
    · exact hbefore hmem
    · rcases List.mem_append.mp hmem with hmem | hmem
      · exact hp hmem
      · exact newline_not_mem_encode frame.behind_line hmem
  have hsplit : frame.event piece ++ rest = (encodeUtf8 ("data:".toList ++ frame.before) ++
      (piece ++ encodeUtf8 frame.behind)) ++ newline :: ([] ++ newline :: rest) := by
    simp only [event, line, List.append_assoc]
    rfl
  rw [hsplit, contentLines_line hline, contentLines_line (by simp)]
  simp only [line, List.append_assoc, List.nil_append]

/-- The text of a line: what is broken in the piece is replaced, and nothing
around it. -/
theorem decodeReplace_line (piece : Bytes) : Utf8.decodeReplace (frame.line piece) =
    "data:".toList ++ (frame.before ++ (Utf8.decodeReplace piece ++ frame.behind)) ++ ['\n'] := by
  have hhead : ∀ b ∈ (encodeUtf8 frame.behind ++ [newline]).head?, ¬ Utf8.Continuation b := by
    obtain ⟨t, c, hbehind, -⟩ := frame.closes
    intro b hb
    rw [hbehind] at hb
    obtain rfl : (34 : UInt8) = b := Option.some.inj hb
    unfold Utf8.Continuation
    decide
  have hend : Utf8.decodeReplace [newline] = ['\n'] := rfl
  rw [line, Utf8.decodeReplace_encode_append, Utf8.decodeReplace_append hhead,
    Utf8.decodeReplace_encode_append, hend]
  simp only [List.append_assoc]

theorem trimmed_payload (w : List Char) : Trimmed (frame.before ++ (w ++ frame.behind)) := by
  obtain ⟨c, t, hbefore, hc⟩ := frame.opens
  obtain ⟨t', c', hbehind, hc'⟩ := frame.closes
  constructor
  · intro d hd
    rw [hbefore] at hd
    obtain rfl : c = d := Option.some.inj hd
    exact hc
  · intro d hd
    rw [hbehind, show frame.before ++ (w ++ '"' :: (t' ++ [c'])) =
      (frame.before ++ (w ++ '"' :: t')) ++ [c'] by simp, List.getLast?_concat] at hd
    obtain rfl : c' = d := Option.some.inj hd
    exact hc'

theorem payload_ne_nil (w : List Char) : frame.before ++ (w ++ frame.behind) ≠ [] := by
  obtain ⟨c, t, hbefore, -⟩ := frame.opens
  rw [hbefore]
  exact List.cons_ne_nil c _

/-- What the hook makes of a line. -/
theorem parseLine_line (requestId : String) (s : TGIEngineHook.StreamState) {piece : Bytes}
    (hraw : Json.Raw (Utf8.decodeReplace piece)) :
    TGIEngineHook.parseLine false requestId s (frame.line piece) =
      (⟨s.nextSeq + (s.stopFilter.feed (.ofText (Utf8.decodeReplace piece))).2.length,
          (s.stopFilter.feed (.ofText (Utf8.decodeReplace piece))).1⟩,
        numberTokens requestId false (frame.line piece) s.nextSeq
          (s.stopFilter.feed (.ofText (Utf8.decodeReplace piece))).2,
        if (s.stopFilter.feed (.ofText (Utf8.decodeReplace piece))).1.matchedStop then .stop else .next) := by
  obtain ⟨payload, hpayload⟩ : ∃ payload,
      frame.before ++ (Utf8.decodeReplace piece ++ frame.behind) = payload := ⟨_, rfl⟩
  obtain ⟨data, hloads, hnative⟩ := frame.parsed _ hraw
  have htrim : Trimmed payload := hpayload ▸ frame.trimmed_payload _
  have hne : payload ≠ [] := hpayload ▸ frame.payload_ne_nil _
  rw [hpayload] at hloads
  have hline : strip (Utf8.decodeReplace (frame.line piece)) = "data:".toList ++ payload := by
    have hdata : Trimmed ("data:".toList ++ payload) := @trimmed_append 'd' "ata:".toList _ (by decide) htrim hne
    rw [frame.decodeReplace_line, hpayload]
    exact strip_line hdata
  have hdataStr : strip (("data:".toList ++ payload).drop 5) = payload := strip_of_trimmed htrim
  have hdone : payload ≠ "[DONE]".toList := by
    rintro rfl
    rw [loads_done] at hloads
    cases hloads
  have hfeed : TGIEngineHook.feed s.stopFilter (.text (Utf8.decodeReplace piece)) =
      some (s.stopFilter.feed (.ofText (Utf8.decodeReplace piece))) := by
    unfold TGIEngineHook.feed
    split
    · rename_i hmatched
      rw [SlidingWindowStopFilter.feed_matched hmatched]
    · rfl
  unfold TGIEngineHook.parseLine
  dsimp only
  rw [hline, if_neg (by simp), if_pos (by simp), hdataStr, TGIEngineHook.parseData, if_neg hdone, hloads]
  simp only [Bool.false_eq_true, if_false, hnative, TGIEngineHook.parseFields, hfeed, false_or]

theorem parseLine_blank (requestId : String) (s : TGIEngineHook.StreamState) :
    TGIEngineHook.parseLine false requestId s [newline] = (s, [], .next) := by
  have hblank : strip (Utf8.decodeReplace [newline]) = [] := rfl
  unfold TGIEngineHook.parseLine
  dsimp only
  rw [hblank, if_pos (Or.inl rfl)]

end NativeFrame

/-! ### The frame of a token -/

/-- The fields of a token with an id and a text. -/
def tokenFields (id : ℤ) (w : List Char) : List (List Char × Json) :=
  [("token".toList, .obj [("id".toList, .int id), ("text".toList, .text w), ("special".toList, .bool false)])]

def tokenBefore (id : ℤ) : List Char :=
  '{' :: '"' :: ("token".toList ++ '"' :: ':' :: '{' :: '"' :: ("id".toList ++ '"' :: ':' ::
    (Json.dumpsInt id ++ ',' :: '"' :: ("text".toList ++ ['"', ':', '"']))))

def tokenBehind : List Char :=
  '"' :: ',' :: '"' :: ("special".toList ++ '"' :: ':' :: (Json.falseText ++ ['}', '}']))

theorem loads_token {id : ℤ} (hid : Json.Short id) {w : List Char} (hw : Json.Raw w) :
    Json.loads (tokenBefore id ++ (w ++ tokenBehind)) = some (.obj (tokenFields id w)) := by
  have hkey : Json.Raw "token".toList ∧ Json.Raw "id".toList ∧ Json.Raw "text".toList ∧
      Json.Raw "special".toList := by
    simp [Json.Raw]
  obtain ⟨n, hn⟩ : ∃ n, (tokenBefore id ++ (w ++ tokenBehind)).length + 1 = n + 7 := by
    refine ⟨(tokenBefore id ++ (w ++ tokenBehind)).length - 6, ?_⟩
    simp only [tokenBefore, List.length_append, List.length_cons]
    omega
  -- from the innermost field outwards
  have hspecial : Json.scanFields (n + 2) ('"' :: ("special".toList ++ '"' :: ':' ::
      (Json.falseText ++ ['}', '}']))) = some ([("special".toList, .bool false)], ['}']) :=
    Json.scanFields_last hkey.2.2.2 (@Json.scanOnce_keyword n ['}', '}']).2.2
  have htext : Json.scanFields (n + 3) ('"' :: ("text".toList ++ '"' :: ':' :: '"' ::
      (w ++ tokenBehind))) = some ([("text".toList, .text w), ("special".toList, .bool false)], ['}']) := by
    rw [Json.scanFields_more hkey.2.2.1 (@Json.scanOnce_raw (n + 1) w hw _)]
    rw [show Json.skipWs ('"' :: ("special".toList ++ '"' :: ':' :: (Json.falseText ++ ['}', '}']))) =
      '"' :: ("special".toList ++ '"' :: ':' :: (Json.falseText ++ ['}', '}'])) from rfl, hspecial]
    rfl
  have hint : Json.scanOnce (n + 3) (Json.skipWs (Json.dumpsInt id ++ ',' :: '"' :: ("text".toList ++
      '"' :: ':' :: '"' :: (w ++ tokenBehind)))) =
      some (.int id, ',' :: '"' :: ("text".toList ++ '"' :: ':' :: '"' :: (w ++ tokenBehind))) := by
    rw [((Json.opens_dumpsInt id).1.append _).skipWs, Json.scanOnce_atom ((Json.opens_dumpsInt id).2 _)]
    exact Json.scanAtom_dumpsInt (Json.boundary_of_punctuation (by simp) _) hid.length_le
  have hfields : Json.scanFields (n + 4) ('"' :: ("id".toList ++ '"' :: ':' :: (Json.dumpsInt id ++
      ',' :: '"' :: ("text".toList ++ '"' :: ':' :: '"' :: (w ++ tokenBehind))))) =
      some ([("id".toList, .int id), ("text".toList, .text w), ("special".toList, .bool false)], ['}']) := by
    rw [Json.scanFields_more hkey.2.1 hint]
    rw [show Json.skipWs ('"' :: ("text".toList ++ '"' :: ':' :: '"' :: (w ++ tokenBehind))) =
      '"' :: ("text".toList ++ '"' :: ':' :: '"' :: (w ++ tokenBehind)) from rfl, htext]
    rfl
  have htoken : Json.scanOnce (n + 5) ('{' :: '"' :: ("id".toList ++ '"' :: ':' :: (Json.dumpsInt id ++
      ',' :: '"' :: ("text".toList ++ '"' :: ':' :: '"' :: (w ++ tokenBehind))))) =
      some (.obj [("id".toList, .int id), ("text".toList, .text w), ("special".toList, .bool false)],
        ['}']) := by
    rw [Json.scanOnce_obj rfl, hfields]
    rfl
  have hsplit : tokenBefore id ++ (w ++ tokenBehind) = '{' :: '"' :: ("token".toList ++ '"' :: ':' ::
      '{' :: '"' :: ("id".toList ++ '"' :: ':' :: (Json.dumpsInt id ++ ',' :: '"' :: ("text".toList ++
        '"' :: ':' :: '"' :: (w ++ tokenBehind))))) := by
    simp only [tokenBefore, List.cons_append, List.append_assoc, List.nil_append]
  rw [Json.loads, hn, hsplit]
  rw [show ∀ l, Json.skipWs ('{' :: l) = '{' :: l from fun _ => rfl, Json.scanOnce_obj rfl,
    Json.scanFields_last hkey.1 htoken]
  rfl

/-- A token with an id, as TGI sends it. -/
def tokenFrame (id : ℤ) (hid : Json.Short id) : NativeFrame where
  before := tokenBefore id
  behind := tokenBehind
  before_line := by
    have hdigits : '\n' ∉ Json.dumpsInt id := fun h => absurd (Json.printable_dumpsInt id _ h) (by decide)
    simp [tokenBefore, hdigits]
  behind_line := by decide
  opens := ⟨'{', _, rfl, by decide⟩
  closes := ⟨',' :: '"' :: ("special".toList ++ '"' :: ':' :: (Json.falseText ++ ['}'])), '}', rfl, by decide⟩
  parsed := fun w hw => ⟨tokenFields id w, loads_token hid hw, rfl⟩

/-! ### The stream -/

/-- A body of native events: each a frame and the bytes that it carries. -/
def nativeBody (events : List (NativeFrame × Bytes)) : Bytes :=
  events.flatMap fun event => event.1.event event.2

/-- Its lines, each event closed by a blank one. -/
def nativeLines (events : List (NativeFrame × Bytes)) : List Bytes :=
  events.flatMap fun event => [event.1.line event.2, [newline]]

theorem contentLines_nativeBody {events : List (NativeFrame × Bytes)}
    (hev : ∀ event ∈ events, newline ∉ event.2) : contentLines (nativeBody events) = nativeLines events := by
  induction events with
  | nil => rfl
  | cons event events ih =>
    obtain ⟨hnl, hev⟩ := List.forall_mem_cons.mp hev
    rw [show nativeBody (event :: events) = event.1.event event.2 ++ nativeBody events from rfl,
      event.1.contentLines_event hnl, ih hev]
    rfl

/-- The tokens, one after the other. -/
def tokenText (chunks : List TokenChunk) : PyStr := (chunks.map TokenChunk.token).flatten

theorem tokenText_append (l l' : List TokenChunk) : tokenText (l ++ l') = tokenText l ++ tokenText l' := by
  rw [tokenText, List.map_append, List.flatten_append]
  rfl

theorem tokenText_numberTokens (requestId : String) (isFinal : Bool) (rawBytes : Bytes) (a : ℤ)
    (tokens : List PyStr) :
    tokenText (numberTokens requestId isFinal rawBytes a tokens) = tokens.flatten := by
  induction tokens generalizing a with
  | nil => rfl
  | cons token tokens ih =>
    have htail := ih (a + 1)
    unfold tokenText at htail ⊢
    rw [numberTokens, List.map_cons, List.flatten_cons, htail, List.flatten_cons]

/-- The texts of the lines, as they are fed to the stop filter. -/
def fedTexts (events : List (NativeFrame × Bytes)) : List PyStr :=
  events.map fun event => .ofText (Utf8.decodeReplace event.2)

/-- What the stream yields is what the stop filter emits. -/
theorem tokenText_chunks (requestId : String) {events : List (NativeFrame × Bytes)}
    (hev : ∀ event ∈ events, Json.Raw (Utf8.decodeReplace event.2)) (ending : ReadEnd)
    (s : TGIEngineHook.StreamState)
    (hflush : (s.stopFilter.feeds (fedTexts events)).1.flushFinal.2 = []) :
    tokenText ((TGIEngineHook.parser false requestId).chunks s (nativeLines events) ending) =
      (s.stopFilter.feeds (fedTexts events)).2.flatten := by
  induction events generalizing s with
  | nil =>
    cases ending with
    | error => rfl
    | eof =>
      show tokenText (numberTokens requestId true [] s.nextSeq s.stopFilter.flushFinal.2) = []
      rw [tokenText_numberTokens, show s.stopFilter.flushFinal.2 = [] from hflush]
      rfl
  | cons event events ih =>
    obtain ⟨frame, piece⟩ := event
    obtain ⟨hraw, hev⟩ := List.forall_mem_cons.mp hev
    obtain ⟨fed, hfed⟩ : ∃ fed, s.stopFilter.feed (.ofText (Utf8.decodeReplace piece)) = fed := ⟨_, rfl⟩
    have hline := frame.parseLine_line requestId s hraw
    rw [hfed] at hline
    have hfeeds : s.stopFilter.feeds (fedTexts ((frame, piece) :: events)) =
        ((fed.1.feeds (fedTexts events)).1, fed.2 ++ (fed.1.feeds (fedTexts events)).2) := by
      rw [← hfed]
      rfl
    rw [hfeeds] at hflush ⊢
    rw [show nativeLines ((frame, piece) :: events) = frame.line piece :: [newline] :: nativeLines events
      from rfl]
    by_cases hmatched : fed.1.matchedStop = true
    · -- the loop ends here, and nothing more is let through
      have hclosed := SlidingWindowStopFilter.feeds_matched hmatched (fedTexts events)
      rw [if_pos hmatched] at hline
      have hread : (TGIEngineHook.parser false requestId).read s (frame.line piece) =
          (⟨s.nextSeq + fed.2.length, fed.1⟩,
            numberTokens requestId false (frame.line piece) s.nextSeq fed.2 ++
              numberTokens requestId true [] (s.nextSeq + fed.2.length) fed.1.flushFinal.2, false) :=
        LineParser.read_stop hline
      rw [LineParser.chunks_cons, hread, hclosed]
      simp only [Bool.false_eq_true, if_false, List.append_nil, tokenText_append, tokenText_numberTokens,
        SlidingWindowStopFilter.flushFinal_matched hmatched, List.flatten_nil]
    · rw [if_neg hmatched] at hline
      have hread : (TGIEngineHook.parser false requestId).read s (frame.line piece) =
          (⟨s.nextSeq + fed.2.length, fed.1⟩,
            numberTokens requestId false (frame.line piece) s.nextSeq fed.2, true) :=
        LineParser.read_next hline
      have hblank : ∀ s', (TGIEngineHook.parser false requestId).read s' [newline] =
          (s', [], true) :=
        fun s' => LineParser.read_next (NativeFrame.parseLine_blank requestId s')
      rw [LineParser.chunks_cons, hread, LineParser.chunks_cons, hblank]
      simp only [if_true, List.nil_append, tokenText_append, tokenText_numberTokens, List.flatten_append]
      rw [ih hev ⟨s.nextSeq + fed.2.length, fed.1⟩ hflush]

/-! ### Behind the stop filter -/

/-- Text without escapes that holds no stop sequence, and ends with no
beginning of one. -/
structure Sendable (stops : List PyStr) (t : List Char) : Prop where
  raw : Json.Raw t
  no_stop : ∀ stop ∈ stops, stop ≠ [] → ¬ stop <:+: PyStr.ofText t
  no_begin : ∀ stop ∈ stops, ∀ p, p ≠ [] → p <+: stop → ¬ p <:+ PyStr.ofText t

/-- No stop sequence goes on where the text ends with the character before. -/
theorem Sendable.not_begins {stops : List PyStr} {t : List Char} (h : Sendable stops t) {c : Char}
    (hc : [c] <:+ t) {stop : PyStr} (hstop : stop ∈ stops) (rest : PyStr) :
    ¬ (.char c :: rest <+: stop ∨ stop ≠ [] ∧ stop <+: .char c :: rest) := by
  have hbegin : ¬ [.char c] <+: stop := fun hp =>
    h.no_begin stop hstop [.char c] (by simp) hp (hc.map PyChar.char)
  rintro (hp | ⟨hne, hp⟩)
  · exact hbegin (List.IsPrefix.trans ⟨rest, rfl⟩ hp)
  · obtain ⟨d, stop, rfl⟩ := List.exists_cons_of_ne_nil hne
    obtain ⟨rfl, -⟩ := List.cons_prefix_cons.mp hp
    exact hbegin ⟨stop, rfl⟩

/-- The stop filter hides no damage: what is emitted of a garbled text is the
text only if nothing was garbled. -/
theorem feeds_eq_iff {stops : List PyStr} {t d : List Char} (ht : Sendable stops t)
    {chunks : List PyStr} (hchunks : chunks.flatten = PyStr.ofText d) (hg : Utf8.Garbled t d) :
    ((SlidingWindowStopFilter.new (some stops)).feeds chunks).2.flatten = PyStr.ofText t ↔ d = t := by
  have hmem : ∀ {stop : PyStr}, stop ∈ (stops.filter fun s => s ≠ []) → stop ∈ stops ∧ stop ≠ [] := by
    intro stop hstop
    obtain ⟨h1, h2⟩ := List.mem_filter.mp hstop
    exact ⟨h1, by simpa using h2⟩
  rcases SlidingWindowStopFilter.feeds_cases stops chunks with hopen | hclosed
  · have hwhole := hopen.whole
    rw [hchunks] at hwhole
    constructor
    · intro hout
      rw [hout] at hwhole
      rcases hg.eq_or_more (PyStr.ofText_prefix_iff.mp ⟨_, hwhole⟩) with heq | ⟨hsuf, rest, hrest⟩
      · exact heq
      · -- what is held would be a stop sequence's beginning
        rw [hrest, PyStr.ofText_append, PyStr.ofText_cons] at hwhole
        have hbuf := List.append_cancel_left hwhole
        obtain ⟨stop, hstop, hp⟩ := hopen.held.begins (by simp [hbuf])
        rw [hbuf] at hp
        exact absurd (Or.inl hp) (ht.not_begins hsuf (hmem hstop).1 (.ofText rest))
    · intro heq
      subst heq
      have hbuf : ((SlidingWindowStopFilter.new (some stops)).feeds chunks).1.buffer = [] := by
        by_contra hne
        obtain ⟨stop, hstop, hp⟩ := hopen.held.begins hne
        refine ht.no_begin stop (hmem hstop).1 _ hne hp ?_
        rw [← hchunks]
        exact hopen.held.suffix
      rwa [hbuf, List.append_nil] at hwhole
  · obtain ⟨p, i, hp, hi, hcut⟩ := hclosed.cut
    have hlt := listed?_lt SlidingWindowStopFilter.filter_nonempty hi
    obtain ⟨stop, hstop, hindex⟩ := List.exists_of_findSome?_eq_some hi
    have hat : At stop chunks.flatten i := (index?_eq_some_iff.mp hindex).1.mono hp
    have hle : i ≤ chunks.flatten.length := hlt.le.trans hp.length_le
    rw [hchunks] at hat hle hcut
    constructor
    · intro hout
      rw [hout] at hcut
      rcases hg.eq_or_more (PyStr.ofText_prefix_iff.mp (hcut ▸ List.take_prefix i _)) with
        heq | ⟨hsuf, rest, hrest⟩
      · exact heq
      · -- a stop sequence would begin where the text ends
        have hlen : (PyStr.ofText t).length = i := by
          rw [hcut, List.length_take]
          omega
        rw [At, hrest, PyStr.ofText_append, PyStr.ofText_cons, ← hlen, List.drop_left] at hat
        exact absurd (Or.inr ⟨(hmem hstop).2, hat⟩) (ht.not_begins hsuf (hmem hstop).1 (.ofText rest))
    · intro heq
      rw [heq] at hat
      exact absurd (infix_iff_at.mpr ⟨i, hat⟩) (ht.no_stop stop (hmem hstop).1 (hmem hstop).2)

/-! ### Which texts survive -/

theorem Sendable.pieces {stops : List PyStr} {t : List Char} (ht : Sendable stops t)
    {pieces : List Bytes} (hg : Utf8.Garbled t (pieces.flatMap Utf8.decodeReplace))
    (hflat : pieces.flatten = encodeUtf8 t) :
    ∀ piece ∈ pieces, newline ∉ piece ∧ Json.Raw (Utf8.decodeReplace piece) := by
  intro piece hpiece
  constructor
  · intro hmem
    have hline : newline ∈ encodeUtf8 t := hflat ▸ List.mem_flatten.mpr ⟨piece, hpiece, hmem⟩
    have hchar := ht.raw _ (Utf8.mem_encode_ascii (b := newline) (by decide) hline)
    exact absurd hchar.2.2 (by decide)
  · intro c hc
    rcases hg.mem c (List.mem_flatMap.mpr ⟨piece, hpiece, hc⟩) with hmem | rfl
    · exact ht.raw c hmem
    · decide

/-- Of the lines as they are handed out, whatever ends them: the tokens make up
the text exactly if every piece is the encoding of some text. -/
theorem multibyte_lines_iff (hook : TGIEngineHook) (session : InferenceSession)
    (resumeEndpoint formatType : Option String) (hnative : hook.readsCompat formatType = false)
    (events : List (NativeFrame × Bytes)) (ending : ReadEnd) {t : List Char}
    (ht : Sendable session.stopWords t) (hne : ∀ piece ∈ events.map Prod.snd, piece ≠ [])
    (hflat : (events.map Prod.snd).flatten = encodeUtf8 t) :
    tokenText (hook.streamResumed (fun _ _ _ => .response 200 (nativeLines events) ending)
      session resumeEndpoint formatType) = .ofText t ↔ ∀ piece ∈ events.map Prod.snd, Utf8.Whole piece := by
  have hg := (Utf8.garbled_pieces hne hflat).1
  have hfed : (fedTexts events).flatten = PyStr.ofText ((events.map Prod.snd).flatMap Utf8.decodeReplace) := by
    rw [fedTexts, List.flatMap_def, PyStr.ofText_flatten, List.map_map, List.map_map]
    rfl
  have hev : ∀ event ∈ events, Json.Raw (Utf8.decodeReplace event.2) :=
    fun event hevent => (ht.pieces hg hflat event.2 (List.mem_map_of_mem hevent)).2
  have htext : tokenText (hook.streamResumed (fun _ _ _ => .response 200 (nativeLines events) ending)
      session resumeEndpoint formatType) =
      ((SlidingWindowStopFilter.new (some session.stopWords)).feeds (fedTexts events)).2.flatten := by
    have hrun := tokenText_chunks session.requestId hev ending (TGIEngineHook.startState session)
      (SlidingWindowStopFilter.feeds_exact session.stopWords (fedTexts events)).2.2
    rw [← hnative] at hrun
    exact hrun
  rw [htext, ← Utf8.pieces_whole_iff hne hflat]
  exact feeds_eq_iff ht hfed hg

/-- **A text survives exactly if no character of it is cut.** The encoding of a
text, in nonempty pieces that native lines carry one by one, each within the
limit of the reader: the tokens that `stream_resumed` yields make up the text
exactly if every piece is the encoding of some text. -/
theorem multibyte_iff {reader : LineReader} {limit : ℕ} (hreader : reader.HandsOut limit)
    (hook : TGIEngineHook) (session : InferenceSession) (resumeEndpoint formatType : Option String)
    (hnative : hook.readsCompat formatType = false) (events : List (NativeFrame × Bytes)) (t : List Char)
    (hfit : ∀ l ∈ nativeLines events, l.length ≤ limit)
    (ht : Sendable session.stopWords t) (hne : ∀ piece ∈ events.map Prod.snd, piece ≠ [])
    (hflat : (events.map Prod.snd).flatten = encodeUtf8 t) :
    tokenText (hook.streamResumed (fun _ _ _ => reader.reply ⟨200, nativeBody events⟩)
      session resumeEndpoint formatType) = .ofText t ↔ ∀ piece ∈ events.map Prod.snd, Utf8.Whole piece := by
  have hlines : contentLines (nativeBody events) = nativeLines events :=
    contentLines_nativeBody fun event hevent =>
      (ht.pieces (Utf8.garbled_pieces hne hflat).1 hflat event.2 (List.mem_map_of_mem hevent)).1
  have hreply : reader.reply ⟨200, nativeBody events⟩ = .response 200 (nativeLines events) .eof := by
    rw [← hlines] at hfit ⊢
    exact hreader.reply_eq hfit
  rw [hreply]
  exact multibyte_lines_iff hook session resumeEndpoint formatType hnative events .eof ht hne hflat

/-! ### A rocket -/

def emojiSession : InferenceSession := { requestId := "req-utf8-005", prompt := "Emoji test" }

theorem sendable_rocket : Sendable emojiSession.stopWords ['🚀'] := by
  have hstops : emojiSession.stopWords = ["<|eot_id|>", "</s>"] := by decide +kernel
  rw [hstops]
  have hpre : ∀ stop ∈ (["<|eot_id|>", "</s>"] : List PyStr), ¬ [.char '🚀'] <+: stop ∧ 1 < stop.length := by
    decide
  refine ⟨by simp [Json.Raw], ?_, ?_⟩
  · intro stop hstop hne hin
    have hlen := hin.length_le
    exact absurd hlen (not_le.mpr (hpre stop hstop).2)
  · intro stop hstop p hne hp hsuf
    rcases List.suffix_cons_iff.mp hsuf with rfl | hnil
    · exact (hpre stop hstop).1 hp
    · exact hne (List.suffix_nil.mp hnil)

theorem multibyte_whole : tokenText ((TGIEngineHook.mk "http://b" false).streamResumed
    (fun _ _ _ => (LineReader.bounded LineReader.usualLimit).reply
      ⟨200, nativeBody [(tokenFrame 10 (by decide), [0xf0, 0x9f, 0x9a, 0x80])]⟩)
    emojiSession none none) = .ofText ['🚀'] :=
  (multibyte_iff (LineReader.handsOut_bounded LineReader.usualLimit) ⟨"http://b", false⟩ emojiSession none none
    (by decide +kernel) [(tokenFrame 10 (by decide), [0xf0, 0x9f, 0x9a, 0x80])] ['🚀'] (by decide +kernel)
    sendable_rocket (by simp) (by decide)).mpr (List.forall_mem_singleton.mpr ⟨['🚀'], by decide⟩)

/-- Cut in the middle, it comes out as three replacement characters. -/
theorem multibyte_cut : Sendable emojiSession.stopWords ['🚀'] ∧
    (∀ piece ∈ ([[0xf0, 0x9f], [0x9a, 0x80]] : List Bytes), piece ≠ []) ∧
    [[0xf0, 0x9f], [0x9a, 0x80]].flatten = encodeUtf8 ['🚀'] ∧
    tokenText ((TGIEngineHook.mk "http://b" false).streamResumed
      (fun _ _ _ => (LineReader.bounded LineReader.usualLimit).reply ⟨200,
        nativeBody [(tokenFrame 10 (by decide), [0xf0, 0x9f]), (tokenFrame 11 (by decide), [0x9a, 0x80])]⟩)
      emojiSession none none) = .ofText ['\ufffd', '\ufffd', '\ufffd'] ∧
    PyStr.ofText ['\ufffd', '\ufffd', '\ufffd'] ≠ .ofText ['🚀'] := by
  refine ⟨sendable_rocket, by simp, by decide, ?_, by decide⟩
  decide +kernel

end Sgm
