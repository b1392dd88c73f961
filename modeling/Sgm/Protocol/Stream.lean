/-
# A stream of frames

Repeated calls of `read_frame_async` on one connection. A call reads the
header, and then the payload if there is one; each time it waits until the
stream reader has that many bytes. `FrameReader` keeps where the call is and
what the calls so far have returned or raised; the bytes come in any pieces,
and at the end of the stream the call that waits raises. What it does with the
bytes of a frame is what `readFrameAsync` makes of them (`drain_of_read`), and
what `unpackFrame` makes of the frame alone (`readAll_stream`).

Key definitions: `FrameReader`, `FrameReader.step`, `readAll`, `Sent`.
Key theorems: `drain_of_read`, `readFrameAsync_cut`, `drain_sent`, `readAll_stream`.
-/
import Sgm.Lib.Consumer
import Sgm.Protocol.Framing

namespace Sgm
namespace Framing

open Crc32

/-! ### The reader -/

/-- What a call of `read_frame_async` is waiting for. -/
inductive Wanted
  | header
  | payload (h : Header) (pos : 0 < h.payloadLen)

/-- What a call returned or raised. -/
abbrev Outcome := Except Exc (ℕ × ℕ × Bytes)

structure FrameReader where
  wanted : Wanted := .header
  outcomes : List Outcome := []

namespace FrameReader

/-- The call ends, and the next one begins. -/
def finish (r : FrameReader) (o : Outcome) : FrameReader := ⟨.header, r.outcomes ++ [o]⟩

/-- The payload is there. -/
def onPayload (zlib : Zlib) (r : FrameReader) (h : Header) (payload : Bytes) : FrameReader :=
  r.finish ((openPayload zlib h payload).map fun p => (h.msgType, h.flags, p))

/-- One `readexactly` that has its bytes. -/
def step (zlib : Zlib) (r : FrameReader) (buffer : Bytes) : Option (FrameReader × Bytes) :=
  match r.wanted with
  | .header =>
    if buffer.length < headerSize then none
    else
      match unpackFrameHeader (buffer.take headerSize) with
      | .error e => some (r.finish (.error e), buffer.drop headerSize)
      | .ok h =>
        if pos : 0 < h.payloadLen then
          some ({ r with wanted := .payload h pos }, buffer.drop headerSize)
        else some (r.onPayload zlib h [], buffer.drop headerSize)
  | .payload h _ =>
    if buffer.length < h.payloadLen then none
    else some (r.onPayload zlib h (buffer.take h.payloadLen), buffer.drop h.payloadLen)

theorem step_append {zlib : Zlib} {r r' : FrameReader} {b b' : Bytes} (h : r.step zlib b = some (r', b'))
    (c : Bytes) : r.step zlib (b ++ c) = some (r', b' ++ c) := by
  unfold step at h ⊢
  have hmore : ∀ n, ¬ b.length < n → ¬ (b ++ c).length < n ∧ (b ++ c).take n = b.take n ∧
      (b ++ c).drop n = b.drop n ++ c := by
    intro n hn
    refine ⟨?_, List.take_append_of_le_length (by omega), List.drop_append_of_le_length (by omega)⟩
    rw [List.length_append]
    omega
  cases hw : r.wanted with
  | header =>
    simp only [hw] at h ⊢
    by_cases hl : b.length < headerSize
    · rw [if_pos hl] at h
      cases h
    · obtain ⟨h1, h2, h3⟩ := hmore _ hl
      rw [if_neg hl] at h
      rw [if_neg h1, h2, h3]
      cases hu : unpackFrameHeader (b.take headerSize) with
      | error e =>
        simp only [hu] at h
        cases h
        rfl
      | ok hd =>
        simp only [hu] at h
        by_cases hp : 0 < hd.payloadLen
        · rw [dif_pos hp] at h
          cases h
          simp only [dif_pos hp]
        · rw [dif_neg hp] at h
          cases h
          simp only [dif_neg hp]
  | payload hd pos =>
    simp only [hw] at h ⊢
    by_cases hl : b.length < hd.payloadLen
    · rw [if_pos hl] at h
      cases h
    · obtain ⟨h1, h2, h3⟩ := hmore _ hl
      rw [if_neg hl] at h
      cases h
      rw [if_neg h1, h2, h3]

/-- Each `readexactly` takes bytes away. -/
theorem step_lt {zlib : Zlib} {r r' : FrameReader} {b b' : Bytes} (h : r.step zlib b = some (r', b')) :
    b'.length < b.length := by
  have hdrop : ∀ n, 0 < n → ¬ b.length < n → (b.drop n).length < b.length := by
    intro n hn hl
    rw [List.length_drop]
    omega
  unfold step at h
  cases hw : r.wanted with
  | header =>
    simp only [hw] at h
    by_cases hl : b.length < headerSize
    · rw [if_pos hl] at h
      cases h
    · have hlt := hdrop headerSize (by decide) hl
      rw [if_neg hl] at h
      cases hu : unpackFrameHeader (b.take headerSize) with
      | error e =>
        simp only [hu] at h
        cases h
        exact hlt
      | ok hd =>
        simp only [hu] at h
        by_cases hp : 0 < hd.payloadLen
        · rw [dif_pos hp] at h
          cases h
          exact hlt
        · rw [dif_neg hp] at h
          cases h
          exact hlt
  | payload hd pos =>
    simp only [hw] at h
    by_cases hl : b.length < hd.payloadLen
    · rw [if_pos hl] at h
      cases h
    · have hlt := hdrop hd.payloadLen pos hl
      rw [if_neg hl] at h
      cases h
      exact hlt

/-- The reader as a consumer of the bytes of the connection. -/
def consumer (zlib : Zlib) : Consumer FrameReader UInt8 where
  step := step zlib
  effort _ b := b.length
  step_append := step_append
  effort_lt := step_lt

end FrameReader

/-- What the calls return and raise, up to the end of the stream. -/
def readAll (zlib : Zlib) (pieces : List Bytes) : List Outcome :=
  let read := pieces.foldl (FrameReader.consumer zlib).feed ({}, [])
  read.1.outcomes ++ [.error .incompleteReadError]

/-! ### One frame -/

section Frame

variable {zlib : Zlib}

open FrameReader

/-- A call with the bytes of its frame there. -/
theorem drain_of_read (os : List Outcome) {b : Bytes} :
    match readFrameAsync zlib b with
    | .incomplete => ((consumer zlib).drain ⟨.header, os⟩ b).1.outcomes = os
    | .raised e rest =>
      (consumer zlib).drain ⟨.header, os⟩ b = (consumer zlib).drain ⟨.header, os ++ [.error e]⟩ rest
    | .frame msgType flags payload rest =>
      (consumer zlib).drain ⟨.header, os⟩ b =
        (consumer zlib).drain ⟨.header, os ++ [.ok (msgType, flags, payload)]⟩ rest := by
  unfold readFrameAsync
  by_cases hl : b.length < headerSize
  · rw [if_pos hl]
    have hnone : (consumer zlib).step ⟨.header, os⟩ b = none := if_pos hl
    show ((consumer zlib).drain ⟨.header, os⟩ b).1.outcomes = os
    rw [Consumer.drain_of_none hnone]
  rw [if_neg hl]
  cases hu : unpackFrameHeader (b.take headerSize) with
  | error e =>
    have hsome : (consumer zlib).step ⟨.header, os⟩ b =
        some (⟨.header, os ++ [.error e]⟩, b.drop headerSize) := by
      simp [consumer, FrameReader.step, hl, hu, finish]
    exact Consumer.drain_of_some hsome
  | ok h =>
    -- the end of the call once the payload is there
    have hopen : ∀ payload, onPayload zlib ⟨.header, os⟩ h payload =
        ⟨.header, os ++ [(openPayload zlib h payload).map fun p => (h.msgType, h.flags, p)]⟩ :=
      fun _ => rfl
    by_cases hp : 0 < h.payloadLen
    · have hsome : (consumer zlib).step ⟨.header, os⟩ b =
          some (⟨.payload h hp, os⟩, b.drop headerSize) := by
        simp [consumer, FrameReader.step, hl, hu, hp]
      by_cases hb : (b.drop headerSize).length < h.payloadLen
      · have hnone : (consumer zlib).step ⟨.payload h hp, os⟩ (b.drop headerSize) = none := if_pos hb
        simp only [hb, if_true]
        rw [Consumer.drain_of_some hsome, Consumer.drain_of_none hnone]
      · have hnext : (consumer zlib).step ⟨.payload h hp, os⟩ (b.drop headerSize) =
            some (onPayload zlib ⟨.header, os⟩ h ((b.drop headerSize).take h.payloadLen),
              (b.drop headerSize).drop h.payloadLen) := if_neg hb
        rw [hopen] at hnext
        have hdrain := (Consumer.drain_of_some hsome).trans (Consumer.drain_of_some hnext)
        simp only [hb, if_false]
        cases ho : openPayload zlib h ((b.drop headerSize).take h.payloadLen) with
        | error e =>
          rw [ho] at hdrain
          exact hdrain
        | ok p =>
          rw [ho] at hdrain
          exact hdrain
    · have hzero : h.payloadLen = 0 := by omega
      have hsome : (consumer zlib).step ⟨.header, os⟩ b =
          some (onPayload zlib ⟨.header, os⟩ h [], b.drop headerSize) := by
        simp [consumer, FrameReader.step, hl, hu, hp]
      rw [hopen] at hsome
      have hdrain := Consumer.drain_of_some hsome
      simp only [hzero, Nat.not_lt_zero, if_false, List.take_zero, List.drop_zero]
      cases ho : openPayload zlib h [] with
      | error e =>
        rw [ho] at hdrain
        exact hdrain
      | ok p =>
        rw [ho] at hdrain
        exact hdrain

/-- A frame that is cut at any byte is not read. -/
theorem readFrameAsync_cut {h : Header} (hr : h.InRange) (hl : h.payloadLen ≤ maxPayloadSize)
    {arrived tail : Bytes} (ha : arrived.length = h.payloadLen) (ht : tail <+: h.bytes ++ arrived)
    (hcut : tail.length < (h.bytes ++ arrived).length) : readFrameAsync zlib tail = .incomplete := by
  unfold readFrameAsync
  by_cases hs : tail.length < headerSize
  · rw [if_pos hs]
  · have hhead : tail.take headerSize = h.bytes := by
      have h1 := ht.take headerSize
      rw [List.take_left' h.length_bytes] at h1
      refine h1.eq_of_length ?_
      rw [List.length_take, h.length_bytes]
      omega
    have hbody : (tail.drop headerSize).length < h.payloadLen := by
      rw [List.length_append, h.length_bytes] at hcut
      rw [List.length_drop]
      omega
    rw [if_neg hs, hhead, unpackFrameHeader_bytes hr hl]
    simp only [hbody, if_true]

end Frame

/-! ### The stream -/

/-- A frame that `pack_frame` made, and the payload bytes that arrive: the ones
that were sent, or as many others with another checksum. -/
structure Sent (zlib : Zlib) where
  msgType : ℕ
  payload : Bytes
  flags : ℕ
  version : ℕ
  compress : Bool
  frame : Bytes
  packed : packFrame zlib msgType payload flags version compress = .ok frame
  uncompressed : flags &&& FrameFlags.isCompressed = 0
  arrived : Bytes
  sameLength : arrived.length = (frame.drop headerSize).length
  told : arrived = frame.drop headerSize ∨ crc32 arrived ≠ crc32 (frame.drop headerSize)

namespace Sent

variable {zlib : Zlib} (s : Sent zlib)

/-- The bytes of the frame on the connection. -/
def bytes : Bytes := s.frame.take headerSize ++ s.arrived

def Altered : Prop := s.arrived ≠ s.frame.drop headerSize

/-- The flags in the header: those of the caller, and bit 0 if the payload is
sent compressed. -/
def activeFlags : ℕ := (compressPayload zlib s.payload s.flags s.compress).2

theorem unaltered_bytes (h : ¬ s.Altered) : s.bytes = s.frame := by
  have harrived : s.arrived = s.frame.drop headerSize := not_not.mp h
  rw [bytes, harrived, List.take_append_drop]

/-- The header of the frame, and as many payload bytes as it says. -/
theorem exists_header : ∃ h : Header, h.InRange ∧ h.payloadLen ≤ maxPayloadSize ∧
    s.bytes = h.bytes ++ s.arrived ∧ s.arrived.length = h.payloadLen := by
  obtain ⟨hl, hr, hframe⟩ := packFrame_eq_ok.mp s.packed
  have hlen := s.sameLength
  rw [hframe, List.drop_left' (Header.length_bytes _)] at hlen
  refine ⟨_, hr, hl, ?_, hlen⟩
  rw [bytes, hframe, List.take_left' (Header.length_bytes _)]

/-- An altered frame is refused. -/
theorem unpackFrame_altered (h : s.Altered) :
    ∃ msg, unpackFrame zlib s.bytes = .error (.crc32VerificationError msg) := by
  have hcrc := s.told.resolve_left h
  exact ⟨_, Framing.unpackFrame_altered s.packed s.sameLength hcrc⟩

theorem unpackFrame_unaltered (hz : ∀ p, zlib.decompress (zlib.compress p) = .ok p) (h : ¬ s.Altered) :
    unpackFrame zlib s.bytes = .ok (s.msgType, s.activeFlags, s.payload) := by
  rw [s.unaltered_bytes h]
  exact unpackFrame_packFrame s.uncompressed (fun _ => hz s.payload) s.packed

/-- With the bytes of the frame there, the call gives what `unpack_frame` makes
of them, and the next one starts right behind. -/
theorem drain (os : List Outcome) (rest : Bytes) :
    (FrameReader.consumer zlib).drain ⟨.header, os⟩ (s.bytes ++ rest) =
      (FrameReader.consumer zlib).drain ⟨.header, os ++ [unpackFrame zlib s.bytes]⟩ rest := by
  obtain ⟨h, hr, hl, hbytes, hlen⟩ := s.exists_header
  have hdrain := @drain_of_read zlib os (s.bytes ++ rest)
  rw [hbytes, readFrameAsync_append hr hl hlen rest] at hdrain
  rw [hbytes, unpackFrame_bytes hr hl hlen]
  cases ho : openPayload zlib h s.arrived with
  | error e =>
    rw [ho] at hdrain
    exact hdrain
  | ok p =>
    rw [ho] at hdrain
    exact hdrain

end Sent

section Stream

variable {zlib : Zlib}

/-- What is left of a stream in which the last frame was cut. -/
def CutFrame (zlib : Zlib) (tail : Bytes) : Prop :=
  tail = [] ∨ ∃ last : Sent zlib, tail <+: last.bytes ∧ tail.length < last.bytes.length

theorem readFrameAsync_cutFrame {tail : Bytes} (h : CutFrame zlib tail) :
    readFrameAsync zlib tail = .incomplete := by
  rcases h with rfl | ⟨last, ht, hcut⟩
  · exact readFrameAsync_nil
  · obtain ⟨h, hr, hl, hbytes, hlen⟩ := last.exists_header
    rw [hbytes] at ht hcut
    exact readFrameAsync_cut hr hl hlen ht hcut

theorem drain_sent (sent : List (Sent zlib)) {tail : Bytes} (ht : CutFrame zlib tail) (os : List Outcome) :
    ((FrameReader.consumer zlib).drain ⟨.header, os⟩ ((sent.map Sent.bytes).flatten ++ tail)).1.outcomes =
      os ++ sent.map fun s => unpackFrame zlib s.bytes := by
  induction sent generalizing os with
  | nil =>
    have hdrain := @drain_of_read zlib os tail
    rw [readFrameAsync_cutFrame ht] at hdrain
    simpa using hdrain
  | cons s sent ih =>
    rw [List.map_cons, List.flatten_cons, List.append_assoc, s.drain, ih]
    simp

/-- The calls give, frame by frame, what `unpack_frame` gives, in whatever
pieces the stream arrives. -/
theorem readAll_eq (sent : List (Sent zlib)) {tail : Bytes} (ht : CutFrame zlib tail)
    {pieces : List Bytes} (hp : pieces.flatten = (sent.map Sent.bytes).flatten ++ tail) :
    readAll zlib pieces =
      (sent.map fun s => unpackFrame zlib s.bytes) ++ [.error .incompleteReadError] := by
  have hstart : (FrameReader.consumer zlib).drain {} [] = ({}, []) :=
    Consumer.drain_of_none rfl
  have hfold := Consumer.foldl_feed (C := FrameReader.consumer zlib) {} pieces
  rw [hstart, hp] at hfold
  have hout := drain_sent sent ht []
  unfold readAll
  rw [hfold]
  exact congrArg (· ++ [Except.error Exc.incompleteReadError]) (hout.trans (List.nil_append _))

/-- **The stream is reassembled frame by frame.** In whatever pieces it
arrives, each frame gives what `unpack_frame` makes of its bytes: an unaltered
one its message, with the flags it was sent with, an altered one a CRC error;
and the end of the stream, or a last frame that is cut, an incomplete read. -/
theorem readAll_stream (hz : ∀ p, zlib.decompress (zlib.compress p) = .ok p) (sent : List (Sent zlib))
    {tail : Bytes} (ht : CutFrame zlib tail) {pieces : List Bytes}
    (hp : pieces.flatten = (sent.map Sent.bytes).flatten ++ tail) :
    readAll zlib pieces =
        (sent.map fun s => unpackFrame zlib s.bytes) ++ [.error .incompleteReadError] ∧
      ∀ s ∈ sent,
        (¬ s.Altered → unpackFrame zlib s.bytes = .ok (s.msgType, s.activeFlags, s.payload)) ∧
        (s.Altered → ∃ msg, unpackFrame zlib s.bytes = .error (.crc32VerificationError msg)) := by
  refine ⟨readAll_eq sent ht hp, ?_⟩
  intro s _
  exact ⟨s.unpackFrame_unaltered hz, s.unpackFrame_altered⟩

end Stream

/-! ### A short stream -/

/-- Compresses nothing. -/
def plainZlib : Zlib := ⟨id, .ok⟩

/-- A frame with a payload of one byte, of which another may arrive. -/
def shortSent (b c : UInt8) (h : c = b ∨ crc32 [c] ≠ crc32 [b]) : Sent plainZlib where
  msgType := MessageType.requestState
  payload := [b]
  flags := FrameFlags.none
  version := protocolVersion
  compress := false
  frame := (headerOf plainZlib MessageType.requestState [b] FrameFlags.none protocolVersion false).bytes ++ [b]
  packed := by
    rw [packFrame_eq_ok]
    have hlen : (compressPayload plainZlib [b] FrameFlags.none false).1.length ≤ maxPayloadSize := by
      show 1 ≤ maxPayloadSize
      decide
    refine ⟨hlen, headerOf_inRange (by decide) (by decide) ?_ hlen, rfl⟩
    show FrameFlags.none < 65536
    decide
  uncompressed := rfl
  arrived := [c]
  sameLength := by
    rw [List.drop_left' (Header.length_bytes _)]
    rfl
  told := by
    rw [List.drop_left' (Header.length_bytes _)]
    rcases h with rfl | h
    · exact Or.inl rfl
    · exact Or.inr h

/-- In pieces of one byte: a frame, an altered one, and one that is cut inside
its header. -/
theorem readAll_stream_short :
    readAll plainZlib
        (((shortSent 1 1 (.inl rfl)).bytes ++ (shortSent 2 3 (.inr (by decide))).bytes ++
          (shortSent 1 1 (.inl rfl)).bytes.take 3).map fun b => [b]) =
      ([shortSent 1 1 (.inl rfl), shortSent 2 3 (.inr (by decide))].map
        fun s => unpackFrame plainZlib s.bytes) ++ [.error .incompleteReadError] := by
  have hcut : CutFrame plainZlib ((shortSent 1 1 (.inl rfl)).bytes.take 3) :=
    Or.inr ⟨shortSent 1 1 (.inl rfl), List.take_prefix _ _, by decide⟩
  refine (readAll_stream (fun _ => rfl) [shortSent 1 1 (.inl rfl), shortSent 2 3 (.inr (by decide))] hcut
    ?_).1
  have hsingle : ∀ l : Bytes, (l.map fun b => [b]).flatten = l := by
    intro l
    induction l with
    | nil => rfl
    | cons b l ih => simpa using ih
  rw [hsingle]
  simp

/-! ### A compressed frame -/

def zeros : Bytes := List.replicate 100 0

/-- What `zlib.compress` makes of a hundred zeros. -/
def zerosCompressed : Bytes := [0x78, 0x9c, 0x63, 0x60, 0xa0, 0x3d, 0, 0, 0, 0x64, 0, 1]

/-- As `zlib` on a hundred zeros. -/
def zerosZlib : Zlib where
  compress p := if p = zeros then zerosCompressed else 0xff :: p
  decompress c :=
    if c = zerosCompressed then .ok zeros
    else match c with
      | 0xff :: p => .ok p
      | _ => .error (.exception "zlib.error")

theorem zerosZlib_decompress (p : Bytes) : zerosZlib.decompress (zerosZlib.compress p) = .ok p := by
  by_cases h : p = zeros
  · subst h
    rfl
  · have hne : (0xff : UInt8) :: p ≠ zerosCompressed := by
      intro he
      have := (List.cons.inj he).1
      exact absurd this (by decide)
    simp [zerosZlib, h, hne]

/-- The flags that are read are those of the header: of a frame that was
packed with compression, not the ones that the caller gave. -/
theorem readAll_not_callerFlags :
    packFrame zerosZlib MessageType.requestState zeros FrameFlags.none protocolVersion true =
        .ok ((headerOf zerosZlib MessageType.requestState zeros FrameFlags.none protocolVersion true).bytes ++
          zerosCompressed) ∧
      readAll zerosZlib
          [(headerOf zerosZlib MessageType.requestState zeros FrameFlags.none protocolVersion true).bytes ++
            zerosCompressed] ≠
        [.ok (MessageType.requestState, FrameFlags.none, zeros), .error .incompleteReadError] := by
  have hlen : (compressPayload zerosZlib zeros FrameFlags.none true).1.length ≤ maxPayloadSize := by
    decide +kernel
  have hpacked : packFrame zerosZlib MessageType.requestState zeros FrameFlags.none protocolVersion true =
      .ok ((headerOf zerosZlib MessageType.requestState zeros FrameFlags.none protocolVersion true).bytes ++
        zerosCompressed) := by
    rw [packFrame_eq_ok]
    exact ⟨hlen, headerOf_inRange (by decide) (by decide) (by decide +kernel) hlen, rfl⟩
  refine ⟨hpacked, ?_⟩
  have hread := readFrameAsync_intact rfl (fun _ => zerosZlib_decompress zeros) hpacked []
  rw [List.append_nil] at hread
  let s : Sent zerosZlib := ⟨_, _, _, _, _, _, hpacked, rfl, zerosCompressed, by
    rw [List.drop_left' (Header.length_bytes _)], by
    rw [List.drop_left' (Header.length_bytes _)]
    exact Or.inl rfl⟩
  have hs : s.bytes =
      (headerOf zerosZlib MessageType.requestState zeros FrameFlags.none protocolVersion true).bytes ++
        zerosCompressed := by
    rw [Sent.bytes, List.take_left' (Header.length_bytes _)]
  have hpieces : [s.bytes].flatten = ([s].map Sent.bytes).flatten ++ [] := by simp
  have hall := readAll_eq [s] (Or.inl rfl) hpieces
  rw [hs] at hall
  rw [hall]
  have hun := unpackFrame_packFrame rfl (fun _ => zerosZlib_decompress zeros) hpacked
  simp only [List.map_cons, List.map_nil, hs, hun]
  intro he
  have := (Prod.mk.inj (Prod.mk.inj (Except.ok.inj (List.cons.inj he).1)).2).1
  exact absurd this (by decide +kernel)

end Framing
end Sgm
