/-
# What the decoder accepts

`unpack_frame` on arbitrary bytes. A header that is accepted is the sixteen
bytes of its fields (`unpackFrameHeader_eq_ok`), so an accepted buffer is such
a header, a payload of the declared length with the declared checksum, and
whatever follows (`unpackFrame_eq_ok`). Frames of the encoder are among them,
and no longer so once up to four consecutive payload bytes are damaged. The
version byte is read and not compared with anything, so frames that the
encoder would not make are accepted too.

Key definitions: `StoredCompressed`, `Burst`.
Key theorems: `unpackFrameHeader_eq_ok`, `unpackFrame_eq_ok`, `packFrame_roundTrip`,
`packFrame_burst`, `packFrame_unpackFrame`.
-/
import Sgm.Protocol.Stream

namespace Sgm
namespace Framing

open Crc32

/-! ### Headers -/

/-- The bytes of the number that they are read as. -/
theorem beBytes_unsignedAt {l : Bytes} {start width : ℕ} (h : start + width ≤ l.length) :
    beBytes width (unsignedAt l start width) = (l.drop start).take width := by
  have hlen : ((l.drop start).take width).length = width := by
    rw [List.length_take, List.length_drop]
    omega
  have hback := beBytes_ofBe ((l.drop start).take width)
  rwa [hlen] at hback

theorem unsignedAt_lt {l : Bytes} {start width : ℕ} (h : start + width ≤ l.length) :
    unsignedAt l start width < 256 ^ width := by
  have hlen : ((l.drop start).take width).length = width := by
    rw [List.length_take, List.length_drop]
    omega
  have hlt := ofBe_lt ((l.drop start).take width)
  rwa [hlen] at hlt

/-- A field and what follows it. -/
theorem take_drop_append (l : Bytes) (start width : ℕ) :
    (l.drop start).take width ++ l.drop (start + width) = l.drop start := by
  rw [← List.drop_drop, List.take_append_drop]

/-- The header is accepted exactly when it is the bytes of what is handed back. -/
theorem unpackFrameHeader_eq_ok {l : Bytes} {h : Header} :
    unpackFrameHeader l = .ok h ↔
      l = h.bytes ∧ h.InRange ∧ h.payloadLen ≤ maxPayloadSize := by
  constructor
  · intro ho
    unfold unpackFrameHeader at ho
    split at ho
    · cases ho
    rename_i hlen
    have hlen : l.length = 16 := not_not.mp hlen
    simp only at ho
    split at ho
    · cases ho
    rename_i hmagic
    have hmagic : l.take 4 = magicBytes := not_not.mp hmagic
    split at ho
    · cases ho
    rename_i hmax
    have he := Except.ok.inj ho
    subst he
    refine ⟨?_, ⟨?_, ?_, ?_, ?_, ?_⟩, not_lt.mp hmax⟩
    · have hend : l.drop 12 = (l.drop 12).take 4 := by
        rw [List.take_of_length_le]
        rw [List.length_drop]
        omega
      show l = magicBytes ++ (beBytes 1 (unsignedAt l 4 1) ++ (beBytes 1 (unsignedAt l 5 1) ++
        (beBytes 2 (unsignedAt l 6 2) ++ (beBytes 4 (unsignedAt l 8 4) ++
          beBytes 4 (unsignedAt l 12 4)))))
      rw [beBytes_unsignedAt (by omega), beBytes_unsignedAt (by omega),
        beBytes_unsignedAt (by omega), beBytes_unsignedAt (by omega),
        beBytes_unsignedAt (by omega), ← hend, take_drop_append l 8 4, take_drop_append l 6 2,
        take_drop_append l 5 1, take_drop_append l 4 1, ← hmagic, List.take_append_drop]
    · exact unsignedAt_lt (by omega)
    · exact unsignedAt_lt (by omega)
    · exact unsignedAt_lt (by omega)
    · exact unsignedAt_lt (by omega)
    · exact unsignedAt_lt (by omega)
  · rintro ⟨rfl, hr, hl⟩
    exact unpackFrameHeader_bytes hr hl

/-- The byte behind the magic bytes is the version. -/
theorem unsignedAt_version {h : Header} (hr : h.InRange) (rest : Bytes) :
    unsignedAt (h.bytes ++ rest) 4 1 = h.version := by
  rw [Header.bytes, List.append_assoc, List.append_assoc]
  exact unsignedAt_append rfl hr.version

section
variable {zlib : Zlib} {msgType flags version : ℕ} {payload frame : Bytes} {compress : Bool}

/-! ### Frames -/

/-- The payload that opens is the one that arrived, unless the flags say that
it is compressed. -/
theorem openPayload_eq_ok {h : Header} {arrived : Bytes} :
    openPayload zlib h arrived = .ok payload ↔
      h.checksum = (crc32 arrived).toNat ∧
      (if h.flags &&& FrameFlags.isCompressed ≠ 0 then zlib.decompress arrived else .ok arrived) =
        .ok payload := by
  unfold openPayload
  simp only
  split
  · rename_i hne
    constructor
    · intro he
      cases he
    · rintro ⟨he, _⟩
      exact absurd he.symm hne
  · rename_i he
    exact (and_iff_right (not_not.mp he).symm).symm

/-- A buffer is accepted exactly when it starts with a header and a payload
that opens. -/
theorem unpackFrame_eq_ok {raw : Bytes} :
    unpackFrame zlib raw = .ok (msgType, flags, payload) ↔
      ∃ (h : Header) (arrived rest : Bytes), raw = h.bytes ++ arrived ++ rest ∧ h.InRange ∧
        h.payloadLen ≤ maxPayloadSize ∧ arrived.length = h.payloadLen ∧
        h.msgType = msgType ∧ h.flags = flags ∧ openPayload zlib h arrived = .ok payload := by
  constructor
  · intro ho
    unfold unpackFrame at ho
    split at ho
    · cases ho
    rename_i hshort
    cases hu : unpackFrameHeader (raw.take headerSize) with
    | error e =>
      rw [hu] at ho
      cases ho
    | ok h =>
      simp only [hu] at ho
      obtain ⟨hbytes, hr, hl⟩ := unpackFrameHeader_eq_ok.mp hu
      split at ho
      · cases ho
      rename_i htrunc
      cases hp : openPayload zlib h ((raw.drop headerSize).take h.payloadLen) with
      | error e =>
        rw [hp] at ho
        cases ho
      | ok p =>
        rw [hp] at ho
        cases ho
        refine ⟨h, (raw.drop headerSize).take h.payloadLen,
          (raw.drop headerSize).drop h.payloadLen, ?_, hr, hl, ?_, rfl, rfl, hp⟩
        · rw [← hbytes, List.append_assoc, List.take_append_drop, List.take_append_drop]
        · rw [List.length_take, List.length_drop]
          omega
  · rintro ⟨h, arrived, rest, rfl, hr, hl, ha, rfl, rfl, hp⟩
    rw [unpackFrame_append hr hl ha, hp]
    rfl

/-! ### Round trip -/

/-- The payload is stored compressed: that was asked for, it is long enough,
and gets shorter. -/
def StoredCompressed (zlib : Zlib) (payload : Bytes) (compress : Bool) : Prop :=
  compress ∧ 64 < payload.length ∧ (zlib.compress payload).length < payload.length

instance (zlib : Zlib) (payload : Bytes) (compress : Bool) :
    Decidable (StoredCompressed zlib payload compress) :=
  inferInstanceAs (Decidable (_ ∧ _ ∧ _))

theorem compressPayload_flags :
    (compressPayload zlib payload flags compress).2 =
      if StoredCompressed zlib payload compress then flags ||| FrameFlags.isCompressed
      else flags := by
  by_cases h : StoredCompressed zlib payload compress
  · rw [if_pos h]
    exact congrArg Prod.snd (if_pos h)
  · rw [if_neg h]
    exact congrArg Prod.snd (if_neg h)

theorem compressPayload_flags_lt (hf : flags < 65536) :
    (compressPayload zlib payload flags compress).2 < 65536 := by
  rw [compressPayload_flags]
  split
  · exact Nat.or_lt_two_pow (n := 16) hf (by decide)
  · exact hf

/-- **The codec round trip.** What can be packed is exactly what fits, and
unpacking gives it back from the front of any longer buffer. -/
theorem packFrame_roundTrip
    (hz : ∀ payload, zlib.decompress (zlib.compress payload) = .ok payload)
    (hv : version < 256) (hm : msgType < 256) (hf : flags < 65536)
    (hbit : flags &&& FrameFlags.isCompressed = 0) :
    ((∃ frame, packFrame zlib msgType payload flags version compress = .ok frame) ↔
      (compressPayload zlib payload flags compress).1.length ≤ maxPayloadSize) ∧
    ∀ frame, packFrame zlib msgType payload flags version compress = .ok frame →
      frame.length = 16 + (compressPayload zlib payload flags compress).1.length ∧
      ∀ rest, unpackFrame zlib (frame ++ rest) =
        .ok (msgType, if StoredCompressed zlib payload compress
          then flags ||| FrameFlags.isCompressed else flags, payload) := by
  refine ⟨⟨?_, ?_⟩, ?_⟩
  · rintro ⟨frame, h⟩
    exact (packFrame_eq_ok.mp h).1
  · intro hl
    exact ⟨_, packFrame_eq_ok.mpr ⟨hl, headerOf_inRange hv hm (compressPayload_flags_lt hf) hl, rfl⟩⟩
  · intro frame h
    obtain ⟨hl, hr, rfl⟩ := packFrame_eq_ok.mp h
    constructor
    · rw [List.length_append, Header.length_bytes, headerSize]
    · intro rest
      have hopen := @openPayload_headerOf zlib msgType flags version payload compress hbit
        fun _ => hz payload
      rw [unpackFrame_append hr hl rfl, hopen, ← compressPayload_flags]
      rfl

/-- A hundred zeros are stored compressed, in twelve bytes. -/
theorem packFrame_roundTrip_zeros :
    ∃ frame, packFrame zerosZlib MessageType.requestState zeros FrameFlags.isLastChunk
        protocolVersion true = .ok frame ∧
      frame.length = 28 ∧
      ∀ rest, unpackFrame zerosZlib (frame ++ rest) = .ok (MessageType.requestState,
        FrameFlags.isLastChunk ||| FrameFlags.isCompressed, zeros) := by
  obtain ⟨hpack, hread⟩ := @packFrame_roundTrip zerosZlib MessageType.requestState
    FrameFlags.isLastChunk protocolVersion zeros true zerosZlib_decompress (by decide) (by decide)
    (by decide) rfl
  have hfits : (compressPayload zerosZlib zeros FrameFlags.isLastChunk true).1.length = 12 := by
    decide +kernel
  obtain ⟨frame, hframe⟩ := hpack.mpr (by rw [hfits]; decide)
  obtain ⟨hlen, hrest⟩ := hread frame hframe
  refine ⟨frame, hframe, by rw [hlen, hfits], ?_⟩
  rwa [if_pos (by decide +kernel)] at hrest

/-! ### Damage -/

/-- `f'` is `f` with a difference, which lies within four consecutive bytes
of the payload. -/
structure Burst (f f' : Bytes) : Prop where
  length : f.length = f'.length
  ne : f ≠ f'
  window : ∃ start, headerSize ≤ start ∧ ∀ i, f[i]? ≠ f'[i]? → start ≤ i ∧ i < start + 4

theorem burst_append {pre w w' : Bytes} (hpre : headerSize ≤ pre.length)
    (hlen : w.length = w'.length) (hw : w.length ≤ 4) (hne : w ≠ w') (post : Bytes) :
    Burst (pre ++ (w ++ post)) (pre ++ (w' ++ post)) where
  length := by simp [hlen]
  ne he := hne (List.append_cancel_right (List.append_cancel_left he))
  window := by
    refine ⟨pre.length, hpre, fun i hi => ?_⟩
    constructor
    · by_contra hlt
      have hlt : i < pre.length := not_le.mp hlt
      rw [List.getElem?_append_left hlt, List.getElem?_append_left hlt] at hi
      exact hi rfl
    · by_contra hge
      have hge : pre.length + w.length ≤ i := by omega
      rw [List.getElem?_append_right (by omega), List.getElem?_append_right (by omega),
        List.getElem?_append_right (by omega), List.getElem?_append_right (by omega), hlen] at hi
      exact hi rfl

/-- The header stays, and the payload gets another checksum. -/
theorem Burst.checksum {f f' : Bytes} (h : Burst f f') :
    f' = f.take headerSize ++ f'.drop headerSize ∧
      crc32 (f.drop headerSize) ≠ crc32 (f'.drop headerSize) := by
  obtain ⟨start, hstart, hwindow⟩ := h.window
  have hhead : f.take headerSize = f'.take headerSize := by
    apply List.ext_getElem?
    intro i
    rw [List.getElem?_take, List.getElem?_take]
    split
    · by_contra hi
      have := hwindow i hi
      omega
    · rfl
  have hbody : f' = f.take headerSize ++ f'.drop headerSize := by
    rw [hhead, List.take_append_drop]
  refine ⟨hbody, crc32_window ?_ ?_ (k := start - headerSize) ?_⟩
  · rw [List.length_drop, List.length_drop, h.length]
  · intro he
    apply h.ne
    rw [hbody, ← he, List.take_append_drop]
  · intro i hi
    rw [List.getElem?_drop, List.getElem?_drop] at hi
    have := hwindow _ hi
    omega

/-- **Damage within four consecutive payload bytes is detected**, whether the
frame is unpacked or read from a connection. -/
theorem packFrame_burst (h : packFrame zlib msgType payload flags version compress = .ok frame)
    {frame' : Bytes} (hb : Burst frame frame') :
    ∃ msg, unpackFrame zlib frame' = .error (.crc32VerificationError msg) ∧
      ∀ rest, readFrameAsync zlib (frame' ++ rest) =
        .raised (.crc32VerificationError msg) rest := by
  obtain ⟨hbody, hcrc⟩ := hb.checksum
  have hlen : (frame'.drop headerSize).length = (frame.drop headerSize).length := by
    rw [List.length_drop, List.length_drop, hb.length]
  rw [hbody]
  exact ⟨_, unpackFrame_altered h hlen hcrc.symm, readFrameAsync_altered h hlen hcrc.symm⟩

/-- Four of six bytes are damaged. -/
theorem packFrame_burst_six :
    ∃ msg, unpackFrame plainZlib
        ((headerOf plainZlib MessageType.requestState [1, 2, 3, 4, 5, 6] FrameFlags.none
          protocolVersion false).bytes ++ [1, 0, 0, 0, 0, 6]) =
      .error (.crc32VerificationError msg) := by
  have hlen : (compressPayload plainZlib [1, 2, 3, 4, 5, 6] FrameFlags.none false).1.length ≤
      maxPayloadSize := by decide
  have hrange : (headerOf plainZlib MessageType.requestState [1, 2, 3, 4, 5, 6] FrameFlags.none
      protocolVersion false).InRange :=
    headerOf_inRange (by decide) (by decide) (by decide) hlen
  have hpack := packFrame_eq_ok.mpr ⟨hlen, hrange, rfl⟩
  have hburst := @burst_append ((headerOf plainZlib MessageType.requestState [1, 2, 3, 4, 5, 6]
    FrameFlags.none protocolVersion false).bytes ++ [1]) [2, 3, 4, 5] [0, 0, 0, 0] (by simp) rfl
    (by decide) (by decide) [6]
  rw [List.append_assoc, List.append_assoc] at hburst
  obtain ⟨msg, hun, _⟩ := packFrame_burst hpack hburst
  exact ⟨msg, hun⟩

/-! ### The converse -/

/-- Without compression a frame is packed exactly when it is the bytes of its
header and its payload. -/
theorem packFrame_false_eq_ok :
    packFrame zlib msgType payload flags version false = .ok frame ↔
      payload.length ≤ maxPayloadSize ∧
      (Header.mk version msgType flags payload.length (crc32 payload).toNat).InRange ∧
      frame = (Header.mk version msgType flags payload.length (crc32 payload).toNat).bytes ++
        payload :=
  packFrame_eq_ok

/-- **Decoding, then encoding.** An accepted frame that is not compressed is
the one that the encoder makes of the result exactly when its version byte is
the version of the protocol: nothing else of the header is lost. -/
theorem packFrame_unpackFrame {raw : Bytes}
    (h : unpackFrame zlib raw = .ok (msgType, flags, payload))
    (hbit : flags &&& FrameFlags.isCompressed = 0) :
    packFrame zlib msgType payload flags protocolVersion false =
        .ok (raw.take (headerSize + payload.length)) ↔
      unsignedAt raw 4 1 = protocolVersion := by
  obtain ⟨hd, arrived, rest, rfl, hr, hl, ha, rfl, rfl, ho⟩ := unpackFrame_eq_ok.mp h
  obtain ⟨hcrc, hp⟩ := openPayload_eq_ok.mp ho
  rw [if_neg (not_not.mpr hbit)] at hp
  cases hp
  have htake : (hd.bytes ++ payload ++ rest).take (headerSize + payload.length) =
      hd.bytes ++ payload := by
    apply List.take_left'
    rw [List.length_append, Header.length_bytes]
  have hpack : packFrame zlib hd.msgType payload hd.flags hd.version false =
      .ok (hd.bytes ++ payload) := by
    apply packFrame_false_eq_ok.mpr
    rw [ha, ← hcrc]
    exact ⟨hl, hr, rfl⟩
  have hversion : unsignedAt (hd.bytes ++ payload ++ rest) 4 1 = hd.version := by
    rw [List.append_assoc]
    exact unsignedAt_version hr _
  rw [htake, hversion]
  constructor
  · intro hone
    -- the version of what is packed is what is read at its place
    obtain ⟨_, hr1, he⟩ := packFrame_false_eq_ok.mp hone
    have hone := unsignedAt_version hr1 payload
    rw [← he, unsignedAt_version hr] at hone
    exact hone
  · intro hone
    rw [← hone]
    exact hpack

/-- A frame of version 1. -/
theorem packFrame_unpackFrame_one :
    packFrame plainZlib MessageType.heartbeat [7] FrameFlags.none protocolVersion false =
        .ok (((Header.mk 1 MessageType.heartbeat FrameFlags.none 1 (crc32 [7]).toNat).bytes ++ [7]).take
          (headerSize + 1)) ↔
      unsignedAt ((Header.mk 1 MessageType.heartbeat FrameFlags.none 1 (crc32 [7]).toNat).bytes ++ [7])
        4 1 = protocolVersion := by
  apply packFrame_unpackFrame _ rfl
  exact unpackFrame_eq_ok.mpr ⟨_, [7], [], (List.append_nil _).symm, by decide +kernel, by decide, rfl,
    rfl, rfl, by decide +kernel⟩

/-- A frame of version 2 is accepted; the encoder would not make it. -/
theorem unpackFrame_not_canonical :
    ∃ raw msgType flags payload,
      unpackFrame plainZlib raw = .ok (msgType, flags, payload) ∧
      flags &&& FrameFlags.isCompressed = 0 ∧
      packFrame plainZlib msgType payload flags protocolVersion false ≠
        .ok (raw.take (headerSize + payload.length)) := by
  refine ⟨(Header.mk 2 MessageType.heartbeat FrameFlags.none 1 (crc32 [7]).toNat).bytes ++ [7],
    MessageType.heartbeat, FrameFlags.none, [7], ?_, rfl, ?_⟩
  · exact unpackFrame_eq_ok.mpr ⟨_, [7], [], (List.append_nil _).symm, by decide +kernel, by decide,
      rfl, rfl, rfl, by decide +kernel⟩
  · intro he
    exact absurd (packFrame_false_eq_ok.mp he).2.2 (by decide +kernel)

end

end Framing
end Sgm
