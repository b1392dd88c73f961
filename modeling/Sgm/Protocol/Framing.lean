/-
# SGM-P2P framing

The frames of `daemon/protocol/framing.py`: a header of 16 bytes (magic,
version, message type, flags, payload length and CRC-32 of the payload, in
network byte order) and the payload, which may be compressed.

A read from a stream is a function of the bytes that have arrived: it waits,
or raises, or returns a frame, and leaves the bytes after it. What `zlib`
compresses to is not modelled; `Zlib` stands for its two functions.

Key definitions: `packFrame`, `unpackFrame`, `readFrameAsync`.
Key theorems: `packFrame_eq_ok`, `unpackFrame_packFrame`,
`readFrameAsync_intact`, `readFrameAsync_altered`.
-/
import Sgm.Lib.Crc32
import Sgm.Models

namespace Sgm

open Crc32

/-- `zlib.compress` and `zlib.decompress`. -/
structure Zlib where
  compress : Bytes → Bytes
  decompress : Bytes → Except Exc Bytes

namespace Framing

def magicBytes : Bytes := [0x53, 0x47, 0x4D, 0x31]

def protocolVersion : ℕ := 1

def headerSize : ℕ := 16

def maxPayloadSize : ℕ := 16 * 1024 * 1024

/-! ### Texts -/

/-- Hexadecimal, padded with zeros to the width. -/
def hex (width n : ℕ) : String :=
  String.ofList (List.replicate (width - (Nat.toDigits 16 n).length) '0' ++ Nat.toDigits 16 n)

theorem length_hex_le {width n : ℕ} (hw : 0 < width) (h : n < 16 ^ width) :
    (hex width n).length ≤ width := by
  have hd := (Nat.length_toDigits_le_iff (b := 16) (by decide) hw).mpr h
  rw [hex, String.length_ofList, List.length_append, List.length_replicate]
  omega

/-- A byte in the `repr` of bytes between such quotes. -/
def reprByte (quote b : UInt8) : List Char :=
  if b = quote ∨ b = 0x5c then ['\\', Char.ofNat b.toNat]
  else if b = 9 then ['\\', 't']
  else if b = 10 then ['\\', 'n']
  else if b = 13 then ['\\', 'r']
  else if 32 ≤ b ∧ b < 127 then [Char.ofNat b.toNat]
  else '\\' :: 'x' :: (hex 2 b.toNat).toList

/-- `repr` of bytes. -/
def reprBytes (l : Bytes) : String :=
  let quote : UInt8 := if 0x27 ∈ l ∧ 0x22 ∉ l then 0x22 else 0x27
  String.ofList ('b' :: Char.ofNat quote.toNat ::
    (l.flatMap (reprByte quote) ++ [Char.ofNat quote.toNat]))

/-! ### Frames -/

structure Header where
  version : ℕ
  msgType : ℕ
  flags : ℕ
  payloadLen : ℕ
  checksum : ℕ
  deriving DecidableEq

/-- The fields fit their places. -/
structure Header.InRange (h : Header) : Prop where
  version : h.version < 256
  msgType : h.msgType < 256
  flags : h.flags < 65536
  payloadLen : h.payloadLen < 4294967296
  checksum : h.checksum < 4294967296

instance (h : Header) : Decidable h.InRange :=
  decidable_of_iff (h.version < 256 ∧ h.msgType < 256 ∧ h.flags < 65536 ∧
      h.payloadLen < 4294967296 ∧ h.checksum < 4294967296)
    ⟨fun ⟨a, b, c, d, e⟩ => ⟨a, b, c, d, e⟩, fun ⟨a, b, c, d, e⟩ => ⟨a, b, c, d, e⟩⟩

/-- The bytes of `struct.pack("!4sBBHII", …)`. -/
def Header.bytes (h : Header) : Bytes :=
  magicBytes ++ (beBytes 1 h.version ++ (beBytes 1 h.msgType ++ (beBytes 2 h.flags ++
    (beBytes 4 h.payloadLen ++ beBytes 4 h.checksum))))

def structPack (h : Header) : Except Exc Bytes :=
  if h.InRange then .ok h.bytes else .error (.exception "struct.error")

/-- The payload as it is sent, and the flags that say how. -/
def compressPayload (zlib : Zlib) (payload : Bytes) (flags : ℕ) (compress : Bool) : Bytes × ℕ :=
  if compress ∧ 64 < payload.length ∧ (zlib.compress payload).length < payload.length then
    (zlib.compress payload, flags ||| FrameFlags.isCompressed)
  else (payload, flags)

def packFrame (zlib : Zlib) (msgType : ℕ) (payload : Bytes) (flags version : ℕ)
    (compress : Bool) : Except Exc Bytes :=
  let (finalPayload, activeFlags) := compressPayload zlib payload flags compress
  let payloadLen := finalPayload.length
  if maxPayloadSize < payloadLen then
    .error (.valueError
      s!"Payload size {payloadLen} exceeds maximum allowed size of {maxPayloadSize} bytes")
  else
    let checksum := (crc32 finalPayload).toNat
    (structPack ⟨version, msgType, activeFlags, payloadLen, checksum⟩).map (· ++ finalPayload)

/-- The number in `width` bytes from `start` on. -/
def unsignedAt (l : Bytes) (start width : ℕ) : ℕ := ofBe ((l.drop start).take width)

def unpackFrameHeader (header : Bytes) : Except Exc Header :=
  if header.length ≠ headerSize then
    .error (.valueError
      ("Expected " ++ toString headerSize ++ " bytes for header, got " ++ toString header.length))
  else
    let magic := header.take 4
    let payloadLen := unsignedAt header 8 4
    if magic ≠ magicBytes then
      .error (.valueError
        ("Invalid magic bytes: expected " ++ reprBytes magicBytes ++ ", got " ++ reprBytes magic))
    else if maxPayloadSize < payloadLen then
      .error (.valueError
        s!"Declared payload length {payloadLen} exceeds limit of {maxPayloadSize} bytes")
    else .ok ⟨unsignedAt header 4 1, unsignedAt header 5 1, unsignedAt header 6 2, payloadLen,
      unsignedAt header 12 4⟩

def crcMismatch (msgType expected actual : ℕ) : String :=
  "CRC32 mismatch on message type 0x" ++ hex 2 msgType ++ ": expected 0x" ++ hex 8 expected ++
    ", got 0x" ++ hex 8 actual

theorem length_crcMismatch_le {msgType expected actual : ℕ} (hm : msgType < 16 ^ 2)
    (he : expected < 16 ^ 8) (ha : actual < 16 ^ 8) :
    (crcMismatch msgType expected actual).length ≤ 100 := by
  have h2 : (hex 2 msgType).length ≤ 2 := length_hex_le Nat.two_pos hm
  have h8 : (hex 8 expected).length ≤ 8 := length_hex_le (Nat.succ_pos 7) he
  have h8' : (hex 8 actual).length ≤ 8 := length_hex_le (Nat.succ_pos 7) ha
  have e1 : "CRC32 mismatch on message type 0x".length = 33 := by decide +kernel
  have e2 : ": expected 0x".length = 13 := by decide +kernel
  have e3 : ", got 0x".length = 8 := by decide +kernel
  unfold crcMismatch
  simp only [String.length_append, e1, e2, e3]
  clear e1 e2 e3
  omega

/-- The payload behind the header: checked, and decompressed. -/
def openPayload (zlib : Zlib) (h : Header) (payload : Bytes) : Except Exc Bytes :=
  let actualCrc := (crc32 payload).toNat
  if actualCrc ≠ h.checksum then
    .error (.crc32VerificationError (crcMismatch h.msgType h.checksum actualCrc))
  else if h.flags &&& FrameFlags.isCompressed ≠ 0 then zlib.decompress payload
  else .ok payload

def unpackFrame (zlib : Zlib) (raw : Bytes) : Except Exc (ℕ × ℕ × Bytes) :=
  if raw.length < headerSize then
    .error (.valueError ("Frame buffer too short (" ++ toString raw.length ++ " bytes; minimum " ++
      toString headerSize ++ ")"))
  else
    match unpackFrameHeader (raw.take headerSize) with
    | .error e => .error e
    | .ok h =>
      let totalLen := headerSize + h.payloadLen
      if raw.length < totalLen then
        .error (.valueError
          ("Truncated frame: expected " ++ toString totalLen ++ " bytes, got " ++
            toString raw.length))
      else
        (openPayload zlib h ((raw.drop headerSize).take h.payloadLen)).map
          fun payload => (h.msgType, h.flags, payload)

/-- What a read makes of the bytes that have arrived. -/
inductive Read
  | incomplete
  | raised (e : Exc) (rest : Bytes)
  | frame (msgType flags : ℕ) (payload rest : Bytes)
  deriving DecidableEq

def readFrameAsync (zlib : Zlib) (buffer : Bytes) : Read :=
  if buffer.length < headerSize then .incomplete
  else
    match unpackFrameHeader (buffer.take headerSize) with
    | .error e => .raised e (buffer.drop headerSize)
    | .ok h =>
      let body := buffer.drop headerSize
      if body.length < h.payloadLen then .incomplete
      else
        match openPayload zlib h (body.take h.payloadLen) with
        | .error e => .raised e (body.drop h.payloadLen)
        | .ok payload => .frame h.msgType h.flags payload (body.drop h.payloadLen)

/-! ### What is packed is read back -/

@[simp] theorem Header.length_bytes (h : Header) : h.bytes.length = headerSize := by
  simp [Header.bytes, magicBytes, headerSize]

/-- The bytes in the middle are read as the number they were written for. -/
theorem unsignedAt_append {pre post : Bytes} {w n start : ℕ} (hs : start = pre.length)
    (hn : n < 256 ^ w) : unsignedAt (pre ++ (beBytes w n ++ post)) start w = n := by
  rw [unsignedAt, hs, List.drop_left, List.take_left' (length_beBytes w n), ofBe_beBytes hn]

theorem unpackFrameHeader_bytes {h : Header} (hr : h.InRange) (hl : h.payloadLen ≤ maxPayloadSize) :
    unpackFrameHeader h.bytes = .ok h := by
  have hmagic : h.bytes.take 4 = magicBytes := by simp [Header.bytes, magicBytes]
  have hversion : unsignedAt h.bytes 4 1 = h.version :=
    unsignedAt_append rfl (by simpa using hr.version)
  have htype : unsignedAt h.bytes 5 1 = h.msgType := by
    rw [Header.bytes, ← List.append_assoc magicBytes]
    exact unsignedAt_append rfl (by simpa using hr.msgType)
  have hflags : unsignedAt h.bytes 6 2 = h.flags := by
    rw [Header.bytes, ← List.append_assoc magicBytes, ← List.append_assoc (magicBytes ++ _)]
    exact unsignedAt_append rfl (by simpa using hr.flags)
  have hlen : unsignedAt h.bytes 8 4 = h.payloadLen := by
    rw [Header.bytes, ← List.append_assoc magicBytes, ← List.append_assoc (magicBytes ++ _),
      ← List.append_assoc (magicBytes ++ _ ++ _)]
    exact unsignedAt_append rfl (by simpa using hr.payloadLen)
  have hcrc : unsignedAt h.bytes 12 4 = h.checksum := by
    rw [Header.bytes, ← List.append_assoc magicBytes, ← List.append_assoc (magicBytes ++ _),
      ← List.append_assoc (magicBytes ++ _ ++ _), ← List.append_assoc (magicBytes ++ _ ++ _ ++ _),
      ← List.append_nil (beBytes 4 h.checksum)]
    exact unsignedAt_append rfl (by simpa using hr.checksum)
  unfold unpackFrameHeader
  rw [if_neg (by simp), hmagic, hlen, if_neg (by simp), if_neg (by omega), hversion, htype, hflags,
    hcrc]

section
variable {zlib : Zlib} {msgType flags version : ℕ} {payload : Bytes} {compress : Bool}

/-- The header of the frame that `packFrame` makes. -/
def headerOf (zlib : Zlib) (msgType : ℕ) (payload : Bytes) (flags version : ℕ) (compress : Bool) :
    Header :=
  let p := compressPayload zlib payload flags compress
  ⟨version, msgType, p.2, p.1.length, (crc32 p.1).toNat⟩

theorem packFrame_eq_ok {frame : Bytes} :
    packFrame zlib msgType payload flags version compress = .ok frame ↔
      (compressPayload zlib payload flags compress).1.length ≤ maxPayloadSize ∧
      (headerOf zlib msgType payload flags version compress).InRange ∧
      frame = (headerOf zlib msgType payload flags version compress).bytes ++
        (compressPayload zlib payload flags compress).1 := by
  simp only [packFrame, structPack, headerOf]
  split
  · rename_i h
    constructor
    · intro he
      cases he
    · rintro ⟨hle, _⟩
      omega
  · rename_i h
    split
    · rename_i hr
      constructor
      · intro he
        exact ⟨by omega, hr, (Except.ok.inj he).symm⟩
      · rintro ⟨_, _, rfl⟩
        rfl
    · rename_i hr
      constructor
      · intro he
        cases he
      · rintro ⟨_, hr', _⟩
        exact absurd hr' hr

/-- Whether a payload can be packed does not depend on its bytes, only on how
many there are. -/
theorem headerOf_inRange (hv : version < 256) (hm : msgType < 256)
    (hf : (compressPayload zlib payload flags compress).2 < 65536)
    (hl : (compressPayload zlib payload flags compress).1.length ≤ maxPayloadSize) :
    (headerOf zlib msgType payload flags version compress).InRange where
  version := hv
  msgType := hm
  flags := hf
  payloadLen := lt_of_le_of_lt hl (by decide)
  checksum := (crc32 _).isLt

theorem Header.take_bytes (h : Header) (arrived rest : Bytes) :
    (h.bytes ++ arrived ++ rest).take headerSize = h.bytes := by
  rw [List.append_assoc]
  exact List.take_left' h.length_bytes

theorem Header.drop_bytes (h : Header) (arrived rest : Bytes) :
    (h.bytes ++ arrived ++ rest).drop headerSize = arrived ++ rest := by
  rw [List.append_assoc]
  exact List.drop_left' h.length_bytes

/-- What was packed, read from the bytes that arrive: the payload may have been
altered on the way. -/
theorem readFrameAsync_append {h : Header} (hr : h.InRange) (hl : h.payloadLen ≤ maxPayloadSize)
    {arrived : Bytes} (ha : arrived.length = h.payloadLen) (rest : Bytes) :
    readFrameAsync zlib (h.bytes ++ arrived ++ rest) =
      match openPayload zlib h arrived with
      | .error e => .raised e rest
      | .ok payload => .frame h.msgType h.flags payload rest := by
  unfold readFrameAsync
  rw [if_neg (by simp), h.take_bytes, unpackFrameHeader_bytes hr hl]
  simp only [h.drop_bytes]
  rw [if_neg (by simp [ha]), ← ha, List.take_left, List.drop_left]

/-- What follows a frame is not looked at. -/
theorem unpackFrame_append {h : Header} (hr : h.InRange) (hl : h.payloadLen ≤ maxPayloadSize)
    {arrived : Bytes} (ha : arrived.length = h.payloadLen) (rest : Bytes) :
    unpackFrame zlib (h.bytes ++ arrived ++ rest) =
      (openPayload zlib h arrived).map fun payload => (h.msgType, h.flags, payload) := by
  unfold unpackFrame
  rw [if_neg (by simp), h.take_bytes, unpackFrameHeader_bytes hr hl]
  simp only [h.drop_bytes]
  rw [if_neg (by simp [ha]), ← ha, List.take_left]

theorem unpackFrame_bytes {h : Header} (hr : h.InRange) (hl : h.payloadLen ≤ maxPayloadSize)
    {arrived : Bytes} (ha : arrived.length = h.payloadLen) :
    unpackFrame zlib (h.bytes ++ arrived) =
      (openPayload zlib h arrived).map fun payload => (h.msgType, h.flags, payload) := by
  have happend := @unpackFrame_append zlib h hr hl arrived ha []
  rwa [List.append_nil] at happend

/-- A payload that zlib gives back is opened as it was. -/
theorem openPayload_headerOf (hflags : flags &&& FrameFlags.isCompressed = 0)
    (hz : compress = true → zlib.decompress (zlib.compress payload) = .ok payload) :
    openPayload zlib (headerOf zlib msgType payload flags version compress)
      (compressPayload zlib payload flags compress).1 = .ok payload := by
  unfold openPayload headerOf
  by_cases hc : compress ∧ 64 < payload.length ∧ (zlib.compress payload).length < payload.length
  · have hp : compressPayload zlib payload flags compress =
        (zlib.compress payload, flags ||| FrameFlags.isCompressed) := if_pos hc
    have hbit : (flags ||| FrameFlags.isCompressed) &&& FrameFlags.isCompressed = 1 := by
      apply Nat.eq_of_testBit_eq
      intro i
      simp only [Nat.testBit_and, Nat.testBit_or, FrameFlags.isCompressed]
      cases (1 : ℕ).testBit i <;> simp
    simp only [hp, hbit, ne_eq, not_true_eq_false, if_false, one_ne_zero, not_false_eq_true,
      if_true]
    exact hz hc.1
  · have hp : compressPayload zlib payload flags compress = (payload, flags) := if_neg hc
    simp only [hp, hflags, ne_eq, not_true_eq_false, if_false]

/-- A frame that is packed and unpacked is the frame that went in. -/
theorem unpackFrame_packFrame {frame : Bytes} (hflags : flags &&& FrameFlags.isCompressed = 0)
    (hz : compress = true → zlib.decompress (zlib.compress payload) = .ok payload)
    (h : packFrame zlib msgType payload flags version compress = .ok frame) :
    unpackFrame zlib frame =
      .ok (msgType, (compressPayload zlib payload flags compress).2, payload) := by
  obtain ⟨hl, hr, rfl⟩ := packFrame_eq_ok.mp h
  rw [unpackFrame_bytes hr hl rfl, openPayload_headerOf hflags hz]
  rfl

end

section
variable {zlib : Zlib} {msgType flags version : ℕ} {payload frame : Bytes} {compress : Bool}

/-- A frame whose payload arrives as it was sent is read as it was packed. -/
theorem readFrameAsync_intact (hflags : flags &&& FrameFlags.isCompressed = 0)
    (hz : compress = true → zlib.decompress (zlib.compress payload) = .ok payload)
    (h : packFrame zlib msgType payload flags version compress = .ok frame) (rest : Bytes) :
    readFrameAsync zlib (frame ++ rest) =
      .frame msgType (compressPayload zlib payload flags compress).2 payload rest := by
  obtain ⟨hl, hr, rfl⟩ := packFrame_eq_ok.mp h
  rw [readFrameAsync_append hr hl rfl, openPayload_headerOf hflags hz]
  rfl

theorem openPayload_altered {arrived : Bytes}
    (hc : crc32 arrived ≠ crc32 (compressPayload zlib payload flags compress).1) :
    openPayload zlib (headerOf zlib msgType payload flags version compress) arrived =
      .error (.crc32VerificationError (crcMismatch msgType
        (crc32 (compressPayload zlib payload flags compress).1).toNat (crc32 arrived).toNat)) := by
  have hne : (crc32 arrived).toNat ≠
      (headerOf zlib msgType payload flags version compress).checksum :=
    fun he => hc (BitVec.eq_of_toNat_eq he)
  rw [openPayload, if_pos hne]
  rfl

/-- A frame whose payload is altered on the way, so that the checksum tells, is
refused as a whole: what is read next is the frame after it. -/
theorem readFrameAsync_altered
    (h : packFrame zlib msgType payload flags version compress = .ok frame) {arrived : Bytes}
    (ha : arrived.length = (frame.drop headerSize).length)
    (hc : crc32 arrived ≠ crc32 (frame.drop headerSize)) (rest : Bytes) :
    readFrameAsync zlib (frame.take headerSize ++ arrived ++ rest) =
      .raised (.crc32VerificationError (crcMismatch msgType
        (crc32 (frame.drop headerSize)).toNat (crc32 arrived).toNat)) rest := by
  obtain ⟨hl, hr, rfl⟩ := packFrame_eq_ok.mp h
  rw [List.drop_left' (Header.length_bytes _)] at ha hc ⊢
  rw [List.take_left' (Header.length_bytes _), readFrameAsync_append hr hl ha,
    openPayload_altered hc]

theorem unpackFrame_altered
    (h : packFrame zlib msgType payload flags version compress = .ok frame) {arrived : Bytes}
    (ha : arrived.length = (frame.drop headerSize).length)
    (hc : crc32 arrived ≠ crc32 (frame.drop headerSize)) :
    unpackFrame zlib (frame.take headerSize ++ arrived) =
      .error (.crc32VerificationError (crcMismatch msgType
        (crc32 (frame.drop headerSize)).toNat (crc32 arrived).toNat)) := by
  obtain ⟨hl, hr, rfl⟩ := packFrame_eq_ok.mp h
  rw [List.drop_left' (Header.length_bytes _)] at ha hc ⊢
  rw [List.take_left' (Header.length_bytes _), unpackFrame_bytes hr hl ha, openPayload_altered hc]
  rfl

/-- Nothing is read of a stream before a whole header is there. -/
theorem readFrameAsync_nil : readFrameAsync zlib [] = .incomplete := rfl

end

end Framing
end Sgm
