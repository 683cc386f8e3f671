import FabricEvolution.Wire.Frame

/-!
# Streams cut into chunks

* `FrameDecoder.feedAll` : the decoder over a stream, as far as the first refusal; `feedAll_eq` : how the stream is cut into
  chunks makes no difference where the limits leave room;
* `FrameDecoder.feedAll_fragments` : the frames that were encoded are delivered exactly if their lengths fit the header;
* `TcpConnection.receiveFrames` : successive calls on a connection; `Apart` : no chunk completes two frames;
* `TcpConnection.receiveFrames_iff` : every frame is returned exactly if none shares its last chunk with another.
-/

namespace FabricEvolution
open Lib

/-- The bytes of a frame on the wire. -/
def Frame.size (frame : Frame) : Nat := frameHeaderBytes + frame.payload.length

/-- The frames one behind the other. -/
def frameStream (frames : List Frame) : Bytes := frames.flatMap fun frame => frameBytes frame.payload frame.flags

def encodeFrames (limits : FrameLimits) : List Frame → Result Bytes
  | [] => .ok []
  | frame :: frames => do
    let bytes ← encodeFrame frame.payload frame.flags limits
    let later ← encodeFrames limits frames
    .ok (bytes ++ later)

/-- The decoder over a stream, chunk by chunk as far as the first refusal. -/
def FrameDecoder.feedAll (limits : FrameLimits) : Bytes → List Bytes → List Frame × Result Bytes
  | buffer, [] => ([], .ok buffer)
  | buffer, chunk :: chunks =>
    Drained.andThen (FrameDecoder.feed limits buffer chunk) fun buffer => FrameDecoder.feedAll limits buffer chunks

/-- A payload, its header and any of the chunks find room in the decoder's buffer. -/
def FrameLimits.RoomFor (limits : FrameLimits) (chunks : List Bytes) : Prop :=
  ∀ chunk ∈ chunks, limits.maxPayloadBytes + frameHeaderBytes + chunk.length ≤ limits.maxBufferedBytes

/-- A frame that a sender can encode. -/
structure Frame.Sendable (limits : FrameLimits) (frame : Frame) : Prop where
  payload : frame.payload.length ≤ limits.maxPayloadBytes
  flags : frame.flags < 256

/-- A frame that a decoder can deliver: its length fits the four bytes of the header and the payload limit. -/
structure Frame.Readable (limits : FrameLimits) (frame : Frame) : Prop where
  width : frame.payload.length < 2 ^ 32
  payload : frame.payload.length ≤ limits.maxPayloadBytes

section
variable {limits : FrameLimits} {buffer : Bytes} {frame : Frame} {frames : List Frame} {chunks : List Bytes}

/-! ## What is read at the front -/

/-- The decoder waits for less than the largest frame. -/
theorem length_of_incomplete (h : readFrame limits buffer = .incomplete) :
    buffer.length < limits.maxPayloadBytes + frameHeaderBytes := by
  unfold readFrame at h
  dsimp only at h
  split_ifs at h <;> omega

/-- A frame that is read takes its size off the buffer. -/
theorem size_of_readFrame {rest : Bytes} (h : readFrame limits buffer = .item frame rest) :
    frame.size + rest.length = buffer.length ∧ frame.Readable limits := by
  unfold readFrame at h
  dsimp only at h
  split_ifs at h with hheader hmagic hversion hcrc hlimit hshort hdamaged
  cases h
  have hlength : ((buffer.drop frameHeaderBytes).take (readLe ((buffer.drop 8).take 4))).length =
      readLe ((buffer.drop 8).take 4) := by
    rw [List.length_take, List.length_drop]
    omega
  have hwidth : readLe ((buffer.drop 8).take 4) < 256 ^ 4 :=
    (readLe_lt _).trans_le (Nat.pow_le_pow_right (by decide) (List.length_take_le 4 _))
  constructor
  · simp only [Frame.size, hlength, List.length_drop]
    omega
  · exact ⟨hlength.trans_lt hwidth, hlength.trans_le (Nat.not_lt.1 hlimit)⟩

theorem size_of_drainAll {input rest : Bytes} (h : drainAll (readFrame limits) input = (frames, .ok rest)) :
    (frames.map Frame.size).sum + rest.length = input.length := by
  generalize hlength : input.length = length
  induction length using Nat.strongRecOn generalizing input frames with
  | ind length ih =>
    have hread := stable_readFrame limits
    cases hfront : readFrame limits input with
    | incomplete =>
      rw [drainAll, drain_incomplete hfront] at h
      cases h
      rw [List.map_nil, List.sum_nil, Nat.zero_add, hlength]
    | refused refusal =>
      rw [drainAll_refused hread hfront] at h
      cases h
    | item frame later =>
      have hsize := (size_of_readFrame hfront).1
      rw [drainAll_item hread hfront] at h
      obtain ⟨rfl, hrest⟩ := Prod.mk.inj h
      have hlater : ((drainAll (readFrame limits) later).1.map Frame.size).sum + rest.length = later.length :=
        ih later.length (by rw [← hlength]; exact hread.shrinks hfront) (Prod.ext rfl hrest) rfl
      rw [List.map_cons, List.sum_cons, Nat.add_assoc, hlater, hsize, hlength]

/-- What is delivered is readable. -/
theorem readable_of_drainAll {input : Bytes} (h : frame ∈ (drainAll (readFrame limits) input).1) : frame.Readable limits := by
  generalize hlength : input.length = length
  induction length using Nat.strongRecOn generalizing input with
  | ind length ih =>
    have hread := stable_readFrame limits
    cases hfront : readFrame limits input with
    | incomplete =>
      rw [drainAll, drain_incomplete hfront] at h
      exact absurd h List.not_mem_nil
    | refused refusal =>
      rw [drainAll_refused hread hfront] at h
      exact absurd h List.not_mem_nil
    | item first later =>
      rw [drainAll_item hread hfront] at h
      rcases List.mem_cons.1 h with rfl | h
      · exact (size_of_readFrame hfront).2
      · exact ih later.length (by rw [← hlength]; exact hread.shrinks hfront) h rfl

/-! ## Chunks -/

/-- Where the limits leave room, the decoder only sees the stream. -/
theorem FrameDecoder.feedAll_eq (hroom : limits.RoomFor chunks) (h : readFrame limits buffer = .incomplete) :
    FrameDecoder.feedAll limits buffer chunks = drainAll (readFrame limits) (buffer ++ chunks.flatten) := by
  have hread := stable_readFrame limits
  rw [← chunked_eq hread h]
  induction chunks generalizing buffer with
  | nil => rfl
  | cons chunk chunks ih =>
    have hbuffer := length_of_incomplete h
    have hchunk := hroom chunk List.mem_cons_self
    rw [FrameDecoder.feedAll, chunked, feed_eq (by omega) (.inr h)]
    exact Drained.andThen_congr fun rest hrest =>
      ih (fun c hc => hroom c (List.mem_cons_of_mem _ hc)) (read_of_drainAll hread hrest)

theorem encodeFrames_eq (h : ∀ frame ∈ frames, frame.payload.length ≤ limits.maxPayloadBytes) :
    encodeFrames limits frames = .ok (frameStream frames) := by
  induction frames with
  | nil => rfl
  | cons frame frames ih =>
    have hframe := h frame List.mem_cons_self
    rw [encodeFrames, encodeFrame, if_neg (Nat.not_lt.2 hframe), ih fun f hf => h f (List.mem_cons_of_mem _ hf)]
    rfl

theorem readFrame_frameBytes (hsend : frame.Sendable limits) (hwidth : frame.payload.length < 2 ^ 32) (more : Bytes) :
    readFrame limits (frameBytes frame.payload frame.flags ++ more) = .item frame more :=
  (stable_readFrame limits).item_append more (readFrame_whole hsend.flags hsend.payload hwidth)

theorem drainAll_frameStream (hsend : ∀ frame ∈ frames, frame.Sendable limits)
    (hwidth : ∀ frame ∈ frames, frame.payload.length < 2 ^ 32) :
    drainAll (readFrame limits) (frameStream frames) = (frames, .ok []) := by
  induction frames with
  | nil => rfl
  | cons frame frames ih =>
    have hfront := readFrame_frameBytes (hsend frame List.mem_cons_self) (hwidth frame List.mem_cons_self) (frameStream frames)
    have hrest := ih (fun f hf => hsend f (List.mem_cons_of_mem _ hf)) fun f hf => hwidth f (List.mem_cons_of_mem _ hf)
    rw [show frameStream (frame :: frames) = frameBytes frame.payload frame.flags ++ frameStream frames from rfl,
      drainAll_item (stable_readFrame limits) hfront, hrest]

/-- However the encoded frames are cut into chunks, they are delivered in their order exactly if every length fits the four
bytes that the header has for it; and any stream at all is read in the same way however it is cut. -/
theorem FrameDecoder.feedAll_fragments (limits : FrameLimits) :
    (∀ frames : List Frame, (∀ frame ∈ frames, frame.Sendable limits) →
      ∃ stream, encodeFrames limits frames = .ok stream ∧
        ∀ chunks, limits.RoomFor chunks → chunks.flatten = stream →
          ((∃ buffer, FrameDecoder.feedAll limits [] chunks = (frames, .ok buffer) ∧ FrameDecoder.finish buffer = .ok ()) ↔
            ∀ frame ∈ frames, frame.payload.length < 2 ^ 32)) ∧
      ∀ chunks chunks', limits.RoomFor chunks → limits.RoomFor chunks' → chunks.flatten = chunks'.flatten →
        FrameDecoder.feedAll limits [] chunks = FrameDecoder.feedAll limits [] chunks' := by
  have hnil : readFrame limits [] = .incomplete := rfl
  refine ⟨fun frames hsend => ⟨frameStream frames, encodeFrames_eq fun f hf => (hsend f hf).payload, ?_⟩, ?_⟩
  · intro chunks hroom hstream
    rw [FrameDecoder.feedAll_eq hroom hnil, List.nil_append, hstream]
    constructor
    · rintro ⟨buffer, hdelivered, -⟩ frame hframe
      have hmem : frame ∈ (drainAll (readFrame limits) (frameStream frames)).1 := by rwa [hdelivered]
      exact (readable_of_drainAll hmem).width
    · intro hwidth
      exact ⟨[], drainAll_frameStream hsend hwidth, rfl⟩
  · intro chunks chunks' hroom hroom' hsame
    rw [FrameDecoder.feedAll_eq hroom hnil, FrameDecoder.feedAll_eq hroom' hnil, hsame]

/-- Limits that permit a payload of 2^32 bytes. -/
def wideFrames : FrameLimits := ⟨2 ^ 32, 2 ^ 34⟩

theorem not_delivered_of_long {payload : Bytes} (h : payload.length = 2 ^ 32) :
    Frame.Sendable wideFrames ⟨payload, 0⟩ ∧ wideFrames.RoomFor [frameBytes payload 0] ∧
      encodeFrames wideFrames [⟨payload, 0⟩] = .ok [frameBytes payload 0].flatten ∧
        (FrameDecoder.feedAll wideFrames [] [frameBytes payload 0]).1 ≠ [⟨payload, 0⟩] := by
  have hsend : Frame.Sendable wideFrames ⟨payload, 0⟩ := ⟨h.le, show 0 < 256 by decide⟩
  have hroom : wideFrames.RoomFor [frameBytes payload 0] := by
    intro chunk hchunk
    rw [List.mem_singleton.1 hchunk, length_frameBytes, h]
    show 2 ^ 32 + 20 + (20 + 2 ^ 32) ≤ 2 ^ 34
    omega
  refine ⟨hsend, hroom, encodeFrames_eq fun f hf => List.mem_singleton.1 hf ▸ hsend.payload, fun hdelivered => ?_⟩
  rw [FrameDecoder.feedAll_eq hroom rfl] at hdelivered
  have hmem : (⟨payload, 0⟩ : Frame) ∈ [⟨payload, 0⟩] := List.mem_singleton_self _
  rw [← hdelivered] at hmem
  have hwidth : payload.length < 2 ^ 32 := (readable_of_drainAll hmem).width
  omega

/-- A payload of 2^32 bytes is encoded, with the length 0 in its header, and is not delivered. -/
theorem FrameDecoder.feedAll_long :
    Frame.Sendable wideFrames ⟨List.replicate (2 ^ 32) 'a', 0⟩ ∧
      wideFrames.RoomFor [frameBytes (List.replicate (2 ^ 32) 'a') 0] ∧
      encodeFrames wideFrames [⟨List.replicate (2 ^ 32) 'a', 0⟩] = .ok [frameBytes (List.replicate (2 ^ 32) 'a') 0].flatten ∧
      (FrameDecoder.feedAll wideFrames [] [frameBytes (List.replicate (2 ^ 32) 'a') 0]).1 ≠
        [⟨List.replicate (2 ^ 32) 'a', 0⟩] :=
  not_delivered_of_long List.length_replicate

/-! ## Successive calls -/

/-- What successive calls return. -/
def TcpConnection.receiveFrames (limits : FrameLimits) : Nat → Bytes → List Bytes → List (Result Frame)
  | 0, _, _ => []
  | calls + 1, buffer, chunks =>
    match TcpConnection.receiveFrame limits buffer chunks with
    | (result, buffer, chunks) => result :: TcpConnection.receiveFrames limits calls buffer chunks

/-- Behind `buffered` bytes of the first frame, no chunk completes two frames, and each finds room in the buffer. -/
def Apart (limits : FrameLimits) : Nat → List Frame → List Bytes → Prop
  | _, _, [] => True
  | _, [], _ :: _ => True
  | buffered, frame :: frames, chunk :: chunks =>
    buffered + chunk.length ≤ limits.maxBufferedBytes ∧
      if buffered + chunk.length < frame.size then Apart limits (buffered + chunk.length) (frame :: frames) chunks
      else (∀ next ∈ frames.head?, buffered + chunk.length - frame.size < next.size) ∧
        Apart limits (buffered + chunk.length - frame.size) frames chunks

/-- What a call returns has been taken off the stream. -/
theorem TcpConnection.size_of_receiveFrame {buffer' : Bytes} {chunks' : List Bytes}
    (h : TcpConnection.receiveFrame limits buffer chunks = (.ok frame, buffer', chunks')) :
    frame.size + buffer'.length + chunks'.flatten.length ≤ buffer.length + chunks.flatten.length := by
  induction chunks generalizing buffer with
  | nil => cases h
  | cons chunk chunks ih =>
    rw [TcpConnection.receiveFrame] at h
    by_cases hempty : chunk = []
    · rw [if_pos hempty] at h
      cases h
    rw [if_neg hempty] at h
    rw [List.flatten_cons, List.length_append]
    by_cases hroom : buffer.length + chunk.length ≤ limits.maxBufferedBytes
    · rw [feed_eq hroom (.inl hempty)] at h
      split at h
      · cases h
      · rename_i first frames rest hdrained
        have hsize := size_of_drainAll hdrained
        cases h
        rw [List.length_append, List.map_cons, List.sum_cons] at hsize
        omega
      · rename_i rest hdrained
        have hsize := size_of_drainAll hdrained
        have := ih h
        rw [List.length_append, List.map_nil, List.sum_nil] at hsize
        omega
    · rw [FrameDecoder.feed, if_neg hempty, if_pos (Nat.not_le.1 hroom)] at h
      cases h

theorem TcpConnection.size_of_receiveFrames
    (h : TcpConnection.receiveFrames limits frames.length buffer chunks = frames.map .ok) :
    (frames.map Frame.size).sum ≤ buffer.length + chunks.flatten.length := by
  induction frames generalizing buffer chunks with
  | nil => exact Nat.zero_le _
  | cons frame frames ih =>
    rw [List.length_cons, TcpConnection.receiveFrames] at h
    split at h
    rename_i result buffer' chunks' hcall
    rw [List.map_cons, List.cons.injEq] at h
    obtain ⟨rfl, hlater⟩ := h
    have hsize := TcpConnection.size_of_receiveFrame hcall
    have := ih hlater
    rw [List.map_cons, List.sum_cons]
    omega

/-- A chunk behind which the first frame is not complete leaves the call waiting. -/
theorem TcpConnection.receiveFrame_wait {chunk : Bytes} (hempty : chunk ≠ [])
    (hroom : buffer.length + chunk.length ≤ limits.maxBufferedBytes) (h : readFrame limits (buffer ++ chunk) = .incomplete)
    (chunks : List Bytes) :
    TcpConnection.receiveFrame limits buffer (chunk :: chunks) = TcpConnection.receiveFrame limits (buffer ++ chunk) chunks := by
  rw [TcpConnection.receiveFrame, if_neg hempty, feed_eq hroom (.inl hempty), drainAll, drain_incomplete h]

/-- A chunk that completes the first frame ends the call, and the frames behind it are dropped. -/
theorem TcpConnection.receiveFrame_complete {chunk left : Bytes} (hempty : chunk ≠ [])
    (hroom : buffer.length + chunk.length ≤ limits.maxBufferedBytes)
    (h : drainAll (readFrame limits) (buffer ++ chunk) =
      (frame :: (drainAll (readFrame limits) left).1, (drainAll (readFrame limits) left).2)) (chunks : List Bytes) :
    TcpConnection.receiveFrame limits buffer (chunk :: chunks) =
      match (drainAll (readFrame limits) left).2 with
      | .error refusal => (.error refusal, [], chunks)
      | .ok rest => (.ok frame, rest, chunks) := by
  rw [TcpConnection.receiveFrame, if_neg hempty, feed_eq hroom (.inl hempty), h]
  cases (drainAll (readFrame limits) left).2 <;> rfl

theorem length_frameStream (frames : List Frame) : (frameStream frames).length = (frames.map Frame.size).sum := by
  rw [frameStream, List.length_flatMap]
  exact congrArg List.sum (List.map_congr_left fun frame _ => length_frameBytes _ _)

/-- Less than the first frame is waited on. -/
theorem readFrame_waiting (hsend : ∀ frame ∈ frames, frame.Sendable limits)
    (hwidth : ∀ frame ∈ frames, frame.payload.length < 2 ^ 32) (hfront : buffer <+: frameStream frames)
    (hshort : ∀ frame ∈ frames.head?, buffer.length < frame.size) : readFrame limits buffer = .incomplete := by
  cases frames with
  | nil =>
    rw [List.prefix_nil.1 hfront]
    rfl
  | cons frame frames =>
    have hlength : buffer.length < (frameBytes frame.payload frame.flags).length := by
      rw [length_frameBytes]
      exact hshort frame rfl
    have hfirst : buffer <+: frameBytes frame.payload frame.flags :=
      List.prefix_of_prefix_length_le hfront (List.prefix_append _ _) hlength.le
    exact readFrame_short hfirst (hsend frame List.mem_cons_self).payload (hwidth frame List.mem_cons_self) hlength

/-- The first frame is read once it is complete. -/
theorem drainAll_complete (hsend : frame.Sendable limits) (hwidth : frame.payload.length < 2 ^ 32)
    (hfront : buffer <+: frameStream (frame :: frames)) (hlong : frame.size ≤ buffer.length) :
    ∃ left, buffer = frameBytes frame.payload frame.flags ++ left ∧ drainAll (readFrame limits) buffer =
      (frame :: (drainAll (readFrame limits) left).1, (drainAll (readFrame limits) left).2) := by
  have hfirst : frameBytes frame.payload frame.flags <+: buffer := by
    refine List.prefix_of_prefix_length_le (List.prefix_append _ _) hfront ?_
    rwa [length_frameBytes]
  obtain ⟨left, rfl⟩ := hfirst
  exact ⟨left, rfl, drainAll_item (stable_readFrame limits) (readFrame_frameBytes hsend hwidth left)⟩

/-- A frame that is completed together with the one before is lost: what is left is too short for all that are missing. -/
theorem TcpConnection.lost {left rest : Bytes} {lost : List Frame} (hlost : lost ≠ [])
    (hdrained : drainAll (readFrame limits) left = (lost, .ok rest)) (hstream : left ++ chunks.flatten = frameStream frames) :
    TcpConnection.receiveFrames limits frames.length rest chunks ≠ frames.map .ok := by
  intro hall
  have hsize := size_of_drainAll hdrained
  have hneeded := TcpConnection.size_of_receiveFrames hall
  have hlength := congrArg List.length hstream
  rw [List.length_append, length_frameStream] at hlength
  obtain ⟨frame, lost, rfl⟩ := List.exists_cons_of_ne_nil hlost
  rw [List.map_cons, List.sum_cons, Frame.size, frameHeaderBytes] at hsize
  omega

/-- The frames at hand are returned one a call exactly if no chunk completes two of them. -/
theorem TcpConnection.receiveFrames_apart (hsend : ∀ frame ∈ frames, frame.Sendable limits)
    (hwidth : ∀ frame ∈ frames, frame.payload.length < 2 ^ 32) (hchunks : ∀ chunk ∈ chunks, chunk ≠ [])
    (hshort : ∀ frame ∈ frames.head?, buffer.length < frame.size) (hstream : buffer ++ chunks.flatten = frameStream frames) :
    TcpConnection.receiveFrames limits frames.length buffer chunks = frames.map .ok ↔ Apart limits buffer.length frames chunks := by
  induction chunks generalizing buffer frames with
  | nil =>
    cases frames with
    | nil => exact iff_of_true rfl trivial
    | cons frame frames =>
      -- The stream ends with a frame.
      have hlength := congrArg List.length hstream
      rw [List.flatten_nil, List.append_nil, length_frameStream, List.map_cons, List.sum_cons] at hlength
      have := hshort frame rfl
      omega
  | cons chunk chunks ih =>
    cases frames with
    | nil => exact iff_of_true rfl trivial
    | cons frame frames =>
      have hread := stable_readFrame limits
      have hne : chunk ≠ [] := hchunks chunk List.mem_cons_self
      have hlater : ∀ c ∈ chunks, c ≠ [] := fun c hc => hchunks c (List.mem_cons_of_mem _ hc)
      rw [List.flatten_cons, ← List.append_assoc] at hstream
      rw [Apart, List.length_cons]
      by_cases hroom : buffer.length + chunk.length ≤ limits.maxBufferedBytes
      swap
      · refine iff_of_false (fun h => ?_) fun h => hroom h.1
        rw [receiveFrames, receiveFrame, if_neg hne, FrameDecoder.feed, if_neg hne, if_pos (Nat.not_le.1 hroom)] at h
        cases h
      rw [and_iff_right hroom]
      by_cases hpart : buffer.length + chunk.length < frame.size
      · have hwaiting : ∀ f ∈ (frame :: frames).head?, (buffer ++ chunk).length < f.size := by
          intro f hf
          cases hf
          rwa [List.length_append]
        have hwait := receiveFrame_wait hne hroom (readFrame_waiting hsend hwidth ⟨_, hstream⟩ hwaiting) chunks
        have hrest := ih hsend hwidth hlater hwaiting hstream
        rw [List.length_append, List.length_cons] at hrest
        rw [if_pos hpart, ← hrest, receiveFrames, receiveFrames, hwait]
      · rw [if_neg hpart]
        -- The chunk completes the first frame.
        obtain ⟨left, hleft, hdrained⟩ := drainAll_complete (hsend frame List.mem_cons_self) (hwidth frame List.mem_cons_self)
          ⟨_, hstream⟩ (by rw [List.length_append]; omega)
        have hlength : buffer.length + chunk.length - frame.size = left.length := by
          have := congrArg List.length hleft
          rw [List.length_append, List.length_append, length_frameBytes] at this
          rw [Frame.size]
          omega
        have hbehind : left ++ chunks.flatten = frameStream frames := by
          rw [hleft, List.append_assoc] at hstream
          exact List.append_cancel_left hstream
        have hsend' : ∀ f ∈ frames, f.Sendable limits := fun f hf => hsend f (List.mem_cons_of_mem _ hf)
        have hwidth' : ∀ f ∈ frames, f.payload.length < 2 ^ 32 := fun f hf => hwidth f (List.mem_cons_of_mem _ hf)
        have hcall := receiveFrame_complete hne hroom hdrained chunks
        rw [hlength, receiveFrames, hcall]
        by_cases hnext : ∀ next ∈ frames.head?, left.length < next.size
        · have hwait := readFrame_waiting hsend' hwidth' ⟨_, hbehind⟩ hnext
          rw [and_iff_right hnext, ← ih hsend' hwidth' hlater hnext hbehind, drainAll, drain_incomplete hwait]
          simp
        · -- So does the frame behind it.
          refine iff_of_false (fun h => ?_) fun h => hnext h.1
          cases frames with
          | nil => exact hnext fun _ hf => by cases hf
          | cons next frames =>
            have hlong : next.size ≤ left.length := Nat.not_lt.1 fun hlt => hnext fun f hf => Option.some.inj hf ▸ hlt
            obtain ⟨_, -, hnextDrained⟩ := drainAll_complete (hsend' next List.mem_cons_self) (hwidth' next List.mem_cons_self)
              ⟨_, hbehind⟩ hlong
            cases hrest : (drainAll (readFrame limits) left).2 with
            | error refusal =>
              rw [hrest] at h
              cases h
            | ok rest =>
              rw [hrest] at h
              have hlost : (drainAll (readFrame limits) left).1 ≠ [] := by simp [hnextDrained]
              exact lost hlost (Prod.ext rfl hrest) hbehind (List.cons.inj h).2

theorem TcpConnection.readable_of_receiveFrame {buffer' : Bytes} {chunks' : List Bytes}
    (h : TcpConnection.receiveFrame limits buffer chunks = (.ok frame, buffer', chunks')) : frame.Readable limits := by
  induction chunks generalizing buffer with
  | nil => cases h
  | cons chunk chunks ih =>
    rw [TcpConnection.receiveFrame] at h
    by_cases hempty : chunk = []
    · rw [if_pos hempty] at h
      cases h
    rw [if_neg hempty] at h
    by_cases hroom : buffer.length + chunk.length ≤ limits.maxBufferedBytes
    · rw [feed_eq hroom (.inl hempty)] at h
      split at h
      · cases h
      · rename_i first frames rest hdrained
        have hmem : first ∈ (drainAll (readFrame limits) (buffer ++ chunk)).1 := by
          rw [hdrained]
          exact List.mem_cons_self
        cases h
        exact readable_of_drainAll hmem
      · exact ih h
    · rw [FrameDecoder.feed, if_neg hempty, if_pos (Nat.not_le.1 hroom)] at h
      cases h

theorem TcpConnection.readable_of_receiveFrames
    (h : TcpConnection.receiveFrames limits frames.length buffer chunks = frames.map .ok) :
    ∀ frame ∈ frames, frame.Readable limits := by
  induction frames generalizing buffer chunks with
  | nil => exact fun _ hf => absurd hf List.not_mem_nil
  | cons frame frames ih =>
    rw [List.length_cons, TcpConnection.receiveFrames] at h
    split at h
    rename_i result buffer' chunks' hcall
    rw [List.map_cons, List.cons.injEq] at h
    obtain ⟨rfl, hlater⟩ := h
    exact List.forall_mem_cons.2 ⟨TcpConnection.readable_of_receiveFrame hcall, ih hlater⟩

/-- Successive calls return the frames that were sent, each once and in their order, exactly if the length of each fits its
header and the receiver's limit, no chunk completes two of them, and each chunk finds room behind what is buffered. -/
theorem TcpConnection.receiveFrames_iff {sender : FrameLimits} {stream : Bytes} (hsend : ∀ frame ∈ frames, frame.Sendable sender)
    (hstream : encodeFrames sender frames = .ok stream) (hchunks : ∀ chunk ∈ chunks, chunk ≠ []) (hcut : chunks.flatten = stream) :
    TcpConnection.receiveFrames limits frames.length [] chunks = frames.map .ok ↔
      (∀ frame ∈ frames, frame.Readable limits) ∧ Apart limits 0 frames chunks := by
  rw [encodeFrames_eq fun f hf => (hsend f hf).payload] at hstream
  cases hstream
  have hshort : ∀ frame ∈ frames.head?, ([] : Bytes).length < frame.size := by
    intro frame _
    rw [Frame.size, frameHeaderBytes]
    exact Nat.add_pos_left (by decide) _
  have hapart : (∀ frame ∈ frames, frame.Readable limits) →
      (TcpConnection.receiveFrames limits frames.length [] chunks = frames.map .ok ↔ Apart limits 0 frames chunks) :=
    fun hreadable => TcpConnection.receiveFrames_apart (fun f hf => ⟨(hreadable f hf).payload, (hsend f hf).flags⟩)
      (fun f hf => (hreadable f hf).width) hchunks hshort hcut
  constructor
  · intro h
    have hreadable := TcpConnection.readable_of_receiveFrames h
    exact ⟨hreadable, (hapart hreadable).1 h⟩
  · rintro ⟨hreadable, h⟩
    exact (hapart hreadable).2 h

/-- Two frames, as two requests make them. -/
def twoFrames : List Frame := [⟨['a'], 0⟩, ⟨['b'], 1⟩]

theorem sendable_twoFrames : ∀ frame ∈ twoFrames, frame.Sendable {} := by
  intro frame hframe
  rcases List.mem_cons.1 hframe with rfl | hframe
  · exact ⟨by decide, by decide⟩
  · rw [List.mem_singleton.1 hframe]
    exact ⟨by decide, by decide⟩

/-- Two frames in a chunk each are both returned. -/
theorem TcpConnection.receiveFrames_two :
    TcpConnection.receiveFrames {} 2 [] [frameBytes ['a'] 0, frameBytes ['b'] 1] = twoFrames.map .ok := by
  have hne : ∀ chunk ∈ [frameBytes ['a'] 0, frameBytes ['b'] 1], chunk ≠ [] := by
    intro chunk hchunk
    rcases List.mem_cons.1 hchunk with rfl | hchunk
    · exact List.ne_nil_of_length_pos (by simp [frameHeaderBytes])
    · rw [List.mem_singleton.1 hchunk]
      exact List.ne_nil_of_length_pos (by simp [frameHeaderBytes])
  have hreadable : ∀ frame ∈ twoFrames, frame.Readable {} := by
    intro frame hframe
    have hlimit := (sendable_twoFrames frame hframe).payload
    exact ⟨hlimit.trans_lt (by decide), hlimit⟩
  have hapart : Apart {} 0 twoFrames [frameBytes ['a'] 0, frameBytes ['b'] 1] := by
    simp [Apart, twoFrames, Frame.size, frameHeaderBytes]
  exact (TcpConnection.receiveFrames_iff sendable_twoFrames (encodeFrames_eq fun f hf => (sendable_twoFrames f hf).payload) hne
    (by simp [frameStream, twoFrames])).2 ⟨hreadable, hapart⟩

/-- Two frames that arrive in one chunk: the second is lost. -/
theorem TcpConnection.receiveFrames_one_chunk :
    (∀ frame ∈ twoFrames, frame.Sendable {}) ∧ encodeFrames {} twoFrames = .ok (frameStream twoFrames) ∧
      TcpConnection.receiveFrames {} 2 [] [frameStream twoFrames] ≠ twoFrames.map .ok := by
  refine ⟨sendable_twoFrames, encodeFrames_eq fun f hf => (sendable_twoFrames f hf).payload, fun h => ?_⟩
  have hreadable := TcpConnection.readable_of_receiveFrames (show TcpConnection.receiveFrames {} twoFrames.length [] _ = _ from h)
  have hlength : (frameStream twoFrames).length = 42 := length_frameStream twoFrames
  have hapart := (TcpConnection.receiveFrames_apart sendable_twoFrames (fun f hf => (hreadable f hf).width)
    (fun c hc => List.mem_singleton.1 hc ▸ List.ne_nil_of_length_pos (by omega)) (by simp [twoFrames, Frame.size, frameHeaderBytes])
    (by simp)).1 h
  simp [Apart, twoFrames, Frame.size, frameHeaderBytes] at hapart
  simp [twoFrames] at hlength
  omega

end

end FabricEvolution
