import WaxxyLive.LiveKit.RtmpChunk
import WaxxyLive.LiveKit.StreamingBuffer

/-!
# The media messages of a connection

What the socket makes of a frame. The first video frame and the first audio
frame of a connection are sent as the headers of their stream, all others as
data. `readTag` is the peer's side: what an FLV reader finds in a body.
-/

namespace WaxxyLive.LiveKit

open Bytes Rtmp

/-- `RTMP_PACKET_TYPE_AUDIO` and `RTMP_PACKET_TYPE_VIDEO` -/
def packetTypeAudio : UInt8 := 0x08
def packetTypeVideo : UInt8 := 0x09

/-! ## Bodies -/

/-- The body of `sendVideoHeader:`. It is `none` where the code reads behind an
`sps` of fewer than four bytes or writes behind its 1024 bytes. -/
def videoHeaderBody (sps pps : List UInt8) : Option (List UInt8) :=
  if 4 ≤ sps.length ∧ 16 + sps.length + pps.length ≤ 1024 then
    some ([0x17, 0x00, 0x00, 0x00, 0x00, 0x01] ++ (sps.drop 1).take 3 ++ [0xff] ++
      [0xe1] ++ encodeInt16 sps.length ++ sps ++ [0x01] ++ encodeInt16 pps.length ++ pps)
  else none

/-- The body of `sendVideo:`. -/
def videoBody (isKeyFrame : Bool) (data : List UInt8) : List UInt8 :=
  [if isKeyFrame then 0x17 else 0x27, 0x01, 0x00, 0x00, 0x00] ++ encodeInt32 data.length ++ data

/-- The body of `sendAudioHeader:`. -/
def audioHeaderBody (audioInfo : List UInt8) : List UInt8 := [0xaf, 0x00] ++ audioInfo

/-- The body of `sendAudio:`. -/
def audioBody (data : List UInt8) : List UInt8 := [0xaf, 0x01] ++ data

/-- `sendPacket:data:size:nTimestamp:` on a connection of this stream. -/
def mediaPacket (streamId : UInt32) (nPacketType : UInt8) (data : List UInt8)
    (nTimestamp : UInt64) : RTMPPacket where
  headerType := if packetTypeAudio = nPacketType ∧ data.length ≠ 4 then sizeMedium else sizeLarge
  packetType := nPacketType
  nChannel := 0x04
  nTimeStamp := nTimestamp.toUInt32
  nInfoField2 := streamId
  nBodySize := data.length % 2 ^ 32
  body := data

/-! ## What a frame is sent as -/

/-- `sendVideoHead` and `sendAudioHead`. -/
structure Heads where
  video : Bool := false
  audio : Bool := false
  deriving DecidableEq, Repr

def Heads.after (h : Heads) (frame : LFFrame) : Heads :=
  if frame.isVideo then { h with video := true } else { h with audio := true }

/-- The packet that the block of `sendFrame` makes of a frame: the header of a
stream whose head is missing, if the frame has it, and the data otherwise. The
outer option is `none` where `sendVideoHeader:` goes out of bounds. -/
def Heads.packet (h : Heads) (streamId : UInt32) (frame : LFFrame) :
    Option (Option RTMPPacket) :=
  match frame.kind with
  | .video isKeyFrame sps pps =>
    if !h.video then
      match sps, pps with
      | some sps, some pps =>
        (videoHeaderBody sps pps).map fun body =>
          some (mediaPacket streamId packetTypeVideo body 0)
      | _, _ => some none
    else some (some
      (mediaPacket streamId packetTypeVideo (videoBody isKeyFrame frame.data) frame.timestamp))
  | .audio audioInfo =>
    if !h.audio then
      match audioInfo with
      | some info => some (some (mediaPacket streamId packetTypeAudio (audioHeaderBody info) 0))
      | none => some none
    else some (some (mediaPacket streamId packetTypeAudio (audioBody frame.data) frame.timestamp))

/-! ## What the peer reads -/

inductive Tag where
  | avcConfig (profile compatibility level : UInt8) (sps pps : List UInt8)
  | avcNalu (isKeyFrame : Bool) (data : List UInt8)
  | aacConfig (info : List UInt8)
  | aacRaw (data : List UInt8)
  deriving DecidableEq, Repr

/-- A block of bytes behind its length in `w` bytes. -/
def readBlock (w : Nat) (bytes : List UInt8) : Option (List UInt8 × List UInt8) := do
  let (n, bytes) ← takeN w bytes
  takeN (unbe n) bytes

/-- The configuration record of one `sps` and one `pps`, at the end of a body. -/
def readConfig : List UInt8 → Option Tag
  | 0x01 :: profile :: compatibility :: level :: _ :: 0xe1 :: bytes => do
    let (sps, bytes) ← readBlock 2 bytes
    match bytes with
    | 0x01 :: bytes => do
      let (pps, bytes) ← readBlock 2 bytes
      if bytes = [] then some (.avcConfig profile compatibility level sps pps) else none
    | _ => none
  | _ => none

def readNalu (isKeyFrame : Bool) (bytes : List UInt8) : Option Tag := do
  let (data, bytes) ← readBlock 4 bytes
  if bytes = [] then some (.avcNalu isKeyFrame data) else none

/-- The tag in the body of a media message. -/
def readTag (packetType : UInt8) : List UInt8 → Option Tag
  | 0x17 :: 0x00 :: _ :: _ :: _ :: bytes =>
    if packetType = packetTypeVideo then readConfig bytes else none
  | 0x17 :: 0x01 :: _ :: _ :: _ :: bytes =>
    if packetType = packetTypeVideo then readNalu true bytes else none
  | 0x27 :: 0x01 :: _ :: _ :: _ :: bytes =>
    if packetType = packetTypeVideo then readNalu false bytes else none
  | 0xaf :: 0x00 :: info => if packetType = packetTypeAudio then some (.aacConfig info) else none
  | 0xaf :: 0x01 :: data => if packetType = packetTypeAudio then some (.aacRaw data) else none
  | _ => none

theorem readBlock_append {w : Nat} {data : List UInt8} (h : data.length < 256 ^ w)
    (rest : List UInt8) : readBlock w (be w data.length ++ (data ++ rest)) = some (data, rest) := by
  have hlen : takeN w (be w data.length ++ (data ++ rest)) =
      some (be w data.length, data ++ rest) := takeN_append (length_be w data.length)
  have hdata : takeN (unbe (be w data.length)) (data ++ rest) = some (data, rest) := by
    rw [unbe_be_of_lt h]
    exact takeN_append rfl
  simp [readBlock, hlen, hdata]

theorem readTag_videoBody (isKeyFrame : Bool) {data : List UInt8} (h : data.length < 2 ^ 32) :
    readTag packetTypeVideo (videoBody isKeyFrame data) = some (.avcNalu isKeyFrame data) := by
  have hblock : readBlock 4 (encodeInt32 data.length ++ data) = some (data, []) := by
    have hlen : data.length < 256 ^ 4 := by omega
    have hread := readBlock_append hlen []
    rwa [List.append_nil] at hread
  have hnalu : readNalu isKeyFrame (encodeInt32 data.length ++ data) =
      some (.avcNalu isKeyFrame data) := by
    simp [readNalu, hblock]
  cases isKeyFrame <;> simpa [videoBody, readTag] using hnalu

theorem readTag_videoHeaderBody {sps pps body : List UInt8}
    (h : videoHeaderBody sps pps = some body) :
    readTag packetTypeVideo body =
      some (.avcConfig (sps.getD 1 0) (sps.getD 2 0) (sps.getD 3 0) sps pps) := by
  unfold videoHeaderBody at h
  split at h
  · next hfit =>
    obtain ⟨b₀, b₁, b₂, b₃, more, rfl⟩ : ∃ b₀ b₁ b₂ b₃ more, sps = b₀ :: b₁ :: b₂ :: b₃ :: more := by
      match sps, hfit.1 with
      | b₀ :: b₁ :: b₂ :: b₃ :: more, _ => exact ⟨b₀, b₁, b₂, b₃, more, rfl⟩
    generalize hsps : b₀ :: b₁ :: b₂ :: b₃ :: more = sps at h hfit ⊢
    have hfirst : readBlock 2 (encodeInt16 sps.length ++
        (sps ++ 0x01 :: (encodeInt16 pps.length ++ pps))) =
        some (sps, 0x01 :: (encodeInt16 pps.length ++ pps)) :=
      readBlock_append (by omega) _
    have hsecond : readBlock 2 (encodeInt16 pps.length ++ pps) = some (pps, []) := by
      have hlen : pps.length < 256 ^ 2 := by omega
      have hread := readBlock_append hlen []
      rwa [List.append_nil] at hread
    have htake : (sps.drop 1).take 3 = [b₁, b₂, b₃] := by simp [← hsps]
    obtain rfl := Option.some.inj h
    rw [htake]
    have hget : sps.getD 1 0 = b₁ ∧ sps.getD 2 0 = b₂ ∧ sps.getD 3 0 = b₃ := by
      simp [← hsps]
    rw [hget.1, hget.2.1, hget.2.2]
    simp [readTag, readConfig, hfirst, hsecond]
  · simp at h

theorem readTag_audioHeaderBody (info : List UInt8) :
    readTag packetTypeAudio (audioHeaderBody info) = some (.aacConfig info) := by
  simp [readTag, audioHeaderBody]

theorem readTag_audioBody (data : List UInt8) :
    readTag packetTypeAudio (audioBody data) = some (.aacRaw data) := by
  simp [readTag, audioBody]

/-! ## The frames of a connection -/

/-- What the peer is to understand of a frame. -/
def Heads.tag (h : Heads) (frame : LFFrame) : Option Tag :=
  match frame.kind with
  | .video isKeyFrame sps pps =>
    if h.video then some (.avcNalu isKeyFrame frame.data)
    else sps.bind fun sps => pps.map fun pps =>
      .avcConfig (sps.getD 1 0) (sps.getD 2 0) (sps.getD 3 0) sps pps
  | .audio audioInfo =>
    if h.audio then some (.aacRaw frame.data) else audioInfo.map .aacConfig

/-- The packets of the frames that a connection writes, in order. -/
def Heads.packets (streamId : UInt32) : Heads → List LFFrame → List RTMPPacket
  | _, [] => []
  | h, frame :: frames =>
    ((h.packet streamId frame).getD none).toList ++ Heads.packets streamId (h.after frame) frames

def Heads.tags : Heads → List LFFrame → List Tag
  | _, [] => []
  | h, frame :: frames => (h.tag frame).toList ++ Heads.tags (h.after frame) frames

/-- The frame's message stays inside the buffers and fits in one RTMP message. -/
structure Fits (frame : LFFrame) : Prop where
  data : frame.data.length + 9 < 2 ^ 24
  video : ∀ isKeyFrame sps pps, frame.kind = .video isKeyFrame (some sps) (some pps) →
    4 ≤ sps.length ∧ 16 + sps.length + pps.length ≤ 1024
  audio : ∀ info, frame.kind = .audio (some info) → info.length + 2 < 2 ^ 24

/-- A frame is sent as a packet whose body is read back as its tag, or not at
all where it has no header to give. -/
theorem Heads.packet_cases (h : Heads) (streamId : UInt32) {frame : LFFrame} (hf : Fits frame) :
    (h.packet streamId frame = some none ∧ h.tag frame = none) ∨
    ∃ packetType body time tag,
      h.packet streamId frame = some (some (mediaPacket streamId packetType body time)) ∧
      h.tag frame = some tag ∧ body.length < 2 ^ 24 ∧ readTag packetType body = some tag := by
  have hdata := hf.data
  cases hkind : frame.kind with
  | video isKeyFrame sps pps =>
    by_cases hhead : h.video = true
    · right
      refine ⟨packetTypeVideo, videoBody isKeyFrame frame.data, frame.timestamp,
        .avcNalu isKeyFrame frame.data, by simp [packet, hkind, hhead],
        by simp [tag, hkind, hhead], ?_, readTag_videoBody isKeyFrame (by omega)⟩
      simp [videoBody, encodeInt32]
      omega
    · cases sps with
      | none => exact Or.inl ⟨by simp [packet, hkind, hhead], by simp [tag, hkind, hhead]⟩
      | some sps =>
        cases pps with
        | none => exact Or.inl ⟨by simp [packet, hkind, hhead], by simp [tag, hkind, hhead]⟩
        | some pps =>
          right
          have hfit := hf.video isKeyFrame sps pps hkind
          obtain ⟨body, hbody⟩ : ∃ body, videoHeaderBody sps pps = some body :=
            ⟨_, if_pos hfit⟩
          refine ⟨packetTypeVideo, body, 0, _, by simp [packet, hkind, hhead, hbody],
            by simp [tag, hkind, hhead], ?_, readTag_videoHeaderBody hbody⟩
          rw [videoHeaderBody, if_pos hfit] at hbody
          obtain rfl := Option.some.inj hbody
          simp [encodeInt16]
          omega
  | audio audioInfo =>
    by_cases hhead : h.audio = true
    · right
      refine ⟨packetTypeAudio, audioBody frame.data, frame.timestamp, .aacRaw frame.data,
        by simp [packet, hkind, hhead], by simp [tag, hkind, hhead], ?_,
        readTag_audioBody frame.data⟩
      simp [audioBody]
      omega
    · cases audioInfo with
      | none => exact Or.inl ⟨by simp [packet, hkind, hhead], by simp [tag, hkind, hhead]⟩
      | some info =>
        right
        have hinfo := hf.audio info hkind
        refine ⟨packetTypeAudio, audioHeaderBody info, 0, .aacConfig info,
          by simp [packet, hkind, hhead], by simp [tag, hkind, hhead], ?_,
          readTag_audioHeaderBody info⟩
        simp [audioHeaderBody]
        omega

end WaxxyLive.LiveKit
