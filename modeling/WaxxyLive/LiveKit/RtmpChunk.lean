import WaxxyLive.Lib.Bytes
import Mathlib.Logic.Function.Basic

/-!
# The RTMP chunk stream

`sendPacket` writes a message as a header and the chunks of its body;
`readPacket` takes one chunk off the wire and gives the message back with its
last chunk. Headers are compressed against the previous message of the channel,
so both sides keep a table of channels.
-/

namespace WaxxyLive.Rtmp

open Bytes

/-! ## Packets -/

/-- `PILI_RTMPPacket`. `body` holds the bytes that `m_body` has so far: all of
them for a message to send, the first `m_nBytesRead` for one being read. -/
structure RTMPPacket where
  headerType : Nat := 0
  packetType : UInt8 := 0
  hasAbsTimestamp : Bool := false
  nChannel : Nat := 0
  nTimeStamp : UInt32 := 0
  nInfoField2 : UInt32 := 0
  nBodySize : Nat := 0
  body : List UInt8 := []
  deriving DecidableEq, Repr

/-- `RTMP_PACKET_SIZE_LARGE` and its three successors. -/
def sizeLarge : Nat := 0
def sizeMedium : Nat := 1
def sizeSmall : Nat := 2
def sizeMinimum : Nat := 3

/-- `packetSize[]`, the header's length for each header type. -/
def packetSize (headerType : Nat) : Nat := [12, 8, 4, 1].getD headerType 1

/-- `RTMPPacket_IsReady` -/
def RTMPPacket.isReady (packet : RTMPPacket) : Bool := packet.body.length == packet.nBodySize

/-- `AMF_EncodeInt16` and its siblings write the low bytes, most significant first. -/
def encodeInt16 (n : Nat) : List UInt8 := be 2 n
def encodeInt24 (n : Nat) : List UInt8 := be 3 n
def encodeInt32 (n : Nat) : List UInt8 := be 4 n
def encodeInt32LE (n : Nat) : List UInt8 := le 4 n

/-- `AMF_DecodeInt24` and its siblings read the first bytes of what they are given. -/
def decodeInt16 (data : List UInt8) : Nat := unbe (data.take 2)
def decodeInt24 (data : List UInt8) : Nat := unbe (data.take 3)
def decodeInt32 (data : List UInt8) : Nat := unbe (data.take 4)
def decodeInt32LE (data : List UInt8) : Nat := unle (data.take 4)

/-! ## Sending -/

/-- The sending half of `PILI_RTMP`. -/
structure Sender where
  outChunkSize : Nat := 128
  vecChannelsOut : Nat → Option RTMPPacket := fun _ => none

/-- The packet with its header type lowered where the previous packet of its
channel allows, and the timestamp `last` that its own is counted from. -/
def compressed (prevPacket : Option RTMPPacket) (packet : RTMPPacket) : RTMPPacket × UInt32 :=
  match prevPacket with
  | none => (packet, 0)
  | some prev =>
    if packet.headerType = sizeLarge then (packet, 0)
    else
      let packet :=
        if prev.nBodySize = packet.nBodySize ∧ prev.packetType = packet.packetType ∧
            packet.headerType = sizeMedium then { packet with headerType := sizeSmall }
        else packet
      let packet :=
        if prev.nTimeStamp = packet.nTimeStamp ∧ packet.headerType = sizeSmall then
          { packet with headerType := sizeMinimum }
        else packet
      (packet, prev.nTimeStamp)

/-- The first header byte `c`: the header type, and the channel where it fits. -/
def firstByte (headerType nChannel : Nat) : UInt8 :=
  let c := UInt8.ofNat (headerType <<< 6)
  if 319 < nChannel then c ||| 1
  else if 63 < nChannel then c
  else c ||| UInt8.ofNat nChannel

/-- The `cSize` channel bytes after it. -/
def channelBytes (nChannel : Nat) : List UInt8 :=
  if 319 < nChannel then
    [UInt8.ofNat ((nChannel - 64) &&& 0xff), UInt8.ofNat ((nChannel - 64) >>> 8)]
  else if 63 < nChannel then [UInt8.ofNat ((nChannel - 64) &&& 0xff)]
  else []

/-- The `packetSize` bytes after the channel, less the first, for a timestamp field `t`. -/
def headerFields (packet : RTMPPacket) (t : UInt32) : List UInt8 :=
  let nSize := packetSize packet.headerType
  (if 1 < nSize then encodeInt24 (if 0xffffff < t then 0xffffff else t.toNat) else []) ++
  (if 4 < nSize then encodeInt24 packet.nBodySize ++ [packet.packetType] else []) ++
  (if 8 < nSize then encodeInt32LE packet.nInfoField2.toNat else [])

/-- The extended timestamp, where `t` does not fit in the field. -/
def extendedField (packet : RTMPPacket) (t : UInt32) : List UInt8 :=
  if 1 < packetSize packet.headerType ∧ 0xffffff ≤ t then encodeInt32 t.toNat else []

def messageHeader (packet : RTMPPacket) (t : UInt32) : List UInt8 :=
  firstByte packet.headerType packet.nChannel ::
    (channelBytes packet.nChannel ++ (headerFields packet t ++ extendedField packet t))

/-- The header `0xc0 | c` of every chunk after the first. -/
def chunkHeader (packet : RTMPPacket) : List UInt8 :=
  (0xc0 ||| firstByte packet.headerType packet.nChannel) :: channelBytes packet.nChannel

/-- The loop of `sendPacket`: at most `nChunkSize` bytes of the body after each header. -/
def writeChunks (nChunkSize : Nat) (next header body : List UInt8) : List UInt8 :=
  if body.length ≤ nChunkSize ∨ nChunkSize = 0 then header ++ body
  else header ++ body.take nChunkSize ++ writeChunks nChunkSize next next (body.drop nChunkSize)
termination_by body.length
decreasing_by
  simp only [List.length_drop]
  omega

/-- `packet` becomes the previous packet of its channel. -/
def Sender.record (r : Sender) (packet : RTMPPacket) : Sender :=
  { r with vecChannelsOut := Function.update r.vecChannelsOut packet.nChannel (some packet) }

/-- `PILI_RTMP_SendPacket`: the bytes written, or `none` where the header type
fails its sanity check. -/
def sendPacket (r : Sender) (packet : RTMPPacket) : Option (List UInt8 × Sender) :=
  let (packet, last) := compressed (r.vecChannelsOut packet.nChannel) packet
  if 3 < packet.headerType then none
  else
    let t := packet.nTimeStamp - last
    let sent := writeChunks r.outChunkSize (chunkHeader packet) (messageHeader packet t)
      (packet.body.take packet.nBodySize)
    some (sent, r.record packet)

/-! ## Messages on the wire -/

/-- What becomes of the calls of `WriteN` for a message: all of it is written, or
the socket gives an error, or takes nothing. A part of the message can be out
then, which `cut` says. -/
inductive WriteResult where
  | wrote
  | failed (cut : Bool)
  | nothing (cut : Bool)
  deriving DecidableEq, Repr

/-- A message on the wire, to its end or not. -/
inductive Sent where
  | whole (packet : RTMPPacket)
  | cut (packet : RTMPPacket)

namespace Sent

def packet : Sent → RTMPPacket
  | whole packet | cut packet => packet

def isWhole : Sent → Bool
  | whole _ => true
  | cut _ => false

end Sent

/-- What is on the wire of a message that was not written to its end. -/
def cutOff (cut : Bool) (packet : RTMPPacket) : List Sent := if cut then [.cut packet] else []

namespace WriteResult

/-- What is on the wire of the message. -/
def sent (packet : RTMPPacket) : WriteResult → List Sent
  | wrote => [.whole packet]
  | failed cut => cutOff cut packet
  | nothing cut => cutOff cut packet

/-- `WriteN` closes the connection on an error, and only then. -/
def fails : WriteResult → Bool
  | failed _ => true
  | _ => false

end WriteResult

/-! ## Reading -/

/-- The reading half of `PILI_RTMP`. -/
structure Receiver where
  inChunkSize : Nat := 128
  vecChannelsIn : Nat → Option RTMPPacket := fun _ => none
  channelTimestamp : Nat → UInt32 := fun _ => 0

/-- The header type and the channel, from one, two or three bytes. -/
def readChannel : List UInt8 → Option (Nat × Nat × List UInt8)
  | [] => none
  | b :: bytes =>
    let headerType := ((b &&& 0xc0) >>> 6).toNat
    let nChannel := (b &&& 0x3f).toNat
    if nChannel = 0 then
      match bytes with
      | b₁ :: bytes => some (headerType, b₁.toNat + 64, bytes)
      | [] => none
    else if nChannel = 1 then
      match bytes with
      | b₁ :: b₂ :: bytes => some (headerType, (b₂.toNat <<< 8) + b₁.toNat + 64, bytes)
      | _ => none
    else some (headerType, nChannel, bytes)

/-- The fields that a header of `header.length` bytes has. -/
def readFields (packet : RTMPPacket) (header : List UInt8) : RTMPPacket :=
  let packet := if 3 ≤ header.length then
      { packet with nTimeStamp := UInt32.ofNat (decodeInt24 header) } else packet
  let packet := if 6 ≤ header.length then
      { packet with nBodySize := decodeInt24 (header.drop 3), body := [] } else packet
  let packet := if 6 < header.length then { packet with packetType := header.getD 6 0 } else packet
  if header.length = 11 then
    { packet with nInfoField2 := UInt32.ofNat (decodeInt32LE (header.drop 7)) }
  else packet

/-- The extended timestamp, where the field of three bytes is full. -/
def readExtended (nSize : Nat) (packet : RTMPPacket) (bytes : List UInt8) :
    Option (RTMPPacket × List UInt8) :=
  if 3 ≤ nSize ∧ packet.nTimeStamp = 0xffffff then
    (takeN 4 bytes).map fun (e, bytes) =>
      ({ packet with nTimeStamp := UInt32.ofNat (decodeInt32 e) }, bytes)
  else some (packet, bytes)

/-- The part of `readPacket` up to the chunk's data. A short header starts from
the packet last seen on the channel, if there is one. -/
def readHeader (r : Receiver) (packet : RTMPPacket) (bytes : List UInt8) :
    Option (RTMPPacket × List UInt8) := do
  let (headerType, nChannel, bytes) ← readChannel bytes
  let packet := { packet with headerType, nChannel }
  let packet := if headerType = sizeLarge then { packet with hasAbsTimestamp := true }
    else (r.vecChannelsIn nChannel).getD packet
  let (header, bytes) ← takeN (packetSize headerType - 1) bytes
  let (packet, bytes) ← readExtended header.length (readFields packet header) bytes
  let packet := if 0 < packet.nBodySize ∧ packet.body = [] then { packet with headerType }
    else packet
  some (packet, bytes)

/-- The chunk's data. A message that it completes gets its absolute timestamp,
and the channel keeps the header for the next one. -/
def readBody (r : Receiver) (packet : RTMPPacket) (bytes : List UInt8) :
    Option (RTMPPacket × Receiver × List UInt8) :=
  let nToRead := packet.nBodySize - packet.body.length
  (takeN (min r.inChunkSize nToRead) bytes).map fun (chunk, bytes) =>
    let packet := { packet with body := packet.body ++ chunk }
    if packet.isReady then
      let nTimeStamp := if packet.hasAbsTimestamp then packet.nTimeStamp
        else packet.nTimeStamp + r.channelTimestamp packet.nChannel
      ({ packet with nTimeStamp },
        { r with
          vecChannelsIn := Function.update r.vecChannelsIn packet.nChannel
            (some { packet with body := [], hasAbsTimestamp := false })
          channelTimestamp := Function.update r.channelTimestamp packet.nChannel nTimeStamp },
        bytes)
    else
      ({ packet with body := [] },
        { r with
          vecChannelsIn := Function.update r.vecChannelsIn packet.nChannel (some packet) },
        bytes)

/-- `PILI_RTMP_ReadPacket`, with the caller's packet; `none` where the
connection ends inside the chunk. -/
def readPacket (r : Receiver) (packet : RTMPPacket) (bytes : List UInt8) :
    Option (RTMPPacket × Receiver × List UInt8) := do
  let (packet, bytes) ← readHeader r packet bytes
  readBody r packet bytes

/-- A packet is read off with its chunks and handed on when it is ready: the
loop around `readPacket` in `PILI_RTMP_ConnectStream`. -/
def readAll (r : Receiver) (packet : RTMPPacket) (bytes : List UInt8) :
    List RTMPPacket × Receiver :=
  match readPacket r packet bytes with
  | none => ([], r)
  | some (packet, r, rest) =>
    if rest.length < bytes.length then
      let next := readAll r { packet with body := [] } rest
      (if packet.isReady then packet :: next.1 else next.1, next.2)
    else ([], r)
termination_by bytes.length

/-! ## The first header bytes -/

theorem firstByte_direct : ∀ h < 4, ∀ ch < 64,
    (((UInt8.ofNat (h <<< 6) ||| UInt8.ofNat ch) &&& 0xc0) >>> 6).toNat = h ∧
      ((UInt8.ofNat (h <<< 6) ||| UInt8.ofNat ch) &&& 0x3f).toNat = ch := by
  decide

theorem firstByte_escaped : ∀ h < 4,
    (((UInt8.ofNat (h <<< 6)) &&& 0xc0) >>> 6).toNat = h ∧
      ((UInt8.ofNat (h <<< 6)) &&& 0x3f).toNat = 0 := by
  decide

theorem firstByte_wide : ∀ h < 4,
    (((UInt8.ofNat (h <<< 6) ||| 1) &&& 0xc0) >>> 6).toNat = h ∧
      ((UInt8.ofNat (h <<< 6) ||| 1) &&& 0x3f).toNat = 1 := by
  decide

theorem readChannel_direct {b : UInt8} {h ch : Nat} {bytes : List UInt8}
    (hb : ((b &&& 0xc0) >>> 6).toNat = h ∧ (b &&& 0x3f).toNat = ch) (h2 : 2 ≤ ch) :
    readChannel (b :: bytes) = some (h, ch, bytes) := by
  have h0 : ch ≠ 0 := by omega
  have h1 : ch ≠ 1 := by omega
  simp only [readChannel, hb.1, hb.2, if_neg h0, if_neg h1]

theorem readChannel_one {b b₁ : UInt8} {h : Nat} {bytes : List UInt8}
    (hb : ((b &&& 0xc0) >>> 6).toNat = h ∧ (b &&& 0x3f).toNat = 0) :
    readChannel (b :: b₁ :: bytes) = some (h, b₁.toNat + 64, bytes) := by
  simp only [readChannel, hb.1, hb.2, if_true]

theorem readChannel_two {b b₁ b₂ : UInt8} {h : Nat} {bytes : List UInt8}
    (hb : ((b &&& 0xc0) >>> 6).toNat = h ∧ (b &&& 0x3f).toNat = 1) :
    readChannel (b :: b₁ :: b₂ :: bytes) = some (h, b₂.toNat * 256 + b₁.toNat + 64, bytes) := by
  simp only [readChannel, hb.1, hb.2, one_ne_zero, if_true, if_false, Nat.shiftLeft_eq]

/-- The reader finds the header type and the channel that the sender wrote. -/
theorem readChannel_firstByte {h ch : Nat} (hh : h < 4) (h2 : 2 ≤ ch) (hch : ch < 65600)
    (rest : List UInt8) :
    readChannel (firstByte h ch :: (channelBytes ch ++ rest)) = some (h, ch, rest) := by
  have hlow : (ch - 64) &&& 0xff = (ch - 64) % 256 := Nat.and_two_pow_sub_one_eq_mod (ch - 64) 8
  have hhigh : (ch - 64) >>> 8 = (ch - 64) / 256 := by simp [Nat.shiftRight_eq_div_pow]
  by_cases h319 : 319 < ch
  · have hsum : (ch - 64) / 256 % 2 ^ 8 * 256 + (ch - 64) % 256 % 2 ^ 8 + 64 = ch := by omega
    simp only [firstByte, channelBytes, if_pos h319, List.cons_append, List.nil_append]
    rw [readChannel_two (firstByte_wide h hh), hlow, hhigh, UInt8.toNat_ofNat',
      UInt8.toNat_ofNat', hsum]
  · by_cases h63 : 63 < ch
    · have hsum : (ch - 64) % 256 % 2 ^ 8 + 64 = ch := by omega
      simp only [firstByte, channelBytes, if_neg h319, if_pos h63, List.cons_append,
        List.nil_append]
      rw [readChannel_one (firstByte_escaped h hh), hlow, UInt8.toNat_ofNat', hsum]
    · simp only [firstByte, channelBytes, if_neg h319, if_neg h63, List.nil_append]
      exact readChannel_direct (firstByte_direct h hh ch (by omega)) h2

theorem or_firstByte {h : Nat} (hh : h < 4) (ch : Nat) :
    0xc0 ||| firstByte h ch = firstByte 3 ch := by
  have hor : ∀ h < 4, (0xc0 : UInt8) ||| UInt8.ofNat (h <<< 6) = UInt8.ofNat (3 <<< 6) := by
    decide
  unfold firstByte
  split
  · rw [← UInt8.or_assoc, hor h hh]
  · split
    · exact hor h hh
    · rw [← UInt8.or_assoc, hor h hh]
end WaxxyLive.Rtmp
