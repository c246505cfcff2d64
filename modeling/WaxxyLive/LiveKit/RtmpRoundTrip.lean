import WaxxyLive.LiveKit.RtmpChunk
import WaxxyLive.Lib.Runs

/-!
# What the peer reads

A peer that runs `readPacket` reads back the packets that were sent, in order.
Their timestamps are counted with the peer's own clock (`Clock`), which a
header without a timestamp field moves by the last field again.
-/

namespace WaxxyLive.Rtmp

open Bytes

/-! ## One header -/

/-- The reader's packet while `p` arrives: the header fields of `p`, the
timestamp field `ts` and the bytes `got` so far. -/
def reading (p : RTMPPacket) (k : Nat) (absolute : Bool) (ts : UInt32) (got : List UInt8) :
    RTMPPacket :=
  { p with headerType := k, hasAbsTimestamp := absolute, nTimeStamp := ts, body := got }

/-- What the reader's packet has to hold before a header of type `h` completes it to `p`. -/
structure Fills (h : Nat) (q p : RTMPPacket) : Prop where
  nChannel : q.nChannel = p.nChannel
  body : 2 ≤ h → q.body = []
  nInfoField2 : h ≠ 0 → q.nInfoField2 = p.nInfoField2
  nBodySize : 2 ≤ h → q.nBodySize = p.nBodySize
  packetType : 2 ≤ h → q.packetType = p.packetType

theorem length_headerFields {p : RTMPPacket} (hh : p.headerType < 4) (t : UInt32) :
    (headerFields p t).length = packetSize p.headerType - 1 := by
  have hcases : p.headerType = 0 ∨ p.headerType = 1 ∨ p.headerType = 2 ∨ p.headerType = 3 := by
    omega
  rcases hcases with h | h | h | h <;>
    simp [headerFields, h, packetSize, encodeInt24, encodeInt32LE]

/-- The timestamp field as the reader decodes it. -/
def timeField (t : UInt32) : UInt32 := if 0xffffff < t then 0xffffff else t

theorem decode_timeField (t : UInt32) (rest : List UInt8) :
    UInt32.ofNat (decodeInt24 (encodeInt24 (if 0xffffff < t then 0xffffff else t.toNat) ++ rest)) =
      timeField t := by
  have htake : ∀ n, decodeInt24 (encodeInt24 n ++ rest) = n % 256 ^ 3 := by
    intro n
    rw [decodeInt24, encodeInt24, List.take_left' (length_be 3 n), unbe_be]
  rw [htake, timeField]
  by_cases ht : 0xffffff < t
  · rw [if_pos ht, if_pos ht]
    rfl
  · have hle : t.toNat ≤ 0xffffff := by
      simpa [UInt32.lt_iff_toNat_lt] using ht
    rw [if_neg ht, if_neg ht, Nat.mod_eq_of_lt (by omega), UInt32.ofNat_toNat]

theorem timeField_eq_full_iff (t : UInt32) : timeField t = 0xffffff ↔ 0xffffff ≤ t := by
  unfold timeField
  split
  · next h => simpa using UInt32.le_of_lt h
  · next h =>
    constructor
    · rintro rfl
      exact UInt32.le_refl _
    · intro hle
      exact UInt32.le_antisymm (UInt32.not_lt.mp h) hle

theorem decodeInt24_encodeInt24 {n : Nat} (h : n < 2 ^ 24) (rest : List UInt8) :
    decodeInt24 (encodeInt24 n ++ rest) = n := by
  rw [decodeInt24, encodeInt24, List.take_left' (length_be 3 n),
    unbe_be_of_lt (by simpa using h)]

theorem decodeInt32LE_encodeInt32LE (x : UInt32) (rest : List UInt8) :
    UInt32.ofNat (decodeInt32LE (encodeInt32LE x.toNat ++ rest)) = x := by
  rw [decodeInt32LE, encodeInt32LE, List.take_left' (length_le 4 x.toNat), ofNat_unle_le]

theorem readFields_headerFields {p q : RTMPPacket} (hh : p.headerType < 4)
    (hq : Fills p.headerType q p) (hsize : p.nBodySize < 2 ^ 24) (t : UInt32) :
    readFields q (headerFields p t) =
      reading p q.headerType q.hasAbsTimestamp
        (if p.headerType = 3 then q.nTimeStamp else timeField t) [] := by
  obtain ⟨a, b, c, hA⟩ : ∃ a b c,
      encodeInt24 (if 0xffffff < t then 0xffffff else t.toNat) = [a, b, c] := ⟨_, _, _, rfl⟩
  obtain ⟨d, e, f, hB⟩ : ∃ d e f, encodeInt24 p.nBodySize = [d, e, f] := ⟨_, _, _, rfl⟩
  obtain ⟨w, x, y, z, hD⟩ : ∃ w x y z,
      encodeInt32LE p.nInfoField2.toNat = [w, x, y, z] := ⟨_, _, _, _, rfl⟩
  have ht : ∀ rest, UInt32.ofNat (decodeInt24 (a :: b :: c :: rest)) = timeField t := by
    intro rest
    have := decode_timeField t rest
    rwa [hA] at this
  have hs : ∀ rest, decodeInt24 (d :: e :: f :: rest) = p.nBodySize := by
    intro rest
    have := decodeInt24_encodeInt24 hsize rest
    rwa [hB] at this
  have hi : UInt32.ofNat (decodeInt32LE [w, x, y, z]) = p.nInfoField2 := by
    have := decodeInt32LE_encodeInt32LE p.nInfoField2 []
    rwa [hD, List.append_nil] at this
  have hcases : p.headerType = 0 ∨ p.headerType = 1 ∨ p.headerType = 2 ∨ p.headerType = 3 := by
    omega
  obtain ⟨hn, hb, hinfo, hsz, htype⟩ := hq
  rcases hcases with h | h | h | h
  · simp [headerFields, readFields, reading, h, packetSize, hA, hB, hD, ht, hs, hi, hn]
  · simp [headerFields, readFields, reading, h, packetSize, hA, hB, ht, hs, hn, hinfo (by omega)]
  · simp [headerFields, readFields, reading, h, packetSize, hA, ht, hn, hb (by omega), hinfo (by omega),
      hsz (by omega), htype (by omega)]
  · have hqp : q = reading p q.headerType q.hasAbsTimestamp q.nTimeStamp [] := by
      cases q
      simp_all [reading]
    simpa [headerFields, readFields, h, packetSize] using hqp

theorem readExtended_extendedField {p q : RTMPPacket} {t : UInt32} (hh : p.headerType < 4)
    (hq : p.headerType ≠ 3 → q.nTimeStamp = timeField t) (rest : List UInt8) :
    readExtended (packetSize p.headerType - 1) q (extendedField p t ++ rest) =
      some ({ q with nTimeStamp := if p.headerType = 3 then q.nTimeStamp else t }, rest) := by
  by_cases h3 : p.headerType = 3
  · simp [readExtended, extendedField, h3, packetSize]
  · have hsize : 3 ≤ packetSize p.headerType - 1 := by
      have hcases : p.headerType = 0 ∨ p.headerType = 1 ∨ p.headerType = 2 := by omega
      rcases hcases with h | h | h <;> simp [h, packetSize]
    have hone : 1 < packetSize p.headerType := by omega
    have hiff : q.nTimeStamp = 0xffffff ↔ 0xffffff ≤ t := by
      rw [hq h3, timeField_eq_full_iff]
    rw [readExtended, extendedField, if_neg h3]
    by_cases hfull : 0xffffff ≤ t
    · rw [if_pos ⟨hsize, hiff.mpr hfull⟩, if_pos ⟨hone, hfull⟩,
        takeN_append (by simp [encodeInt32])]
      simp [decodeInt32, encodeInt32, List.take_of_length_le]
    · have htime : q.nTimeStamp = t := by
        rw [hq h3, timeField, if_neg fun h => hfull (UInt32.le_of_lt h)]
      rw [if_neg fun h => hfull (hiff.mp h.2), if_neg fun h => hfull h.2, List.nil_append, ← htime]

/-- What the header of `p` gives the reader, when `q` is the packet it starts from. -/
theorem readHeader_messageHeader {r : Receiver} (pkt : RTMPPacket) {p q : RTMPPacket}
    (hh : p.headerType < 4)
    (h2 : 2 ≤ p.nChannel) (hch : p.nChannel < 65600) (hsize : p.nBodySize < 2 ^ 24)
    (hstart : q = if p.headerType = sizeLarge then
        { pkt with headerType := p.headerType, nChannel := p.nChannel, hasAbsTimestamp := true }
      else (r.vecChannelsIn p.nChannel).getD
        { pkt with headerType := p.headerType, nChannel := p.nChannel })
    (hq : Fills p.headerType q p) (t : UInt32) :
    ∃ k, ∀ rest, readHeader r pkt (messageHeader p t ++ rest) =
      some (reading p k q.hasAbsTimestamp (if p.headerType = 3 then q.nTimeStamp else t) [],
        rest) := by
  refine ⟨if 0 < p.nBodySize then p.headerType else q.headerType, fun rest => ?_⟩
  have htake : takeN (packetSize p.headerType - 1)
      (headerFields p t ++ (extendedField p t ++ rest)) =
        some (headerFields p t, extendedField p t ++ rest) :=
    takeN_append (length_headerFields hh t)
  rw [readHeader, messageHeader, List.cons_append, List.append_assoc, List.append_assoc,
    readChannel_firstByte hh h2 hch]
  simp only [Option.bind_eq_bind, Option.bind_some, ← hstart, htake, length_headerFields hh,
    readFields_headerFields hh hq hsize]
  rw [readExtended_extendedField hh fun h3 => by simp [reading, h3]]
  by_cases hpos : 0 < p.nBodySize <;> by_cases h3 : p.headerType = 3 <;>
    simp [reading, hpos, h3]
/-- A chunk header brings back the packet that is being read on its channel. -/
theorem readHeader_chunkHeader {r : Receiver} {pkt p q : RTMPPacket} (hh : p.headerType < 4)
    (h2 : 2 ≤ p.nChannel) (hch : p.nChannel < 65600)
    (hin : r.vecChannelsIn p.nChannel = some q) (hq : q.body ≠ []) (rest : List UInt8) :
    readHeader r pkt (chunkHeader p ++ rest) = some (q, rest) := by
  rw [readHeader, chunkHeader, or_firstByte hh, List.cons_append,
    readChannel_firstByte (by omega) h2 hch]
  simp [sizeLarge, hin, packetSize, readFields, readExtended, hq]

/-! ## One message -/

/-- The reader with the unfinished packet `q` on its channel. -/
def Receiver.keep (r : Receiver) (q : RTMPPacket) : Receiver :=
  { r with vecChannelsIn := Function.update r.vecChannelsIn q.nChannel (some q) }

@[simp] theorem Receiver.keep_inChunkSize (r : Receiver) (q : RTMPPacket) :
    (r.keep q).inChunkSize = r.inChunkSize := rfl

@[simp] theorem Receiver.keep_channelTimestamp (r : Receiver) (q : RTMPPacket) :
    (r.keep q).channelTimestamp = r.channelTimestamp := rfl

theorem Receiver.keep_reading (r : Receiver) (p : RTMPPacket) (k : Nat) (absolute : Bool)
    (ts : UInt32) (got : List UInt8) :
    (r.keep (reading p k absolute ts got)).vecChannelsIn p.nChannel =
      some (reading p k absolute ts got) := by
  simp [Receiver.keep, reading]

/-- The absolute timestamp of a packet on channel `ch` with the timestamp field `ts`. -/
def Receiver.stamp (r : Receiver) (ch : Nat) (absolute : Bool) (ts : UInt32) : UInt32 :=
  if absolute then ts else ts + r.channelTimestamp ch

@[simp] theorem Receiver.stamp_keep (r : Receiver) (q : RTMPPacket) (ch : Nat) (absolute : Bool)
    (ts : UInt32) : (r.keep q).stamp ch absolute ts = r.stamp ch absolute ts := rfl

/-- The reader after the last chunk of `p`, with the timestamp field `ts` and
the absolute timestamp `time`. -/
def Receiver.after (r : Receiver) (p : RTMPPacket) (k : Nat) (ts time : UInt32) : Receiver :=
  { r with
    vecChannelsIn := Function.update r.vecChannelsIn p.nChannel (some (reading p k false ts []))
    channelTimestamp := Function.update r.channelTimestamp p.nChannel time }

@[simp] theorem Receiver.after_keep (r : Receiver) (p : RTMPPacket) (k : Nat) (absolute : Bool)
    (ts time : UInt32) (got : List UInt8) :
    (r.keep (reading p k absolute ts got)).after p k ts time = r.after p k ts time := by
  simp [Receiver.after, Receiver.keep, reading]

theorem readBody_last {r : Receiver} {p : RTMPPacket} {k : Nat} {absolute : Bool} {ts : UInt32}
    {got body : List UInt8} (hgot : got ++ body = p.body) (hwhole : p.body.length = p.nBodySize)
    (hn : body.length ≤ r.inChunkSize) (rest : List UInt8) :
    readBody r (reading p k absolute ts got) (body ++ rest) =
      some (reading p k absolute (r.stamp p.nChannel absolute ts) p.body,
        r.after p k ts (r.stamp p.nChannel absolute ts), rest) := by
  have hlen : got.length + body.length = p.nBodySize := by
    rw [← hwhole, ← hgot, List.length_append]
  have hread : min r.inChunkSize (p.nBodySize - got.length) = body.length := by omega
  cases absolute <;>
    simp [readBody, reading, hread, takeN_append, hgot, RTMPPacket.isReady, hlen, Receiver.after,
      Receiver.stamp]

theorem readBody_more {r : Receiver} {p : RTMPPacket} (k : Nat) (absolute : Bool) (ts : UInt32)
    {got body : List UInt8} (hgot : got ++ body = p.body) (hwhole : p.body.length = p.nBodySize)
    (hn : r.inChunkSize < body.length) (rest : List UInt8) :
    readBody r (reading p k absolute ts got) (body.take r.inChunkSize ++ rest) =
      some (reading p k absolute ts [],
        r.keep (reading p k absolute ts (got ++ body.take r.inChunkSize)), rest) := by
  have hlen : got.length + body.length = p.nBodySize := by
    rw [← hwhole, ← hgot, List.length_append]
  have hread : min r.inChunkSize (p.nBodySize - got.length) = r.inChunkSize := by omega
  have htake : (body.take r.inChunkSize).length = r.inChunkSize := by
    rw [List.length_take]
    omega
  have hnot : ¬ got.length + r.inChunkSize = p.nBodySize := by omega
  have hmin : min r.inChunkSize body.length = r.inChunkSize := by omega
  simp [readBody, reading, hread, takeN_append htake, RTMPPacket.isReady, hmin, hnot,
    Receiver.keep]

/-! ## The loop around `readPacket` -/

theorem readChannel_shorter {bytes rest : List UInt8} {h ch : Nat}
    (hr : readChannel bytes = some (h, ch, rest)) : rest.length < bytes.length := by
  cases bytes with
  | nil => simp [readChannel] at hr
  | cons b bytes =>
    simp only [readChannel] at hr
    split at hr
    · cases bytes with
      | nil => simp at hr
      | cons b₁ bytes =>
        obtain ⟨-, -, rfl⟩ : _ ∧ _ ∧ bytes = rest := by simpa using hr
        simp only [List.length_cons]
        omega
    · split at hr
      · cases bytes with
        | nil => simp at hr
        | cons b₁ bytes =>
          cases bytes with
          | nil => simp at hr
          | cons b₂ bytes =>
            obtain ⟨-, -, rfl⟩ : _ ∧ _ ∧ bytes = rest := by simpa using hr
            simp only [List.length_cons]
            omega
      · obtain ⟨-, -, rfl⟩ : _ ∧ _ ∧ bytes = rest := by simpa using hr
        simp

theorem takeN_length_le {n : Nat} {bytes l rest : List UInt8}
    (h : takeN n bytes = some (l, rest)) : rest.length ≤ bytes.length := by
  obtain ⟨rfl, -⟩ := takeN_eq_some.mp h
  simp

theorem readExtended_length_le {n : Nat} {p q : RTMPPacket} {bytes rest : List UInt8}
    (h : readExtended n p bytes = some (q, rest)) : rest.length ≤ bytes.length := by
  unfold readExtended at h
  split at h
  · obtain ⟨⟨e, rest'⟩, he, hq⟩ := Option.map_eq_some_iff.mp h
    obtain ⟨-, rfl⟩ : _ ∧ rest' = rest := by simpa using hq
    exact takeN_length_le he
  · obtain ⟨-, rfl⟩ : p = q ∧ bytes = rest := by simpa using h
    exact le_rfl

theorem readBody_length_le {r r' : Receiver} {p q : RTMPPacket} {bytes rest : List UInt8}
    (h : readBody r p bytes = some (q, r', rest)) : rest.length ≤ bytes.length := by
  obtain ⟨⟨chunk, bytes'⟩, hchunk, hend⟩ := Option.map_eq_some_iff.mp h
  obtain rfl : bytes' = rest := by
    dsimp only at hend
    split at hend <;> exact (Prod.ext_iff.mp (Prod.ext_iff.mp hend).2).2
  exact takeN_length_le hchunk

theorem readPacket_shorter {r r' : Receiver} {pkt q : RTMPPacket} {bytes rest : List UInt8}
    (h : readPacket r pkt bytes = some (q, r', rest)) : rest.length < bytes.length := by
  simp only [readPacket, readHeader, Option.bind_eq_bind, Option.bind_eq_some_iff] at h
  obtain ⟨⟨q₁, bytes₃⟩, ⟨⟨h₀, ch, bytes₁⟩, hch, ⟨hdr, bytes₂⟩, htake, ⟨q₂, bytes₄⟩, hext, heq⟩,
    hbody⟩ := h
  obtain ⟨-, rfl⟩ : _ ∧ bytes₄ = bytes₃ := by simpa using heq
  have h₁ : bytes₁.length < bytes.length := readChannel_shorter hch
  have h₂ : bytes₂.length ≤ bytes₁.length := takeN_length_le htake
  have h₃ : bytes₄.length ≤ bytes₂.length := readExtended_length_le hext
  have h₄ : rest.length ≤ bytes₄.length := readBody_length_le hbody
  omega

theorem readAll_of_ready {r r' : Receiver} {pkt q : RTMPPacket} {bytes rest : List UInt8}
    (h : readPacket r pkt bytes = some (q, r', rest)) (hq : q.isReady = true) :
    readAll r pkt bytes = (readAll r' { q with body := [] } rest).map (q :: ·) id := by
  rw [readAll]
  simp only [h, if_pos (readPacket_shorter h), hq, if_true]
  rfl

theorem readAll_of_unready {r r' : Receiver} {pkt q : RTMPPacket} {bytes rest : List UInt8}
    (h : readPacket r pkt bytes = some (q, r', rest)) (hq : q.isReady = false) :
    readAll r pkt bytes = readAll r' { q with body := [] } rest := by
  rw [readAll]
  simp only [h, if_pos (readPacket_shorter h), hq, Bool.false_eq_true, if_false]

theorem readAll_of_none {r : Receiver} {pkt : RTMPPacket} {bytes : List UInt8}
    (h : readPacket r pkt bytes = none) : readAll r pkt bytes = ([], r) := by
  rw [readAll]
  simp only [h]

theorem readPacket_of_header {r : Receiver} {pkt q : RTMPPacket} {bytes rest : List UInt8}
    (h : readHeader r pkt bytes = some (q, rest)) :
    readPacket r pkt bytes = readBody r q rest := by
  simp [readPacket, h]

/-- The chunks of a message, read one after the other. The induction is on the
loop that wrote them; `got` is what earlier chunks brought. -/
theorem readAll_writeChunks {p : RTMPPacket} {k : Nat} {absolute : Bool} {ts : UInt32} {n : Nat}
    (hh : p.headerType < 4) (h2 : 2 ≤ p.nChannel) (hch : p.nChannel < 65600)
    (hwhole : p.body.length = p.nBodySize) (hn : 0 < n) (rest : List UInt8) :
    ∀ (header body got : List UInt8) (r : Receiver) (pkt : RTMPPacket),
      r.inChunkSize = n → got ++ body = p.body →
      (∀ bytes, readHeader r pkt (header ++ bytes) =
        some (reading p k absolute ts got, bytes)) →
      readAll r pkt (writeChunks n (chunkHeader p) header body ++ rest) =
        (readAll (r.after p k ts (r.stamp p.nChannel absolute ts))
          (reading p k absolute (r.stamp p.nChannel absolute ts) []) rest).map
            (reading p k absolute (r.stamp p.nChannel absolute ts) p.body :: ·) id := by
  intro header body
  fun_induction writeChunks n (chunkHeader p) header body with
  | case1 header body hlast =>
    intro got r pkt hr hgot hheader
    have hsize : body.length ≤ r.inChunkSize := by omega
    have hpacket : readPacket r pkt (header ++ body ++ rest) =
        readBody r (reading p k absolute ts got) (body ++ rest) := by
      rw [List.append_assoc]
      exact readPacket_of_header (hheader _)
    rw [readBody_last hgot hwhole hsize] at hpacket
    have hready : (reading p k absolute (r.stamp p.nChannel absolute ts) p.body).isReady = true := by
      simpa [reading, RTMPPacket.isReady] using hwhole
    rw [readAll_of_ready hpacket hready]
    rfl
  | case2 header body hmore ih =>
    intro got r pkt hr hgot hheader
    have hsize : r.inChunkSize < body.length := by omega
    have hpacket : readPacket r pkt (header ++ body.take n ++
          writeChunks n (chunkHeader p) (chunkHeader p) (body.drop n) ++ rest) =
        readBody r (reading p k absolute ts got) (body.take n ++
          (writeChunks n (chunkHeader p) (chunkHeader p) (body.drop n) ++ rest)) := by
      rw [List.append_assoc, List.append_assoc]
      exact readPacket_of_header (hheader _)
    have hmore' := readBody_more k absolute ts hgot hwhole hsize
      (writeChunks n (chunkHeader p) (chunkHeader p) (body.drop n) ++ rest)
    rw [hr] at hmore'
    rw [hmore'] at hpacket
    -- The part read so far waits on the channel for the chunks that follow.
    have hsome : got ++ body.take n ≠ [] := by
      intro hnil
      have hlen := congrArg List.length hnil
      simp only [List.length_append, List.length_take, List.length_nil] at hlen
      omega
    have hkept : ∀ bytes, readHeader (r.keep (reading p k absolute ts (got ++ body.take n)))
        (reading p k absolute ts []) (chunkHeader p ++ bytes) =
          some (reading p k absolute ts (got ++ body.take n), bytes) := by
      intro bytes
      exact readHeader_chunkHeader hh h2 hch (Receiver.keep_reading r p k absolute ts _) hsome bytes
    have hrest := ih _ _ _ ((Receiver.keep_inChunkSize r _).trans hr)
      (by rw [List.append_assoc, List.take_append_drop, hgot]) hkept
    have hnot : (reading p k absolute ts []).isReady = false := by
      have hpos : 0 ≠ p.nBodySize := by
        rw [← hwhole, ← hgot, List.length_append]
        omega
      simpa [reading, RTMPPacket.isReady] using hpos
    rw [readAll_of_unready hpacket hnot]
    rw [Receiver.after_keep, Receiver.stamp_keep] at hrest
    exact hrest

/-! ## The sender and the peer's clocks -/

/-- What the peer has of a channel's time: the last timestamp field, and the
absolute timestamp of the last message. -/
structure Clock where
  field : UInt32 := 0
  now : UInt32 := 0

/-- The clock after `packet`, which follows `prevPacket` on its channel. A
header of the minimum size has no timestamp field, so the last one counts again. -/
def Clock.hear (c : Clock) (prevPacket : Option RTMPPacket) (packet : RTMPPacket) : Clock :=
  let (sent, last) := compressed prevPacket packet
  let t := sent.nTimeStamp - last
  if sent.headerType = sizeLarge then ⟨t, t⟩
  else if sent.headerType = sizeMinimum then ⟨c.field, c.now + c.field⟩
  else ⟨t, c.now + t⟩

/-- The sender, and the clock that its peer has for each channel. -/
structure Link where
  sender : Sender := {}
  clock : Nat → Clock := fun _ => {}

/-- The packet before on the channel of `packet`. -/
def Link.prev (l : Link) (packet : RTMPPacket) : Option RTMPPacket :=
  l.sender.vecChannelsOut packet.nChannel

def Link.heard (l : Link) (packet : RTMPPacket) : Clock :=
  (l.clock packet.nChannel).hear (l.prev packet) packet

def Link.step (l : Link) (packet : RTMPPacket) : Option Link :=
  (sendPacket l.sender packet).map fun sent =>
    { sender := sent.2, clock := Function.update l.clock packet.nChannel (l.heard packet) }

/-- The bytes that a send puts on the wire. -/
def Link.written (l : Link) (packet : RTMPPacket) : List UInt8 :=
  (sendPacket l.sender packet).elim [] Prod.fst

/-- What a message is to its receiver. -/
structure Message where
  nChannel : Nat
  packetType : UInt8
  nInfoField2 : UInt32
  nTimeStamp : UInt32
  body : List UInt8
  deriving DecidableEq, Repr

def RTMPPacket.message (p : RTMPPacket) : Message :=
  ⟨p.nChannel, p.packetType, p.nInfoField2, p.nTimeStamp, p.body⟩

/-- The message that the peer makes of `packet`. -/
def Link.delivered (l : Link) (packet : RTMPPacket) : List Message :=
  [{ packet.message with nTimeStamp := (l.heard packet).now }]

/-- A packet that the peer can follow: on a channel of the table, with its whole
body, and with a large header unless a packet of the same stream went before on
its channel. `SendCtrl` and `SendBytesReceived` make theirs with a medium header
even when nothing went before. -/
structure Sendable (prev : Option RTMPPacket) (p : RTMPPacket) : Prop where
  two_le : 2 ≤ p.nChannel
  channel_lt : p.nChannel < 65600
  whole : p.body.length = p.nBodySize
  size_lt : p.nBodySize < 2 ^ 24
  header : p.headerType = sizeLarge ∨
    p.headerType = sizeMedium ∧ ∃ q, prev = some q ∧ q.nInfoField2 = p.nInfoField2

/-- The packet says of size, type and time what the one before it says. -/
def Repeats (q p : RTMPPacket) : Prop :=
  q.nBodySize = p.nBodySize ∧ q.packetType = p.packetType ∧ q.nTimeStamp = p.nTimeStamp

theorem compressed_large {prev : Option RTMPPacket} {p : RTMPPacket}
    (h : p.headerType = sizeLarge) : compressed prev p = (p, 0) := by
  cases prev <;> simp [compressed, h]

/-- The compression of a medium header: the header type is left, or lowered as
far as the packet before it repeats. -/
theorem compressed_medium {q p : RTMPPacket} (h : p.headerType = sizeMedium) :
    ∃ k, compressed (some q) p = ({ p with headerType := k }, q.nTimeStamp) ∧
      (k = sizeMedium ∨ k = sizeSmall ∨ k = sizeMinimum) ∧
      (k ≠ sizeMedium → q.nBodySize = p.nBodySize ∧ q.packetType = p.packetType) ∧
      (k = sizeMinimum ↔ Repeats q p) := by
  by_cases hsame : q.nBodySize = p.nBodySize ∧ q.packetType = p.packetType
  · by_cases htime : q.nTimeStamp = p.nTimeStamp
    · refine ⟨sizeMinimum, ?_, .inr (.inr rfl), fun _ => hsame, ?_⟩
      · simp [compressed, h, hsame, htime, sizeMedium, sizeLarge, sizeSmall]
      · simp [Repeats, hsame, htime]
    · refine ⟨sizeSmall, ?_, .inr (.inl rfl), fun _ => hsame, ?_⟩
      · simp [compressed, h, hsame, htime, sizeMedium, sizeLarge, sizeSmall]
      · simp [Repeats, htime, sizeSmall, sizeMinimum]
  · refine ⟨sizeMedium, ?_, .inl rfl, fun hk => absurd rfl hk, ?_⟩
    · have hnot : ¬ (q.nBodySize = p.nBodySize ∧ q.packetType = p.packetType ∧
          p.headerType = sizeMedium) := fun h => hsame ⟨h.1, h.2.1⟩
      have hp : p = { p with headerType := sizeMedium } := by
        cases p
        simp_all
      have hlarge : p.headerType ≠ sizeLarge := by simp [h, sizeMedium, sizeLarge]
      have hsmall : ¬ (q.nTimeStamp = p.nTimeStamp ∧ p.headerType = sizeSmall) := by
        simp [h, sizeMedium, sizeSmall]
      simp only [compressed, if_neg hlarge, if_neg hnot, if_neg hsmall]
      exact congrArg (·, q.nTimeStamp) hp
    · constructor
      · intro hk
        simp [sizeMedium, sizeMinimum] at hk
      · exact fun hr => absurd ⟨hr.1, hr.2.1⟩ hsame

/-! ## Sender and peer in step -/

/-- The peer's tables hold what the sender's do, and its clocks. -/
structure InStep (l : Link) (r : Receiver) : Prop where
  chunkSize : r.inChunkSize = l.sender.outChunkSize
  positive : 0 < l.sender.outChunkSize
  channels : ∀ ch prev, l.sender.vecChannelsOut ch = some prev → prev.nChannel = ch ∧
    (∃ k, r.vecChannelsIn ch = some (reading prev k false (l.clock ch).field [])) ∧
    r.channelTimestamp ch = (l.clock ch).now

theorem InStep.after {l : Link} {r : Receiver} (h : InStep l r) (sent : RTMPPacket) (c : Clock)
    (k : Nat) :
    InStep ⟨l.sender.record sent, Function.update l.clock sent.nChannel c⟩
      (r.after sent k c.field c.now) where
  chunkSize := h.chunkSize
  positive := h.positive
  channels := by
    intro ch prev hprev
    by_cases hch : ch = sent.nChannel
    · subst hch
      obtain rfl : sent = prev := by simpa [Sender.record] using hprev
      exact ⟨rfl, ⟨k, by simp [Receiver.after]⟩, by simp [Receiver.after]⟩
    · obtain ⟨hn, ⟨j, hin⟩, hnow⟩ :=
        h.channels ch prev (by simpa [Sender.record, hch] using hprev)
      exact ⟨hn, ⟨j, by simpa [Receiver.after, hch] using hin⟩,
        by simpa [Receiver.after, hch] using hnow⟩

/-- One message whose header the peer completes from its packet `q`. -/
theorem readAll_header {l : Link} {r : Receiver} {pkt p q sent : RTMPPacket} {j : Nat}
    {last : UInt32} (h : InStep l r) (hp : Sendable (l.prev p) p)
    (hc : compressed (l.prev p) p = (sent, last)) (hsent : sent = { p with headerType := j })
    (h4 : sent.headerType < 4)
    (hstart : q = if sent.headerType = sizeLarge then
        { pkt with headerType := sent.headerType, nChannel := sent.nChannel,
                   hasAbsTimestamp := true }
      else (r.vecChannelsIn sent.nChannel).getD
        { pkt with headerType := sent.headerType, nChannel := sent.nChannel })
    (hq : Fills sent.headerType q sent) (ts : UInt32)
    (hts : ts = if sent.headerType = 3 then q.nTimeStamp else sent.nTimeStamp - last)
    (hclock : l.heard p = ⟨ts, r.stamp p.nChannel q.hasAbsTimestamp ts⟩) :
    ∃ l' r' pkt' m, l.step p = some l' ∧ InStep l' r' ∧ [m.message] = l.delivered p ∧
      ∀ rest, readAll r pkt (l.written p ++ rest) = (readAll r' pkt' rest).map (m :: ·) id := by
  have hch : sent.nChannel = p.nChannel := by rw [hsent]
  have hbody : sent.body = p.body := by rw [hsent]
  have hwhole : sent.body.length = sent.nBodySize := by
    rw [hsent]
    exact hp.whole
  have hsend : sendPacket l.sender p = some
      (writeChunks l.sender.outChunkSize (chunkHeader sent)
        (messageHeader sent (sent.nTimeStamp - last)) sent.body, l.sender.record sent) := by
    have hsane : ¬ 3 < sent.headerType := by omega
    have hc' : compressed (l.sender.vecChannelsOut p.nChannel) p = (sent, last) := hc
    simp only [sendPacket, hc', if_neg hsane, List.take_of_length_le hwhole.le]
  obtain ⟨k, hk⟩ := readHeader_messageHeader pkt (p := sent) h4
    (by rw [hch]; exact hp.two_le) (by rw [hch]; exact hp.channel_lt)
    (by rw [hsent]; exact hp.size_lt) hstart hq (sent.nTimeStamp - last)
  rw [← hts] at hk
  have hstep : l.step p =
      some ⟨l.sender.record sent, Function.update l.clock sent.nChannel
        ⟨ts, r.stamp sent.nChannel q.hasAbsTimestamp ts⟩⟩ := by
    rw [Link.step, hsend, hclock, hch]
    rfl
  refine ⟨_, _, reading sent k q.hasAbsTimestamp (r.stamp sent.nChannel q.hasAbsTimestamp ts) [],
    reading sent k q.hasAbsTimestamp (r.stamp sent.nChannel q.hasAbsTimestamp ts) sent.body,
    hstep, h.after sent ⟨ts, r.stamp sent.nChannel q.hasAbsTimestamp ts⟩ k, ?_, fun rest => ?_⟩
  · simp [Link.delivered, hclock, RTMPPacket.message, reading, hsent]
  · have hwritten : l.written p = writeChunks l.sender.outChunkSize (chunkHeader sent)
        (messageHeader sent (sent.nTimeStamp - last)) sent.body := by
      rw [Link.written, hsend]
      rfl
    rw [hwritten]
    exact readAll_writeChunks h4 (by rw [hch]; exact hp.two_le) (by rw [hch]; exact hp.channel_lt)
      hwhole h.positive rest _ _ [] r pkt h.chunkSize (List.nil_append _) hk

/-- One message: the peer reads it off and the two stay in step. -/
theorem readAll_written {l : Link} {r : Receiver} {p : RTMPPacket} (pkt : RTMPPacket) (h : InStep l r)
    (hp : Sendable (l.prev p) p) :
    ∃ l' r' pkt' m, l.step p = some l' ∧ InStep l' r' ∧ [m.message] = l.delivered p ∧
      ∀ rest, readAll r pkt (l.written p ++ rest) = (readAll r' pkt' rest).map (m :: ·) id := by
  rcases hp.header with hlarge | ⟨hmedium, prev, hprev, hinfo⟩
  · have hc : compressed (l.prev p) p = (p, 0) := compressed_large hlarge
    refine readAll_header h hp hc (j := p.headerType) rfl (by simp [hlarge, sizeLarge])
      (q := { pkt with headerType := p.headerType, nChannel := p.nChannel,
                       hasAbsTimestamp := true })
      (by rw [if_pos hlarge]) ?_ _ rfl ?_
    · constructor <;> simp [hlarge, sizeLarge]
    · simp [Link.heard, Clock.hear, hc, hlarge, sizeLarge, Receiver.stamp]
  · obtain ⟨k, hc, hk, hsame, hrep⟩ := compressed_medium (q := prev) hmedium
    rw [← hprev] at hc
    obtain ⟨hn, ⟨j, hin⟩, hnow⟩ := h.channels p.nChannel prev hprev
    have hpos : k ≠ sizeLarge := by
      rcases hk with rfl | rfl | rfl <;> simp [sizeLarge, sizeMedium, sizeSmall, sizeMinimum]
    refine readAll_header h hp hc (j := k) rfl ?_
      (q := reading prev j false (l.clock p.nChannel).field []) ?_ ?_ _ rfl ?_
    · rcases hk with rfl | rfl | rfl <;> simp [sizeMedium, sizeSmall, sizeMinimum]
    · rw [if_neg hpos, hin]
      rfl
    · constructor
      · exact hn
      · exact fun _ => rfl
      · exact fun _ => hinfo
      · exact fun h2 => (hsame fun hm => by simp [hm, sizeMedium] at h2).1
      · exact fun h2 => (hsame fun hm => by simp [hm, sizeMedium] at h2).2
    · simp only [Link.heard, Clock.hear, hc, if_neg hpos, Receiver.stamp, hnow]
      by_cases hmin : k = sizeMinimum
      · simp [hmin, sizeMinimum, reading, UInt32.add_comm]
      · have h3 : k ≠ 3 := hmin
        simp [hmin, h3, reading, UInt32.add_comm]

/-! ## Whole streams -/

/-- The peer can follow every packet of the stream. -/
def Stream (l : Link) (ps : List RTMPPacket) : Prop :=
  Runs.Along Link.step (fun l p => Sendable (l.prev p) p) l ps

def Link.writtenAll (l : Link) (ps : List RTMPPacket) : List UInt8 :=
  Runs.observed Link.step Link.written l ps

def Link.deliveredAll (l : Link) (ps : List RTMPPacket) : List Message :=
  Runs.observed Link.step Link.delivered l ps

theorem observed_cons {β : Type*} {obs : Link → RTMPPacket → List β} {l l' : Link}
    {p : RTMPPacket} {ps : List RTMPPacket} (h : l.step p = some l') :
    Runs.observed Link.step obs l (p :: ps) = obs l p ++ Runs.observed Link.step obs l' ps := by
  simp [Runs.observed, h]

theorem readAll_nil (r : Receiver) (pkt : RTMPPacket) : readAll r pkt [] = ([], r) :=
  readAll_of_none rfl

/-- The peer reads one message for each packet, in order, whatever comes after
them on the wire. -/
theorem readAll_stream {l : Link} {r : Receiver} {ps : List RTMPPacket} (pkt : RTMPPacket)
    (h : InStep l r) (hps : Stream l ps) :
    ∃ l' r' pkt', Runs.run Link.step l ps = some l' ∧ InStep l' r' ∧ ∀ rest,
      (readAll r pkt (l.writtenAll ps ++ rest)).1.map RTMPPacket.message =
          l.deliveredAll ps ++ (readAll r' pkt' rest).1.map RTMPPacket.message ∧
        (readAll r pkt (l.writtenAll ps ++ rest)).2 = (readAll r' pkt' rest).2 := by
  induction ps generalizing l r pkt with
  | nil => exact ⟨l, r, pkt, rfl, h, fun rest => ⟨rfl, rfl⟩⟩
  | cons p ps ih =>
    obtain ⟨l₁, r₁, pkt₁, m, hstep, hin, hm, hread⟩ := readAll_written pkt h hps.1
    obtain ⟨l', r', pkt', hrun, hin', hrest⟩ := ih pkt₁ hin (hps.2 l₁ hstep)
    refine ⟨l', r', pkt', by simp [hstep, hrun], hin', fun rest => ?_⟩
    have hw : l.writtenAll (p :: ps) ++ rest = l.written p ++ (l₁.writtenAll ps ++ rest) := by
      rw [Link.writtenAll, observed_cons hstep, List.append_assoc]
      rfl
    have hd : l.deliveredAll (p :: ps) = m.message :: l₁.deliveredAll ps := by
      rw [Link.deliveredAll, observed_cons hstep, ← hm]
      rfl
    obtain ⟨h1, h2⟩ := hrest rest
    rw [hw, hread, hd]
    exact ⟨by simp [h1], by simpa using h2⟩

theorem map_readAll_stream {l : Link} {r : Receiver} {ps : List RTMPPacket} (pkt : RTMPPacket)
    (h : InStep l r) (hps : Stream l ps) :
    (readAll r pkt (l.writtenAll ps)).1.map RTMPPacket.message = l.deliveredAll ps := by
  obtain ⟨l', r', pkt', -, -, hread⟩ := readAll_stream pkt h hps
  have hnil := (hread []).1
  rwa [List.append_nil, readAll_nil, List.map_nil, List.append_nil] at hnil

theorem step_of_sendable {l : Link} {p : RTMPPacket} (hp : Sendable (l.prev p) p) :
    ∃ l', l.step p = some l' := by
  have hsane : ¬ 3 < (compressed (l.prev p) p).1.headerType := by
    rcases hp.header with hlarge | ⟨hmedium, q, hq, -⟩
    · simp [compressed_large hlarge, hlarge, sizeLarge]
    · obtain ⟨k, hc, hcase, -, -⟩ := compressed_medium (q := q) hmedium
      rw [hq, hc]
      rcases hcase with rfl | rfl | rfl <;> simp [sizeMedium, sizeSmall, sizeMinimum]
  have hsane' : ¬ 3 < (compressed (l.sender.vecChannelsOut p.nChannel) p).1.headerType := hsane
  simp [Link.step, sendPacket, hsane']

/-- A message without its time. -/
def Message.timeless (m : Message) : Message := { m with nTimeStamp := 0 }

theorem deliveredAll_timeless {l : Link} {ps : List RTMPPacket} (hps : Stream l ps) :
    (l.deliveredAll ps).map Message.timeless = ps.map fun p => p.message.timeless := by
  induction ps generalizing l with
  | nil => rfl
  | cons p ps ih =>
    obtain ⟨l', hstep⟩ := step_of_sendable hps.1
    have htail := ih (hps.2 l' hstep)
    rw [Link.deliveredAll] at htail ⊢
    rw [observed_cons hstep, List.map_append, htail]
    rfl

theorem inStep_init : InStep {} {} where
  chunkSize := rfl
  positive := by decide
  channels := by simp

/-- Two audio messages of one size at one time. -/
def audioTwice : List RTMPPacket :=
  [{ packetType := 8, nChannel := 4, nTimeStamp := 40, nBodySize := 2, body := [0xaf, 1] },
   { headerType := 1, packetType := 8, nChannel := 4, nTimeStamp := 40, nBodySize := 2,
     body := [0xaf, 2] }]

theorem stream_audioTwice : Stream {} audioTwice :=
  Runs.along_cons ⟨by decide, by decide, rfl, by decide, .inl rfl⟩ rfl
    (Runs.along_cons ⟨by decide, by decide, rfl, by decide, .inr ⟨rfl, _, rfl, rfl⟩⟩ rfl trivial)

/-- The peer reads one message for each packet sent, in order, on its channel
and with its type, its stream and its body, however the headers were compressed
and the bodies cut into chunks. -/
theorem peer_reads_messages {l : Link} {r : Receiver} (pkt : RTMPPacket) {ps : List RTMPPacket}
    (h : InStep l r) (hps : Stream l ps) :
    ((readAll r pkt (l.writtenAll ps)).1.map fun m => m.message.timeless) =
      ps.map fun p => p.message.timeless := by
  rw [← deliveredAll_timeless hps, ← map_readAll_stream pkt h hps, List.map_map]
  rfl

theorem peer_reads_messages_audioTwice :
    ((readAll {} {} (Link.writtenAll {} audioTwice)).1.map fun m => m.message.timeless) =
      audioTwice.map fun p => p.message.timeless :=
  peer_reads_messages {} inStep_init stream_audioTwice

/-! ## Where the peer's clock goes wrong -/

/-- The peer's clock is right on every channel that was used. -/
def Link.Accurate (l : Link) : Prop :=
  ∀ ch prev, l.sender.vecChannelsOut ch = some prev → (l.clock ch).now = prev.nTimeStamp

/-- The packet repeats the one before it, which had a timestamp field that was
not zero: the header is compressed away, and the peer counts the field twice. -/
def Link.Stale (l : Link) (p : RTMPPacket) : Prop :=
  p.headerType = sizeMedium ∧ (∃ q, l.prev p = some q ∧ Repeats q p) ∧
    (l.clock p.nChannel).field ≠ 0

theorem heard_of_stale {l : Link} {p : RTMPPacket} (h : l.Accurate) (hs : l.Stale p) :
    (l.heard p).now = p.nTimeStamp + (l.clock p.nChannel).field := by
  obtain ⟨hmedium, ⟨q, hq, hrep⟩, -⟩ := hs
  obtain ⟨k, hc, -, -, hk⟩ := compressed_medium (q := q) hmedium
  have hnow := h p.nChannel q hq
  obtain rfl := hk.mpr hrep
  have hne : sizeMinimum ≠ sizeLarge := by decide
  simp only [Link.heard, Clock.hear, hq, hc, if_neg hne, if_true, hnow, hrep.2.2]

theorem heard_of_fresh {l : Link} {p : RTMPPacket} (h : l.Accurate) (hp : Sendable (l.prev p) p)
    (hs : ¬ l.Stale p) : (l.heard p).now = p.nTimeStamp := by
  rcases hp.header with hlarge | ⟨hmedium, q, hq, -⟩
  · simp [Link.heard, Clock.hear, compressed_large hlarge, hlarge]
  · obtain ⟨k, hc, hcase, -, hk⟩ := compressed_medium (q := q) hmedium
    have hnow := h p.nChannel q hq
    have hpos : k ≠ sizeLarge := by
      rcases hcase with rfl | rfl | rfl <;> decide
    by_cases hmin : k = sizeMinimum
    · -- Nothing is left of the header, so the field that counts again has to be zero.
      have hrep := hk.mp hmin
      have hzero : (l.clock p.nChannel).field = 0 := by
        by_contra hne
        exact hs ⟨hmedium, ⟨q, hq, hrep⟩, hne⟩
      have hne : sizeMinimum ≠ sizeLarge := by decide
      simp [Link.heard, Clock.hear, hq, hc, hmin, hne, hzero, hnow, hrep.2.2]
    · simp only [Link.heard, Clock.hear, hq, hc, if_neg hpos, if_neg hmin, hnow]
      rw [UInt32.add_comm, UInt32.sub_add_cancel]

theorem accurate_step {l l' : Link} {p : RTMPPacket} (h : l.Accurate) (hs : l.step p = some l')
    (hnow : (l.heard p).now = p.nTimeStamp) : l'.Accurate := by
  obtain ⟨⟨bytes, sender⟩, hsend, rfl⟩ := Option.map_eq_some_iff.mp hs
  have hch : (compressed (l.prev p) p).1.nChannel = p.nChannel ∧
      (compressed (l.prev p) p).1.nTimeStamp = p.nTimeStamp := by
    unfold compressed
    split
    · exact ⟨rfl, rfl⟩
    · dsimp only
      split_ifs <;> exact ⟨rfl, rfl⟩
  have hsender : sender = l.sender.record (compressed (l.prev p) p).1 := by
    simp only [sendPacket] at hsend
    split at hsend
    · simp at hsend
    · exact (Prod.ext_iff.mp (Option.some.inj hsend)).2.symm
  intro ch prev hprev
  by_cases hc : ch = p.nChannel
  · subst hc
    obtain rfl : (compressed (l.prev p) p).1 = prev := by
      simpa [hsender, Sender.record, hch.1] using hprev
    simpa [hch.2] using hnow
  · have hold : l.sender.vecChannelsOut ch = some prev := by
      simpa [hsender, Sender.record, hch.1, hc] using hprev
    simpa [hc] using h ch prev hold

/-- The peer reads exactly what was sent if and only if no packet was stale. -/
theorem peer_reads_sent_iff {l : Link} {r : Receiver} {pkt : RTMPPacket} {ps : List RTMPPacket}
    (h : InStep l r) (ha : l.Accurate) (hps : Stream l ps) :
    (readAll r pkt (l.writtenAll ps)).1.map RTMPPacket.message = ps.map RTMPPacket.message ↔
      Runs.Along Link.step (fun l p => ¬ l.Stale p) l ps := by
  rw [map_readAll_stream pkt h hps]
  clear h r pkt
  induction ps generalizing l with
  | nil => simp [Link.deliveredAll, Runs.observed, Runs.Along]
  | cons p ps ih =>
    obtain ⟨l', hstep⟩ := step_of_sendable hps.1
    have hd : l.deliveredAll (p :: ps) =
        { p.message with nTimeStamp := (l.heard p).now } :: l'.deliveredAll ps := by
      rw [Link.deliveredAll, observed_cons hstep]
      rfl
    rw [hd, List.map_cons, List.cons.injEq]
    by_cases hs : l.Stale p
    · -- A stale packet is heard later than it was sent.
      constructor
      · rintro ⟨hm, -⟩
        have hnow : (l.heard p).now = p.nTimeStamp := congrArg Message.nTimeStamp hm
        rw [heard_of_stale ha hs] at hnow
        exact absurd (by simpa using hnow) hs.2.2
      · exact fun hall => absurd hs hall.1
    · have hnow := heard_of_fresh ha hps.1 hs
      have htail := ih (accurate_step ha hstep hnow) (hps.2 l' hstep)
      constructor
      · rintro ⟨-, htl⟩
        exact Runs.along_cons hs hstep (htail.mp htl)
      · intro hall
        exact ⟨by rw [hnow]; rfl, htail.mpr (hall.2 l' hstep)⟩

theorem peer_reads_sent_audioTwice :
    ¬ (readAll {} {} (Link.writtenAll {} audioTwice)).1.map RTMPPacket.message =
      audioTwice.map RTMPPacket.message := by
  rw [peer_reads_sent_iff inStep_init (by simp [Link.Accurate]) stream_audioTwice]
  rintro ⟨-, h⟩
  exact (h _ rfl).1 ⟨rfl, ⟨_, rfl, rfl, rfl, rfl⟩, by decide⟩

end WaxxyLive.Rtmp
