import WaxxyLive.LiveKit.Amf

/-!
# Calls between the publisher and the server

After the handshake the library calls `connect`, and goes on as the server
answers: `releaseStream`, `FCPublish` and `createStream`, then `publish` on the
stream it was given. A call waits in a queue for its result. The server may send
other messages at any time, close the connection, or report a failure. A message
that cannot be written to its end leaves its beginning on the wire, and closing
the connection still writes behind it.
-/

namespace WaxxyLive.Rtmp

open Bytes Amf

/-- The bytes of a constant such as `av_connect`. -/
def av (s : String) : List UInt8 := s.toList.map fun c => UInt8.ofNat c.toNat

/-! ## The session's state -/

/-- The codes that `PILI_RTMP_Close` passes on to the error callback. -/
inductive RTMPErrorCode where
  | sendFailed
  | serverRequestedClose
  | netStreamFailed
  | netStreamPlayFailed
  | netStreamPlayStreamNotFound
  | netConnectionConnectInvalidApp
  | socketTimeout
  deriving DecidableEq, Repr

/-- `PILI_RTMP_METHOD` -/
structure Method where
  name : List UInt8
  num : Int
  deriving DecidableEq, Repr

/-- The part of `PILI_RTMP_LNK` that is sent. -/
structure RTMPLink where
  playpath : List UInt8 := []
  app : List UInt8 := []
  flashVer : List UInt8 := []
  swfUrl : List UInt8 := []
  tcUrl : List UInt8 := []

/-- A `PILI_RTMP` that publishes. `connected` is `PILI_RTMP_IsConnected`; `network`
is what becomes of the messages to come, all of them written when it runs out;
`wire` is what was written and `told` are the calls of the error callback. -/
structure RTMP where
  link : RTMPLink := {}
  connected : Bool := true
  isClosing : Bool := false
  numInvokes : Int := 0
  methodCalls : List Method := []
  streamId : Int := 0
  bPlaying : Bool := false
  nBWCheckCounter : Int := 0
  nBytesIn : Int := 0
  nBytesInSent : Int := 0
  nClientBW : Int := 2500000
  network : List WriteResult := []
  wire : List Sent := []
  told : List RTMPErrorCode := []

/-- `(int)` of a double, where C defines it. -/
def castInt (number : UInt64) : Option Int :=
  match Binary64.truncate number with
  | none => none
  | some n => if -2 ^ 31 ≤ n ∧ n < 2 ^ 31 then some n else none

/-! ## What calls look like -/

/-- The room for a body in a buffer of `size` bytes: it starts after
`RTMP_MAX_HEADER_SIZE`. -/
def bodyRoom (size : Nat) : Nat := size - 18

/-- A call's name and number, and then what `rest` writes. -/
def callBody (size : Nat) (name : List UInt8) (txn : Int)
    (rest : List UInt8 → Option (List UInt8)) : Option (List UInt8) :=
  (encodeString (bodyRoom size) [] name).bind fun enc =>
    (encodeNumber (bodyRoom size) enc (Binary64.ofInt txn)).bind rest

/-- A packet of type `0x14`. -/
def invokePacket (nChannel headerType : Nat) (nTimeStamp nInfoField2 : UInt32)
    (body : List UInt8) : RTMPPacket :=
  { headerType, packetType := 0x14, nChannel, nTimeStamp, nInfoField2,
    nBodySize := body.length, body }

/-- What `PILI_RTMP_SendPacket` reads of a call that it queues. -/
def methodOf (body : List UInt8) : Method :=
  let ptr := body.drop 1
  let len := decodeInt16 ptr
  { name := (ptr.drop 2).take len
    num := (castInt (decodeNumber (ptr.drop (3 + len)))).getD 0 }

namespace RTMP

/-! ## Sending -/

/-- `PILI_RTMP_SendPacket` up to the failure of a write: the call of a message
that is out to its end is queued if it should be. -/
def put (r : RTMP) (packet : RTMPPacket) (queue : Bool) : RTMP × WriteResult :=
  if r.connected then
    match r.network with
    | .failed cut :: network =>
      ({ r with network, wire := r.wire ++ cutOff cut packet }, .failed cut)
    | .nothing cut :: network =>
      ({ r with network, wire := r.wire ++ cutOff cut packet }, .nothing cut)
    | network =>
      ({ r with
          network := network.tail
          wire := r.wire ++ [.whole packet]
          methodCalls :=
            if packet.packetType = 0x14 ∧ queue then r.methodCalls ++ [methodOf packet.body]
            else r.methodCalls }, .wrote)
  else (r, .failed false)

/-- `++r->m_numInvokes`, an `int`. -/
def nextInvoke (r : RTMP) : RTMP := { r with numInvokes := (r.numInvokes + 1).bmod (2 ^ 32) }

/-- `SendFCUnpublish` and `SendDeleteStream` as `PILI_RTMP_Close` calls them: a
write that fails there closes nothing. -/
def sendFCUnpublish (r : RTMP) : RTMP :=
  let r := r.nextInvoke
  match callBody 1024 (av "FCUnpublish") r.numInvokes fun enc =>
      encodeString (bodyRoom 1024) (enc ++ [amfNull]) r.link.playpath with
  | none => r
  | some body => (r.put (invokePacket 3 sizeMedium 0 0 body) false).1

def sendDeleteStream (r : RTMP) (dStreamId : Int) : RTMP :=
  let r := r.nextInvoke
  match callBody 256 (av "deleteStream") r.numInvokes fun enc =>
      encodeNumber (bodyRoom 256) (enc ++ [amfNull]) (Binary64.ofInt dStreamId) with
  | none => r
  | some body => (r.put (invokePacket 3 sizeMedium 0 0 body) false).1

/-- `PILI_RTMP_Close`, with the error it is given if there is one. -/
def close (r : RTMP) (error : Option RTMPErrorCode) : RTMP :=
  if r.isClosing then r
  else
    let r := { r with isClosing := true }
    let r :=
      if r.connected then
        let r :=
          if 0 < r.streamId then
            { r.sendFCUnpublish with streamId := 0 }.sendDeleteStream r.streamId
          else r
        { r with told := r.told ++ error.toList }
      else r
    { r with
      streamId := -1
      connected := false
      nBWCheckCounter := 0
      nBytesIn := 0
      nBytesInSent := 0
      methodCalls := []
      numInvokes := 0
      bPlaying := false }

/-- `PILI_RTMP_SendPacket`, and whether it returns `TRUE`. `reports` says whether
it was given an error to fill. -/
def sendPacket (r : RTMP) (packet : RTMPPacket) (queue reports : Bool) : RTMP × Bool :=
  match r.put packet queue with
  | (r, .wrote) => (r, true)
  | (r, .nothing _) => (r, false)
  | (r, .failed _) => (r.close (if reports then some .sendFailed else none), false)

/-- A call whose body may not fit: nothing is sent then. -/
def sendInvoke (r : RTMP) (nChannel headerType : Nat) (nTimeStamp nInfoField2 : UInt32)
    (body : Option (List UInt8)) (queue : Bool) : RTMP × Bool :=
  match body with
  | none => (r, false)
  | some body =>
    r.sendPacket (invokePacket nChannel headerType nTimeStamp nInfoField2 body) queue true

/-- `SendReleaseStream` and `SendFCPublish`: a call with the playpath. -/
def sendWithPlaypath (r : RTMP) (name : List UInt8) : RTMP × Bool :=
  let r := r.nextInvoke
  r.sendInvoke 3 sizeMedium 0 0
    (callBody 1024 name r.numInvokes fun enc =>
      encodeString (bodyRoom 1024) (enc ++ [amfNull]) r.link.playpath) false

def sendReleaseStream (r : RTMP) : RTMP × Bool := r.sendWithPlaypath (av "releaseStream")

def sendFCPublish (r : RTMP) : RTMP × Bool := r.sendWithPlaypath (av "FCPublish")

def sendCreateStream (r : RTMP) : RTMP × Bool :=
  let r := r.nextInvoke
  r.sendInvoke 3 sizeMedium 0 0
    (callBody 256 (av "createStream") r.numInvokes fun enc => some (enc ++ [amfNull])) true

def sendPublish (r : RTMP) : RTMP × Bool :=
  let r := r.nextInvoke
  r.sendInvoke 4 sizeLarge 0 (UInt32.ofInt r.streamId)
    (callBody 1024 (av "publish") r.numInvokes fun enc =>
      (encodeString (bodyRoom 1024) (enc ++ [amfNull]) r.link.playpath).bind fun enc =>
        encodeString (bodyRoom 1024) enc (av "live")) true

def sendCheckBW (r : RTMP) : RTMP × Bool :=
  let r := r.nextInvoke
  r.sendInvoke 3 sizeLarge 0 0
    (callBody 256 (av "_checkbw") r.numInvokes fun enc => some (enc ++ [amfNull])) false

def sendCheckBWResult (r : RTMP) (txn : Int) : RTMP × Bool :=
  let nBWCheckCounter := r.nBWCheckCounter
  { r with nBWCheckCounter := (nBWCheckCounter + 1).bmod (2 ^ 32) }.sendInvoke 3 sizeMedium
    (UInt32.ofInt (0x16 * nBWCheckCounter)) 0
    (callBody 256 (av "_result") txn fun enc =>
      encodeNumber (bodyRoom 256) (enc ++ [amfNull]) (Binary64.ofInt nBWCheckCounter)) false

def sendPong (r : RTMP) (txn : Int) : RTMP × Bool :=
  r.sendInvoke 3 sizeMedium (UInt32.ofInt (0x16 * r.nBWCheckCounter)) 0
    (callBody 256 (av "pong") txn fun enc => some (enc ++ [amfNull])) false

/-- `PILI_RTMP_SendCtrl` with the type 7, the answer to a ping. It is given no
error to fill. -/
def sendCtrlPong (r : RTMP) (nObject : Nat) : RTMP × Bool :=
  r.sendPacket
    { headerType := sizeMedium, packetType := 4, nChannel := 2, nBodySize := 6,
      body := encodeInt16 7 ++ encodeInt32 nObject } false false

/-- `SendBytesReceived`, which `ReadN` gives no error to fill. -/
def sendBytesReceived (r : RTMP) : RTMP × Bool :=
  { r with nBytesInSent := r.nBytesIn }.sendPacket
    { headerType := sizeMedium, packetType := 3, nChannel := 2, nBodySize := 4,
      body := encodeInt32 (UInt32.ofInt r.nBytesIn).toNat } false false

/-- The object of `SendConnectPacket`; fields that are empty are left out. -/
def connectFields (link : RTMPLink) : List (List UInt8 × List UInt8) :=
  [(av "app", link.app), (av "type", av "nonprivate")] ++
    [(av "flashVer", link.flashVer), (av "swfUrl", link.swfUrl), (av "tcUrl", link.tcUrl)].filter
      fun field => field.2 ≠ []

def encodeFields : List UInt8 → List (List UInt8 × List UInt8) → Option (List UInt8)
  | enc, [] => some enc
  | enc, (strName, strValue) :: more =>
    (encodeNamedString (bodyRoom 4096) enc strName strValue).bind (encodeFields · more)

/-- `SendConnectPacket` -/
def sendConnectPacket (r : RTMP) : RTMP × Bool :=
  let r := r.nextInvoke
  r.sendInvoke 3 sizeLarge 0 0
    (callBody 4096 (av "connect") r.numInvokes fun enc =>
      (encodeFields (enc ++ [amfObject]) (connectFields r.link)).bind fun enc =>
        if bodyRoom 4096 ≤ enc.length + 3 then none
        else some (enc ++ encodeInt24 amfObjectEnd)) true

/-- The end of `PILI_RTMP_Connect1`, after the handshake. -/
def connect1 (r : RTMP) : RTMP × Bool :=
  match r.sendConnectPacket with
  | (r, true) => (r, true)
  | (r, false) => (r.close none, false)

/-! ## What the server calls -/

/-- `AMF_GetProp` by index. The entry after the last one is there, but holds
nothing that was written. -/
def getProp (obj : AMFObject) (nIndex : Nat) : Option AMFValue :=
  if nIndex = obj.length then none else some ((obj[nIndex]?.map Prod.snd).getD .invalid)

/-- `AMF_GetProp` by name. -/
def getPropNamed (obj : AMFObject) (name : List UInt8) : AMFValue :=
  ((obj.find? fun prop => prop.1 = name).map Prod.snd).getD .invalid

/-- `AMFProp_GetNumber` and its siblings do not look at the type: what they give
for another one, other than `AMFProp_Invalid`, means nothing. -/
def getNumber : AMFValue → Option UInt64
  | .number number | .boolean number | .date number _ => some number
  | .invalid => some 0
  | _ => none

def getString : AMFValue → Option (List UInt8)
  | .string aval => some aval
  | .invalid => some []
  | _ => none

def getObject : AMFValue → Option AMFObject
  | .object object => some object
  | .invalid => some []
  | _ => none

/-- `txn` of a call. -/
def txnOf (obj : AMFObject) : Option Int := ((getProp obj 1).bind getNumber).bind castInt

/-- A `_result`. -/
def handleResult (r : RTMP) (obj : AMFObject) (txn : Int) : Option RTMP :=
  match r.methodCalls.find? fun call => call.num = txn with
  | none => some r
  | some call =>
    let r := { r with methodCalls := r.methodCalls.eraseP fun call => call.num = txn }
    if call.name = av "connect" then
      some r.sendReleaseStream.1.sendFCPublish.1.sendCreateStream.1
    else if call.name = av "createStream" then
      (((getProp obj 3).bind getNumber).bind castInt).map fun streamId =>
        { r with streamId }.sendPublish.1
    else if call.name = av "play" ∨ call.name = av "publish" then some { r with bPlaying := true }
    else some r

/-- The codes of `onStatus` that say that the stream has failed. -/
def failureOf (code : List UInt8) : Option RTMPErrorCode :=
  if code = av "NetStream.Failed" then some .netStreamFailed
  else if code = av "NetStream.Play.Failed" then some .netStreamPlayFailed
  else if code = av "NetStream.Play.StreamNotFound" then some .netStreamPlayStreamNotFound
  else if code = av "NetConnection.Connect.InvalidApp" then some .netConnectionConnectInvalidApp
  else none

/-- Forget the first call of a name. -/
def eraseCall (r : RTMP) (name : List UInt8) : RTMP :=
  { r with methodCalls := r.methodCalls.eraseP fun call => call.name = name }

/-- An `onStatus`. The notifications of a seek and of a pause change nothing
here: nothing was sought or paused. -/
def handleStatus (r : RTMP) (code : List UInt8) : RTMP :=
  match failureOf code with
  | some error => { r with streamId := -1 }.close (some error)
  | none =>
    if code = av "NetStream.Play.Start" then { r with bPlaying := true }.eraseCall (av "play")
    else if code = av "NetStream.Publish.Start" then
      { r with bPlaying := true }.eraseCall (av "publish")
    else if code = av "NetStream.Play.Complete" ∨ code = av "NetStream.Play.Stop" ∨
        code = av "NetStream.Play.UnpublishNotify" then r.close none
    else r

/-- The body of `HandleInvoke` once the call is decoded. -/
def handleCall (r : RTMP) (method : List UInt8) (obj : AMFObject) : Option RTMP :=
  if method = av "_result" then (txnOf obj).bind (r.handleResult obj)
  else if method = av "onBWDone" then
    some (if r.nBWCheckCounter = 0 then r.sendCheckBW.1 else r)
  else if method = av "onFCSubscribe" then some r
  else if method = av "onFCUnsubscribe" then some (r.close none)
  else if method = av "ping" then (txnOf obj).map fun txn => (r.sendPong txn).1
  else if method = av "_onbwcheck" then (txnOf obj).map fun txn => (r.sendCheckBWResult txn).1
  else if method = av "_onbwdone" then some (r.eraseCall (av "_checkbw"))
  else if method = av "_error" then some r
  else if method = av "close" then some (r.close (some .serverRequestedClose))
  else if method = av "onStatus" then
    (((getProp obj 3).bind getObject).bind fun obj2 =>
      getString (getPropNamed obj2 (av "code"))).map r.handleStatus
  else if method = av "playlist_ready" then some (r.eraseCall (av "set_playlist"))
  else some r

/-- `HandleInvoke`; none where it reads what was not written. -/
def handleInvoke (r : RTMP) (body : List UInt8) : Option RTMP :=
  match body.head? with
  | none => none
  | some type =>
    if type ≠ amfString then some r
    else
      match decode body false with
      | .error .failed => some r
      | .error _ => none
      | .ok obj => ((getProp obj 0).bind getString).bind fun method => r.handleCall method obj

/-- `HandleCtrl`, of which a publisher answers pings. -/
def handleCtrl (r : RTMP) (body : List UInt8) : RTMP :=
  if 6 ≤ body.length ∧ decodeInt16 body = 6 then (r.sendCtrlPong (decodeInt32 (body.drop 2))).1
  else r

/-- `PILI_RTMP_ClientPacket`, without what it notes about the media and the size
of the chunks. -/
def clientPacket (r : RTMP) (packetType : UInt8) (body : List UInt8) : Option RTMP :=
  match packetType.toNat with
  | 0x04 => some (r.handleCtrl body)
  | 0x05 => if body.length < 4 then none else some r
  | 0x06 =>
    if body.length < 4 then none
    else some { r with nClientBW := (decodeInt32 body : Int).bmod (2 ^ 32) }
  | 0x11 => r.handleInvoke (body.drop 1)
  | 0x14 => r.handleInvoke body
  | _ => some r

/-! ## Reading -/

/-- A read of `ReadN` that brings `nRead` bytes. -/
def bytesRead (r : RTMP) (nRead : Nat) : RTMP :=
  let r := { r with nBytesIn := (r.nBytesIn + nRead).bmod (2 ^ 32) }
  if r.nBytesInSent + r.nClientBW.tdiv 2 < r.nBytesIn then r.sendBytesReceived.1 else r

/-- The reads of a round, and whether all of them bring something. A report that
fails closes the connection and drops what was buffered, so the next read fails. -/
def readAll (r : RTMP) : List Nat → RTMP × Bool
  | [] => (r, true)
  | nRead :: reads => if r.connected then (r.bytesRead nRead).readAll reads else (r, false)

/-- What `PILI_RTMP_ReadPacket` gives, with the bytes of each of its reads: a chunk
that completes no message, a message (`single` if it came in one chunk), or a
failure. -/
inductive Arrival where
  | chunk (reads : List Nat)
  | packet (single : Bool) (reads : List Nat) (packetType : UInt8) (body : List UInt8)
  | readFailed (reads : List Nat) (timedOut : Bool)

/-- What the loop of `PILI_RTMP_ConnectStream` does with a message. -/
def handlePacket (r : RTMP) (packetType : UInt8) (body : List UInt8) : Option RTMP :=
  if body = [] ∨ packetType.toNat ∈ [0x08, 0x09, 0x12] then some r
  else r.clientPacket packetType body

/-- A round of the loop of `PILI_RTMP_ConnectStream`. -/
def step (r : RTMP) (a : Arrival) : Option RTMP :=
  if r.bPlaying ∨ ¬r.connected then none
  else
    match a with
    | .chunk reads => some (r.readAll reads).1
    | .packet single reads packetType body =>
      match r.readAll reads with
      | (r, false) => some r
      | (r, true) =>
        -- the last read may have closed the connection, which frees the bodies begun before
        if r.connected ∨ single ∨ body = [] then r.handlePacket packetType body else none
    | .readFailed reads timedOut =>
      some ((r.readAll reads).1.close (if timedOut then some .socketTimeout else none))

end RTMP

end WaxxyLive.Rtmp
