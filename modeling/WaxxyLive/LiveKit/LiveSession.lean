import WaxxyLive.LiveKit.Publishing
import WaxxyLive.LiveKit.VideoEncoder

/-!
# The session

`LFLiveSession` passes the frames of its encoders on to its socket while it is
uploading. A socket that is stopped is dropped, but lives on in its blocks and
still reports to the session, so the table keeps every socket ever made. Frames
come from the encoders' threads and reports from the sockets' queues, in any
order; each callback is one step.
-/

namespace WaxxyLive.LiveKit

open Mux (LFLiveState)

/-! ## The session's state -/

/-- The bits of `LFLiveCaptureTypeMask`. -/
def liveCaptureMaskAudio : UInt64 := 1
def liveCaptureMaskVideo : UInt64 := 2
def liveInputMaskAudio : UInt64 := 4
def liveInputMaskVideo : UInt64 := 8

/-- `LFLiveCaptureDefaultMask` -/
def liveCaptureDefaultMask : UInt64 := liveCaptureMaskAudio ||| liveCaptureMaskVideo

/-- `sockets` holds the sockets made so far and `socket` the current one;
`mainBlocks` are the status changes on their way to the main queue. -/
structure LFLiveSession where
  captureType : UInt64 := liveCaptureDefaultMask
  videoConfiguration : Mux.LFLiveVideoConfiguration := {}
  adaptiveBitrate : Bool := false
  reconnectCount : Int := 0
  uploading : Bool := false
  relativeTimestamps : UInt64 := 0
  hasCaptureAudio : Bool := false
  hasKeyFrameVideo : Bool := false
  videoEncoder : Option LFHardwareVideoEncoder := none
  state : LFLiveState := .ready
  mainBlocks : List LFLiveState := []
  sockets : List LFStreamRTMPSocket := []
  socket : Option Nat := none

/-- What is noted of a step: an upload begins, an encoder passes on a frame
during an upload, a socket is acted on. -/
inductive Noted where
  | began
  | encoded (frame : LFFrame)
  | acted (socket : Nat) (action : SocketAction)

/-- What happens to a session. `created` says whether a compression session
could be made, should one be asked for. -/
inductive SessionAction where
  | startLive (created : Bool)
  | stopLive (created : Bool)
  | frame (frame : LFFrame) (created : Bool)
  | captureVideo (noErr created : Bool)
  | socket (socket : Nat) (action : SocketAction) (created : Bool)
  | mainBlock
  | willEnterBackground
  | willEnterForeground (created : Bool)

def SessionAction.created : SessionAction → Bool
  | .startLive created | .stopLive created | .frame _ created | .captureVideo _ created
  | .socket _ _ created | .willEnterForeground created => created
  | .mainBlock | .willEnterBackground => true

/-- The actions of a socket that its session does not take. -/
def SocketAction.isInternal : SocketAction → Bool
  | .start | .stop | .appendObject _ => false
  | _ => true

namespace LFLiveSession

/-- `initWithAudioConfiguration:videoConfiguration:captureType:`, and the
settings made before `startLive:`. -/
def init (captureType : UInt64) (videoConfiguration : Mux.LFLiveVideoConfiguration)
    (adaptiveBitrate : Bool) (reconnectCount : Int) : LFLiveSession :=
  { captureType, videoConfiguration, adaptiveBitrate, reconnectCount }

def takesAudio (s : LFLiveSession) : Bool :=
  s.captureType &&& liveCaptureMaskAudio != 0 || s.captureType &&& liveInputMaskAudio != 0

def takesVideo (s : LFLiveSession) : Bool :=
  s.captureType &&& liveCaptureMaskVideo != 0 || s.captureType &&& liveInputMaskVideo != 0

/-- The getter `AVAlignment`. -/
def avAlignment (s : LFLiveSession) : Bool :=
  if s.takesAudio && s.takesVideo then s.hasCaptureAudio && s.hasKeyFrameVideo else true

/-- The getter `videoEncoder`. -/
def encoder (s : LFLiveSession) (created : Bool) : LFHardwareVideoEncoder :=
  s.videoEncoder.getD (.init s.videoConfiguration created)

/-- The getter `socket`. -/
def current (s : LFLiveSession) : LFLiveSession × Nat :=
  match s.socket with
  | some i => (s, i)
  | none =>
    ({ s with
        sockets := s.sockets ++ [.init s.reconnectCount], socket := some s.sockets.length },
      s.sockets.length)

/-! ## What the sockets report -/

/-- `socketStatus:status:` -/
def socketStatus (s : LFLiveSession) (status : LFLiveState) : LFLiveSession × List Noted :=
  let s := { s with mainBlocks := s.mainBlocks ++ [status] }
  match status with
  | .start =>
    if s.uploading then (s, [])
    else
      ({ s with
          hasCaptureAudio := false
          hasKeyFrameVideo := false
          relativeTimestamps := 0
          uploading := true }, [.began])
  | .stop | .error => ({ s with uploading := false }, [])
  | _ => (s, [])

/-- `socketBufferStatus:status:` -/
def socketBufferStatus (s : LFLiveSession) (status : LFLiveBuffferState) (created : Bool) :
    LFLiveSession :=
  if s.takesVideo && s.adaptiveBitrate then
    let e := s.encoder created
    let videoBitRate := e.currentVideoBitRate
    let e :=
      if status = .decline then
        if videoBitRate.toNat < s.videoConfiguration.videoBitRate.max then
          e.setVideoBitRate (videoBitRate + 50 * 1000)
        else e
      else if s.videoConfiguration.videoBitRate.min < videoBitRate.toNat then
        e.setVideoBitRate (videoBitRate - 100 * 1000)
      else e
    { s with videoEncoder := some e }
  else s

/-- A call of the delegate of a socket. -/
def hear (created : Bool) (s : LFLiveSession) : Told → LFLiveSession × List Noted
  | .socketStatus status => s.socketStatus status
  | .socketDidError _ => (s, [])
  | .socketBufferStatus status => (s.socketBufferStatus status created, [])

def hearAll (created : Bool) (s : LFLiveSession) : List Told → LFLiveSession × List Noted
  | [] => (s, [])
  | told :: more =>
    let (s, noted) := s.hear created told
    let (s, noted') := s.hearAll created more
    (s, noted ++ noted')

variable (S : SortWindow.Sorter LFFrame.time)

/-- Act on a socket, which tells the session what comes of it. -/
def onSocket (s : LFLiveSession) (i : Nat) (a : SocketAction) (created : Bool) :
    Option (LFLiveSession × List Noted) :=
  match s.sockets[i]? with
  | none => none
  | some k => (k.act S a).map fun o =>
    let (s, noted) := { s with sockets := s.sockets.set i o.socket }.hearAll created o.told
    (s, .acted i a :: noted)

/-! ## What is asked of the session -/

def startLive (s : LFLiveSession) (created : Bool) : Option (LFLiveSession × List Noted) :=
  let (s, i) := s.current
  s.onSocket S i .start created

def stopLive (s : LFLiveSession) (created : Bool) : Option (LFLiveSession × List Noted) :=
  let (s, i) := { s with uploading := false }.current
  (s.onSocket S i .stop created).map fun (s, noted) => ({ s with socket := none }, noted)

def pushSendBuffer (s : LFLiveSession) (frame : LFFrame) (created : Bool) :
    Option (LFLiveSession × List Noted) :=
  let s := if s.relativeTimestamps = 0 then { s with relativeTimestamps := frame.timestamp } else s
  let frame := { frame with timestamp := frame.timestamp - s.relativeTimestamps }
  let (s, i) := s.current
  s.onSocket S i (.appendObject frame) created

/-- The part that `audioEncoder:audioFrame:` and `videoEncoder:videoFrame:` share. -/
def passOn (s : LFLiveSession) (frame : LFFrame) (created : Bool) :
    Option (LFLiveSession × List Noted) :=
  if s.avAlignment then
    (s.pushSendBuffer S frame created).map fun (s, noted) => (s, .encoded frame :: noted)
  else some (s, [.encoded frame])

/-- `audioEncoder:audioFrame:` -/
def audioFrame (s : LFLiveSession) (frame : LFFrame) (created : Bool) :
    Option (LFLiveSession × List Noted) :=
  if s.uploading then { s with hasCaptureAudio := true }.passOn S frame created
  else some (s, [])

/-- `videoEncoder:videoFrame:` -/
def videoFrame (s : LFLiveSession) (frame : LFFrame) (created : Bool) :
    Option (LFLiveSession × List Noted) :=
  if s.uploading then
    let s := if frame.isKeyFrame ∧ s.hasCaptureAudio then { s with hasKeyFrameVideo := true } else s
    s.passOn S frame created
  else some (s, [])

/-- `captureOutput:pixelBuffer:` -/
def captureVideo (s : LFLiveSession) (noErr created : Bool) : LFLiveSession :=
  if s.uploading then
    { s with videoEncoder := some ((s.encoder created).encodeVideoData noErr created) }
  else s

def act (s : LFLiveSession) : SessionAction → Option (LFLiveSession × List Noted)
  | .startLive created => s.startLive S created
  | .stopLive created => s.stopLive S created
  | .frame frame created =>
    if frame.isVideo then s.videoFrame S frame created else s.audioFrame S frame created
  | .captureVideo noErr created => some (s.captureVideo noErr created, [])
  | .socket i a created => if a.isInternal then s.onSocket S i a created else none
  | .mainBlock =>
    match s.mainBlocks with
    | [] => none
    | state :: mainBlocks => some ({ s with state, mainBlocks }, [])
  | .willEnterBackground =>
    some ({ s with videoEncoder := s.videoEncoder.map (·.willEnterBackground) }, [])
  | .willEnterForeground created =>
    some ({ s with videoEncoder := s.videoEncoder.map (·.willEnterForeground created) }, [])

def step (s : LFLiveSession) (a : SessionAction) : Option LFLiveSession :=
  (s.act S a).map Prod.fst

def noted (s : LFLiveSession) (a : SessionAction) : List Noted :=
  (s.act S a).elim [] Prod.snd

end LFLiveSession

end WaxxyLive.LiveKit
