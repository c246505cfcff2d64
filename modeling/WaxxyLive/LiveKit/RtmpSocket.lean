import WaxxyLive.MuxLive
import WaxxyLive.LiveKit.MediaMessages

/-!
# The RTMP socket

`LFStreamRTMPSocket` runs its blocks one after the other on its send queue;
frames, timers and the reset of `isSending` come in from other threads between
them. A block is one step, with what the network makes of it as an input.
-/

namespace WaxxyLive.LiveKit

open Rtmp
open Mux (LFLiveState)

inductive LFLiveSocketErrorCode where
  | preView
  | getStreamInfo
  | connectSocket
  | verification
  | reConnectTimeOut
  deriving DecidableEq, Repr

/-- What the delegate of the socket is told. -/
inductive Told where
  | socketStatus (status : LFLiveState)
  | socketDidError (errorCode : LFLiveSocketErrorCode)
  | socketBufferStatus (status : LFLiveBuffferState)
  deriving DecidableEq, Repr

/-- A connected `PILI_RTMP`: its stream, and `PILI_RTMP_IsConnected`. -/
structure Connection where
  streamId : UInt32
  isOpen : Bool
  deriving DecidableEq, Repr

/-- What becomes of an attempt to connect. A stream that plays has its metadata
written; it is `late` where the report of the bytes that said so closed the
connection. An attempt that fails may leave an error code, and may have reported
a negative one when it closed. -/
inductive Network where
  | connected (streamId : UInt32) (metaData : WriteResult)
  | late
  | failed (code : Option Int) (reported : Bool)
  deriving DecidableEq, Repr

/-- The blocks of `rtmpSendQueue`. -/
inductive Block where
  | start
  | stop
  | sendFrame
  | reconnect
  deriving DecidableEq, Repr

/-- `RTMPErrorSendFailed` -/
def rtmpErrorSendFailed : Int := -1006

def retryTimesBreaken : Nat := 5

/-- `queue` is `rtmpSendQueue`; `resets` counts the blocks under way that set
`isSending` to `NO`, `checks` the calls of `sendFrame:` between `appendObject:`
and their look at `isSending`, `mainBlocks` the blocks that are to start a
timer, and `timers` the delayed calls of `_reconnect`. -/
structure LFStreamRTMPSocket where
  buffer : LFStreamingBuffer := {}
  rtmp : Option Connection := none
  errorCode : Int := 0
  retryTimes4netWorkBreaken : Nat := 0
  reconnectCount : Nat := retryTimesBreaken
  isSending : Bool := false
  isConnected : Bool := false
  isConnecting : Bool := false
  isReconnecting : Bool := false
  heads : Heads := {}
  queue : List Block := []
  resets : Nat := 0
  checks : Nat := 0
  mainBlocks : Nat := 0
  timers : Nat := 0

/-- `initWithStream:reconnectInterval:reconnectCount:` -/
def LFStreamRTMPSocket.init (reconnectCount : Int) : LFStreamRTMPSocket :=
  if 0 < reconnectCount then { reconnectCount := reconnectCount.toNat } else {}

/-- A frame that is taken off the buffer, what the network makes of a message of
it, and what is on the wire of that. -/
structure Taken where
  frame : LFFrame
  written : WriteResult
  sent : List Sent := []

/-- The socket after a block, what it told its delegate, the connection it
opened, and the frame it took off the buffer. -/
structure Outcome where
  socket : LFStreamRTMPSocket
  told : List Told := []
  opened : Option Connection := none
  taken : Option Taken := none

namespace LFStreamRTMPSocket

def enqueue (s : LFStreamRTMPSocket) (block : Block) : LFStreamRTMPSocket :=
  { s with queue := s.queue ++ [block] }

/-- `PILI_RTMP_Close` with `_error`, and `PILI_RTMP_Free`. An open connection
hands the error to `RTMPErrorCallback`, whatever it was left by. -/
def close (s : LFStreamRTMPSocket) : LFStreamRTMPSocket :=
  match s.rtmp with
  | none => s
  | some c =>
    let s := { s with rtmp := none }
    if c.isOpen ∧ s.errorCode < 0 then s.enqueue .reconnect else s

/-- The end of `RTMP264_Connect:` for a stream that plays. -/
def playing (s : LFStreamRTMPSocket) (c : Connection) : Outcome :=
  { socket := { s with
      rtmp := some c
      isConnected := true, isConnecting := false, isReconnecting := false, isSending := false }
    told := [.socketStatus .start]
    opened := some c }

/-- `RTMP264_Connect:`, with `sendMetaData`. A connection that is closed has the
stream `-1`, and reports no error a second time. -/
def connect (s : LFStreamRTMPSocket) : Network → Outcome
  | .connected streamId metaData =>
    let s := if metaData.fails then
        { s with errorCode := rtmpErrorSendFailed }.enqueue .reconnect
      else s
    s.playing { streamId, isOpen := !metaData.fails }
  | .late =>
    { s with errorCode := rtmpErrorSendFailed }.playing { streamId := -1, isOpen := false }
  | .failed code reported =>
    let s := { s with errorCode := code.getD s.errorCode }
    let s := if reported then s.enqueue .reconnect else s
    { socket := { s with rtmp := none }.enqueue .reconnect }

/-- The block of `start`. -/
def startBlock (s : LFStreamRTMPSocket) (net : Network) : Outcome :=
  if s.isConnecting ∨ s.rtmp.isSome then { socket := s }
  else
    let o := { s with isConnecting := true }.connect net
    { o with told := .socketStatus .pending :: o.told }

def clean (s : LFStreamRTMPSocket) : LFStreamRTMPSocket :=
  { s with
    isConnecting := false, isReconnecting := false, isSending := false, isConnected := false
    heads := {}
    buffer := s.buffer.removeAllObject
    retryTimes4netWorkBreaken := 0 }

/-- The block of `stop`. The delayed calls it cancels are those of its own
thread's run loop, which has none. -/
def stopBlock (s : LFStreamRTMPSocket) : Outcome :=
  { socket := s.close.clean, told := [.socketStatus .stop] }

/-- `setIsSending:NO`, whose observer calls `sendFrame`. -/
def stopSending (s : LFStreamRTMPSocket) : LFStreamRTMPSocket :=
  { s with isSending := false }.enqueue .sendFrame

/-- `RtmpPacketSend:`. A write that fails closes the connection and reports it. -/
def rtmpPacketSend (s : LFStreamRTMPSocket) (c : Connection) (written : WriteResult) :
    LFStreamRTMPSocket :=
  if c.isOpen ∧ written.fails then
    { s with rtmp := some { c with isOpen := false }, errorCode := rtmpErrorSendFailed }.enqueue
      .reconnect
  else s

/-- The block of `sendFrame`; `none` where a frame's header goes out of bounds. -/
def sendFrameBlock (s : LFStreamRTMPSocket) (written : WriteResult) : Option Outcome :=
  match s.buffer.list, s.rtmp with
  | [], _ => some { socket := s }
  | _ :: _, none => some { socket := if s.isSending then s else s.stopSending }
  | frame :: _, some c =>
    if s.isSending then some { socket := s }
    else if !s.isConnected || s.isReconnecting || s.isConnecting then
      some { socket := s.stopSending }
    else
      let s' := { s with buffer := s.buffer.popFirstObject.1, heads := s.heads.after frame }
      (s.heads.packet c.streamId frame).map fun packet =>
        match packet with
        | none => { socket := s'.stopSending, taken := some { frame, written } }
        | some packet =>
          let s' := s'.rtmpPacketSend c written
          { socket := { s' with
              buffer := { s'.buffer with lastDropFrames := 0 }
              isSending := true
              resets := s'.resets + 1 }
            taken := some
              { frame, written, sent := if c.isOpen then written.sent packet else [] } }

/-- The block of `reconnect`. -/
def reconnectBlock (s : LFStreamRTMPSocket) : Outcome :=
  let retryTimes := s.retryTimes4netWorkBreaken
  let s := { s with retryTimes4netWorkBreaken := retryTimes + 1 }
  if retryTimes < s.reconnectCount ∧ ¬ s.isReconnecting then
    { socket := { s with
        isConnected := false, isConnecting := false, isReconnecting := true
        mainBlocks := s.mainBlocks + 1 } }
  else if s.reconnectCount ≤ s.retryTimes4netWorkBreaken then
    { socket := s, told := [.socketStatus .error, .socketDidError .reConnectTimeOut] }
  else { socket := s }

/-- `_reconnect`, which drops the other delayed calls. -/
def reconnect (s : LFStreamRTMPSocket) (net : Network) : Outcome :=
  let s := { s with timers := 0, isReconnecting := false }
  if s.isConnected then { socket := s }
  else
    let o := { s.close with heads := {} }.connect net
    { o with told := .socketStatus .refresh :: o.told }

/-- The next block of the send queue. -/
def runBlock (s : LFStreamRTMPSocket) (net : Network) (written : WriteResult) : Option Outcome :=
  match s.queue with
  | [] => none
  | block :: queue =>
    let s := { s with queue }
    match block with
    | .start => some (s.startBlock net)
    | .stop => some s.stopBlock
    | .sendFrame => s.sendFrameBlock written
    | .reconnect => some s.reconnectBlock

end LFStreamRTMPSocket

/-! ## Steps -/

/-- What happens to a socket. `appendObject` and `check` are the two halves of
`sendFrame:`, `reset` is the end of a send, `mainBlock` and `timer` are the two
stages of a reconnection, and `tick` is the buffer's clock. -/
inductive SocketAction where
  | start
  | stop
  | appendObject (frame : LFFrame)
  | check
  | runBlock (net : Network) (written : WriteResult)
  | reset
  | mainBlock
  | timer (net : Network)
  | tick

namespace LFStreamRTMPSocket

variable (S : SortWindow.Sorter LFFrame.time)

/-- `streamingBuffer:bufferState:` -/
def bufferState (state : Option LFLiveBuffferState) : List Told :=
  state.toList.map .socketBufferStatus

def act (s : LFStreamRTMPSocket) : SocketAction → Option Outcome
  | .start => some { socket := s.enqueue .start }
  | .stop => some { socket := s.enqueue .stop }
  | .appendObject frame =>
    let (buffer, state) := s.buffer.appendObject S frame
    some { socket := { s with buffer, checks := s.checks + 1 }, told := bufferState state }
  | .check =>
    if 0 < s.checks then
      let s := { s with checks := s.checks - 1 }
      some { socket := if s.isSending then s else s.enqueue .sendFrame }
    else none
  | .runBlock net written => s.runBlock net written
  | .reset =>
    if 0 < s.resets then some { socket := { s with resets := s.resets - 1 }.stopSending } else none
  | .mainBlock =>
    if 0 < s.mainBlocks then
      some { socket := { s with mainBlocks := s.mainBlocks - 1, timers := s.timers + 1 } }
    else none
  | .timer net => if 0 < s.timers then some (s.reconnect net) else none
  | .tick =>
    let (buffer, state) := s.buffer.tick
    some { socket := { s with buffer }, told := bufferState state }

def step (s : LFStreamRTMPSocket) (a : SocketAction) : Option LFStreamRTMPSocket :=
  (s.act S a).map Outcome.socket

theorem act_appendObject (s : LFStreamRTMPSocket) (frame : LFFrame) :
    s.act S (.appendObject frame) = some
      { socket := { s with
          buffer := (s.buffer.appendObject S frame).1
          checks := s.checks + 1 }
        told := bufferState (s.buffer.appendObject S frame).2 } :=
  rfl

theorem act_tick (s : LFStreamRTMPSocket) :
    s.act S .tick = some
      { socket := { s with buffer := s.buffer.tick.1 }, told := bufferState s.buffer.tick.2 } :=
  rfl

/-! ## What the blocks do -/

/-- Closing calls back into `reconnect`: the connection is open, and an error
code is left over from before. -/
def callsBack (s : LFStreamRTMPSocket) : Bool :=
  s.rtmp.any Connection.isOpen && decide (s.errorCode < 0)

theorem close_eq (s : LFStreamRTMPSocket) :
    s.close = { s with
      rtmp := none
      queue := s.queue ++ if s.callsBack then [.reconnect] else [] } := by
  unfold close
  cases hr : s.rtmp with
  | none =>
    cases s
    simp_all [callsBack]
  | some c =>
    by_cases hcall : c.isOpen = true ∧ s.errorCode < 0
    · simp [callsBack, hr, hcall, enqueue]
    · have hback : s.callsBack = false := by simpa [callsBack, hr] using hcall
      simp [hback, hcall]

theorem connect_connected (s : LFStreamRTMPSocket) (streamId : UInt32) (metaData : WriteResult) :
    s.connect (.connected streamId metaData) =
      { s with
        errorCode := if metaData.fails then rtmpErrorSendFailed else s.errorCode
        queue := s.queue ++ if metaData.fails then [Block.reconnect] else [] }.playing
          { streamId, isOpen := !metaData.fails } := by
  cases hfails : metaData.fails <;> simp [connect, enqueue, hfails]

theorem connect_failed (s : LFStreamRTMPSocket) (code : Option Int) (reported : Bool) :
    s.connect (.failed code reported) =
      { socket := { s with
          rtmp := none
          errorCode := code.getD s.errorCode
          queue := s.queue ++ (if reported then [.reconnect] else []) ++ [.reconnect] } } := by
  cases reported <;> simp [connect, enqueue]

/-- The block of `sendFrame` has nothing to do, cannot send, or takes a frame. -/
theorem sendFrameBlock_cases {s : LFStreamRTMPSocket} {written : WriteResult} {o : Outcome}
    (h : s.sendFrameBlock written = some o) :
    (o = { socket := s } ∧ (s.isSending = true ∨ s.buffer.list = [])) ∨
    (o = { socket := s.stopSending } ∧ s.isSending = false ∧
      (s.rtmp = none ∨ s.isConnected = false ∨ s.isReconnecting = true ∨
        s.isConnecting = true)) ∨
    ∃ frame rest c, s.buffer.list = frame :: rest ∧ s.rtmp = some c ∧ s.isSending = false ∧
      s.isConnected = true ∧ s.isReconnecting = false ∧ s.isConnecting = false ∧
      ((s.heads.packet c.streamId frame = some none ∧
        o = { socket := { s with
                buffer := s.buffer.popFirstObject.1, heads := s.heads.after frame }.stopSending
              taken := some { frame, written } }) ∨
      ∃ packet, s.heads.packet c.streamId frame = some (some packet) ∧
        o = { socket := { s with
                buffer := { s.buffer.popFirstObject.1 with lastDropFrames := 0 }
                heads := s.heads.after frame
                rtmp := some { c with isOpen := c.isOpen && !written.fails }
                errorCode :=
                  if c.isOpen && written.fails then rtmpErrorSendFailed else s.errorCode
                queue := s.queue ++ if c.isOpen && written.fails then [.reconnect] else []
                isSending := true
                resets := s.resets + 1 }
              taken := some
                { frame, written, sent := if c.isOpen then written.sent packet else [] } }) := by
  unfold sendFrameBlock at h
  split at h
  · next hlist =>
    exact Or.inl ⟨(Option.some.inj h).symm, Or.inr hlist⟩
  · next frame rest hlist hrtmp =>
    by_cases hs : s.isSending = true
    · rw [if_pos hs] at h
      exact Or.inl ⟨(Option.some.inj h).symm, Or.inl hs⟩
    · rw [if_neg hs] at h
      exact Or.inr (Or.inl ⟨(Option.some.inj h).symm, by simpa using hs, Or.inl hrtmp⟩)
  · next frame rest c hlist hrtmp =>
    by_cases hs : s.isSending = true
    · rw [if_pos hs] at h
      exact Or.inl ⟨(Option.some.inj h).symm, Or.inl hs⟩
    · rw [if_neg hs] at h
      by_cases hready : (!s.isConnected || s.isReconnecting || s.isConnecting) = true
      · rw [if_pos hready] at h
        refine Or.inr (Or.inl ⟨(Option.some.inj h).symm, by simpa using hs, Or.inr ?_⟩)
        simpa [or_assoc] using hready
      · rw [if_neg hready] at h
        obtain ⟨packet, hpacket, ho⟩ := Option.map_eq_some_iff.mp h
        simp only [Bool.or_eq_true, Bool.not_eq_true', not_or, Bool.not_eq_false,
          Bool.not_eq_true] at hready
        refine Or.inr (Or.inr ⟨frame, rest, c, hlist, hrtmp, by simpa using hs, hready.1.1,
          hready.1.2, hready.2, ?_⟩)
        cases packet with
        | none => exact Or.inl ⟨hpacket, ho.symm⟩
        | some packet =>
          refine Or.inr ⟨packet, hpacket, ?_⟩
          rw [← ho]
          obtain ⟨streamId, isOpen⟩ := c
          cases isOpen <;> cases hfails : written.fails <;>
            simp [rtmpPacketSend, enqueue, hrtmp, hfails]

end LFStreamRTMPSocket

end WaxxyLive.LiveKit
