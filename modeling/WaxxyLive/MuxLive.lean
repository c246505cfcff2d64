import Mathlib.Data.List.Infix

/-!
# MuxLive and its sessions

`MuxLive` holds at most one `LFLiveSession` at a time. A session that was
dropped lives on in the main-queue blocks that report its state changes, so the
table keeps every session ever made; `report` runs one such block, which sets
the session's state and then calls the delegate the session has at that time.
-/

namespace WaxxyLive.Mux

/-- `LFLiveState`, with its raw values in order. -/
inductive LFLiveState where
  | ready
  | pending
  | start
  | stop
  | error
  | refresh
  deriving DecidableEq, Repr

inductive MuxLiveState where
  | ready
  | pending
  | started
  | stopped
  | failed
  | retrying
  deriving DecidableEq, Repr

/-- `MuxLiveState(rawValue: Int(lfLiveState.rawValue))` -/
def MuxLiveState.ofLFLiveState : LFLiveState → MuxLiveState
  | .ready => .ready
  | .pending => .pending
  | .start => .started
  | .stop => .stopped
  | .error => .failed
  | .refresh => .retrying

/-- A view, by its identity. -/
abbrev View := Nat

/-- `delegate` says whether the session still reports to its `MuxLive`. -/
structure LFLiveSession where
  state : LFLiveState := .ready
  running : Bool := false
  preView : Option View := none
  delegate : Bool := false
  url : Option String := none

structure MuxLive where
  previewView : Option View := none
  isRunning : Bool := false
  sessions : List LFLiveSession := []
  liveSession : Option Nat := none

def muxLiveRtmpProductionUrl : String := "rtmp://global-live.mux.com:5222/app/"

/-- A stream key that is a full address is used as it is. -/
def streamUrlString (streamKey : String) : String :=
  if "rtmp://".toList <:+: streamKey.toList then streamKey
  else muxLiveRtmpProductionUrl ++ streamKey

namespace MuxLive

/-- Change the session held, if there is one. -/
def modifySession (m : MuxLive) (f : LFLiveSession → LFLiveSession) : MuxLive :=
  match m.liveSession with
  | some sid => { m with sessions := m.sessions.modify sid f }
  | none => m

/-- `previewView`'s `didSet`: only a view is passed on. -/
def setPreviewView (m : MuxLive) (view : Option View) : MuxLive :=
  match view with
  | some v => { m with previewView := view }.modifySession fun s => { s with preView := some v }
  | none => { m with previewView := view }

/-- `isRunning`'s `didSet`. -/
def setIsRunning (m : MuxLive) (isRunning : Bool) : MuxLive :=
  { m with isRunning }.modifySession fun s => { s with running := isRunning }

/-- `setupLiveSession`, without the configurations: a new session with the delegate and, when
there is one, the preview. -/
def setupLiveSession (m : MuxLive) : MuxLive :=
  { m with sessions := m.sessions ++ [{ delegate := true, preView := m.previewView }]
           liveSession := some m.sessions.length }

def start (m : MuxLive) (streamKey : String) : MuxLive :=
  m.setupLiveSession.modifySession fun s => { s with url := some (streamUrlString streamKey) }

/-- `stop` -/
def stop (m : MuxLive) : MuxLive :=
  { m.modifySession fun s => { s with delegate := false } with liveSession := none }

def session (m : MuxLive) : Option LFLiveSession := m.liveSession.bind fun sid => m.sessions[sid]?

def liveState (m : MuxLive) : MuxLiveState :=
  match m.session with
  | some s => .ofLFLiveState s.state
  | none => .ready

/-- The block of a state change: set the state and call the delegate there is, if any. -/
def report (m : MuxLive) (sid : Nat) (state : LFLiveState) : MuxLive × Option MuxLiveState :=
  ({ m with sessions := m.sessions.modify sid fun s => { s with state } },
    (m.sessions[sid]?).bind fun s => if s.delegate then some (.ofLFLiveState state) else none)

/-! ## The session held -/

variable (m : MuxLive)

theorem session_modifySession (f : LFLiveSession → LFLiveSession) :
    (m.modifySession f).session = m.session.map f := by
  unfold modifySession session
  cases h : m.liveSession with
  | none => simp [h]
  | some sid => simp

@[simp] theorem session_setPreviewView (view : Option View) :
    (m.setPreviewView view).session = match view with
      | some v => m.session.map fun s => { s with preView := some v }
      | none => m.session := by
  cases view with
  | none => rfl
  | some v => exact session_modifySession _ _

@[simp] theorem session_setIsRunning (isRunning : Bool) :
    (m.setIsRunning isRunning).session = m.session.map fun s => { s with running := isRunning } :=
  session_modifySession _ _

@[simp] theorem session_start (streamKey : String) :
    (m.start streamKey).session = some
      { delegate := true, preView := m.previewView, url := some (streamUrlString streamKey) } := by
  rw [start, session_modifySession]
  simp [setupLiveSession, session]

@[simp] theorem session_stop : m.stop.session = none := rfl

theorem session_report (sid : Nat) (state : LFLiveState) :
    (m.report sid state).1.session =
      if m.liveSession = some sid then m.session.map fun s => { s with state } else m.session := by
  unfold report session
  cases h : m.liveSession with
  | none => simp
  | some sid' =>
    by_cases hs : sid' = sid
    · simp [hs]
    · simp [hs, Ne.symm hs]

end MuxLive

end WaxxyLive.Mux
