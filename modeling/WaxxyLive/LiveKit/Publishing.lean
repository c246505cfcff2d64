import WaxxyLive.LiveKit.RtmpSocket
import WaxxyLive.LiveKit.RtmpRoundTrip

/-!
# From the frames of a run to what its viewers read

A run of the socket falls into connections. `connections_published` says what
each of them writes, `taken_in_order` in which order, and `viewer_reads` what the
peer at its other end makes of that.
-/

namespace WaxxyLive.LiveKit

open Rtmp

/-! ## What a connection is for -/

/-- A connection, and the heads of its two streams. -/
structure Feed where
  connection : Connection
  heads : Heads := {}

namespace Feed

/-- The message of a frame, where it has one. -/
def packet (f : Feed) (t : Taken) : Option RTMPPacket :=
  (f.heads.packet f.connection.streamId t.frame).getD none

/-- A connection is open until a write fails. -/
def next (f : Feed) (t : Taken) : Feed where
  connection :=
    { f.connection with isOpen := f.connection.isOpen && !((f.packet t).isSome && t.written.fails) }
  heads := f.heads.after t.frame

def step (f : Feed) (t : Taken) : Option Feed := some (f.next t)

/-- What is to be on the wire of a frame. -/
def sent (f : Feed) (t : Taken) : List Sent :=
  if f.connection.isOpen then (f.packet t).elim [] fun packet => t.written.sent packet else []

/-- The frames up to the first whose message is not written to its end. -/
def kept (f : Feed) : List Taken → List LFFrame
  | [] => []
  | t :: ts =>
    if f.packet t = none ∨ f.connection.isOpen ∧ t.written = .wrote then
      t.frame :: (f.next t).kept ts
    else []

variable {f : Feed} {t : Taken}

/-- The messages of the frames that are kept come first on the wire, and whole. -/
theorem observed_eq (f : Feed) (ts : List Taken) : ∃ behind,
    Runs.observed step sent f ts =
      (f.heads.packets f.connection.streamId (f.kept ts)).map .whole ++ behind := by
  induction ts generalizing f with
  | nil => exact ⟨[], rfl⟩
  | cons t ts ih =>
    obtain ⟨behind, hrest⟩ := ih (f.next t)
    have hobserved : Runs.observed step sent f (t :: ts) =
        f.sent t ++ Runs.observed step sent (f.next t) ts := rfl
    by_cases hkept : f.packet t = none ∨ f.connection.isOpen ∧ t.written = .wrote
    · refine ⟨behind, ?_⟩
      have hsent : f.sent t = (f.packet t).toList.map .whole := by
        rcases hkept with hnone | ⟨hopen, hwrote⟩
        · simp [sent, hnone]
        · cases hp : f.packet t <;> simp [sent, hp, hopen, hwrote, WriteResult.sent]
      rw [hobserved, hrest, kept, if_pos hkept, hsent]
      simp [Heads.packets, packet, next]
    · refine ⟨Runs.observed step sent f (t :: ts), ?_⟩
      simp [kept, hkept, Heads.packets]

/-- While every write succeeds, an open connection keeps all its frames. -/
theorem kept_of_written (hopen : f.connection.isOpen = true) {ts : List Taken}
    (h : ∀ t ∈ ts, t.written = .wrote) : f.kept ts = ts.map Taken.frame := by
  induction ts generalizing f with
  | nil => rfl
  | cons t ts ih =>
    have hwrote := h t List.mem_cons_self
    have hnext : (f.next t).connection.isOpen = true := by
      simp [next, hopen, hwrote, WriteResult.fails]
    rw [kept, if_pos (.inr ⟨hopen, hwrote⟩), List.map_cons,
      ih hnext fun u hu => h u (List.mem_cons_of_mem _ hu)]

end Feed

/-! ## The connections of a run -/

/-- A connection is opened, or a frame is taken off the buffer for it. -/
inductive Wire where
  | opened (c : Connection)
  | taken (t : Taken)

def Outcome.wire (o : Outcome) : List Wire :=
  (o.opened.map Wire.opened).toList ++ (o.taken.map Wire.taken).toList

def LFStreamRTMPSocket.wire (S : SortWindow.Sorter LFFrame.time) (s : LFStreamRTMPSocket)
    (a : SocketAction) : List Wire :=
  (s.act S a).elim [] Outcome.wire

def Outcome.frames (o : Outcome) : List LFFrame := o.taken.toList.map Taken.frame

/-- The frames that the socket takes off its buffer. -/
def LFStreamRTMPSocket.taken (S : SortWindow.Sorter LFFrame.time) (s : LFStreamRTMPSocket)
    (a : SocketAction) : List LFFrame :=
  (s.act S a).elim [] Outcome.frames

/-- A connection as it was opened, with the frames that were taken for it. -/
structure Published where
  connection : Connection
  frames : List Taken := []

namespace Published

def taken (c : Published) : List LFFrame := c.frames.map Taken.frame

/-- What is on the wire of its frames. -/
def wire (c : Published) : List Sent := c.frames.flatMap Taken.sent

/-- The connection with fresh heads. -/
def feed (c : Published) : Feed := { connection := c.connection }

def kept (c : Published) : List LFFrame := c.feed.kept c.frames

/-- What is on the wire is what the connection is for. -/
def Faithful (c : Published) : Prop := c.wire = Runs.observed Feed.step Feed.sent c.feed c.frames

/-- The connection with one more frame. -/
def concat (c : Published) (t : Taken) : Published := { c with frames := c.frames ++ [t] }

end Published

/-- The connections so far, the latest first. -/
def addWire : List Published → Wire → List Published
  | cs, .opened c => { connection := c } :: cs
  | c :: cs, .taken t => c.concat t :: cs
  | [], .taken _ => []

def connections (wires : List Wire) : List Published := wires.foldl addWire []

/-- What the socket knows of the connections it made: the latest has come to the
connection and the heads that the socket has. -/
structure Serves (cs : List Published) (frames : List LFFrame) (s : LFStreamRTMPSocket) : Prop where
  fresh : s.rtmp = none → s.heads = {}
  faithful : ∀ c ∈ cs, c.Faithful
  all : cs.reverse.flatMap Published.taken = frames
  current : ∀ c, s.rtmp = some c → ∃ p ps, cs = p :: ps ∧
    Runs.run Feed.step p.feed p.frames = some { connection := c, heads := s.heads }

variable {cs : List Published} {frames : List LFFrame} {s s' : LFStreamRTMPSocket}

theorem Serves.same {r : LFStreamRTMPSocket} (h : Serves cs frames s)
    (hr : r.rtmp = s.rtmp) (hh : r.heads = s.heads) : Serves cs frames r where
  fresh := by rw [hr, hh]; exact h.fresh
  faithful := h.faithful
  all := h.all
  current := by rw [hr, hh]; exact h.current

theorem Serves.closed {r : LFStreamRTMPSocket} (h : Serves cs frames s)
    (hr : r.rtmp = none) (hh : r.heads = {}) : Serves cs frames r where
  fresh := fun _ => hh
  faithful := h.faithful
  all := h.all
  current := by
    intro c hc
    rw [hr] at hc
    simp at hc

/-- A new connection is served from its first frame on. -/
theorem Serves.playing (h : Serves cs frames s) (hh : s.heads = {}) (c : Connection) :
    Serves ((s.playing c).wire.foldl addWire cs) frames (s.playing c).socket where
  fresh := fun hnone => absurd hnone (by simp [LFStreamRTMPSocket.playing])
  faithful := by
    intro p hp
    rcases List.mem_cons.mp hp with rfl | hp
    · rfl
    · exact h.faithful p hp
  all := by simpa [LFStreamRTMPSocket.playing, Outcome.wire, addWire, Published.taken] using h.all
  current := by
    intro d hd
    obtain rfl : c = d := Option.some.inj hd
    refine ⟨{ connection := c }, cs, rfl, ?_⟩
    simp [Published.feed, LFStreamRTMPSocket.playing, hh]

theorem Serves.connect (h : Serves cs frames s) (hh : s.heads = {}) (net : Network) :
    Serves ((s.connect net).wire.foldl addWire cs) frames (s.connect net).socket := by
  cases net with
  | connected streamId metaData =>
    rw [LFStreamRTMPSocket.connect_connected]
    refine Serves.playing ?_ ?_ _
    · exact h.same rfl rfl
    · exact hh
  | late => exact (h.same (r := { s with errorCode := rtmpErrorSendFailed }) rfl rfl).playing hh _
  | failed code reported =>
    rw [LFStreamRTMPSocket.connect_failed]
    exact h.closed rfl hh

/-- A frame for the current connection, which follows its abstract feed. -/
theorem Serves.frame {c d : Connection} {t : Taken} (h : Serves cs frames s)
    (hc : s.rtmp = some c) (hr : s'.rtmp = some d)
    (hnext : Feed.next { connection := c, heads := s.heads } t =
      { connection := d, heads := s'.heads })
    (hsent : t.sent = Feed.sent { connection := c, heads := s.heads } t) :
    Serves (addWire cs (.taken t)) (frames ++ [t.frame]) s' := by
  obtain ⟨p, ps, rfl, hrun⟩ := h.current c hc
  have hadd : addWire (p :: ps) (.taken t) = p.concat t :: ps := rfl
  refine ⟨?_, ?_, ?_, ?_⟩
  · intro hnone
    rw [hr] at hnone
    simp at hnone
  · intro q hq
    rcases List.mem_cons.mp hq with rfl | hq
    · have hold : p.wire = _ := h.faithful p List.mem_cons_self
      have hobserved : Runs.observed Feed.step Feed.sent p.feed (p.frames ++ [t]) = _ :=
        Runs.observed_concat hrun t
      rw [← hold, ← hsent] at hobserved
      exact Eq.trans (by simp [Published.wire, Published.concat]) hobserved.symm
    · exact h.faithful q (List.mem_cons_of_mem _ hq)
  · rw [← h.all, hadd]
    simp [Published.taken, Published.concat]
  · intro e he
    obtain rfl : d = e := Option.some.inj (hr.symm.trans he)
    refine ⟨p.concat t, ps, rfl, ?_⟩
    have hconcat : Runs.run Feed.step p.feed (p.frames ++ [t]) =
        some { connection := d, heads := s'.heads } := by
      rw [Runs.run_append, hrun, ← hnext]
      rfl
    exact hconcat

theorem Serves.sendFrameBlock {written : WriteResult} {o : Outcome} (h : Serves cs frames s)
    (ho : s.sendFrameBlock written = some o) :
    Serves (o.wire.foldl addWire cs) (frames ++ o.frames) o.socket := by
  rcases LFStreamRTMPSocket.sendFrameBlock_cases ho with ⟨rfl, -⟩ | ⟨rfl, -⟩ |
    ⟨frame, rest, c, -, hc, -, -, -, -, ⟨hpacket, rfl⟩ | ⟨packet, hpacket, rfl⟩⟩
  · simpa [Outcome.wire, Outcome.frames] using h
  · simpa [Outcome.wire, Outcome.frames] using h.same (r := s.stopSending) rfl rfl
  · -- The frame has no header to give.
    refine h.frame hc (d := c) hc ?_ ?_
    · simp [Feed.next, Feed.packet, hpacket, LFStreamRTMPSocket.stopSending,
        LFStreamRTMPSocket.enqueue]
    · simp [Feed.sent, Feed.packet, hpacket]
  · refine h.frame hc (d := { c with isOpen := c.isOpen && !written.fails }) rfl ?_ ?_
    · simp [Feed.next, Feed.packet, hpacket]
    · simp [Feed.sent, Feed.packet, hpacket]

theorem Serves.connecting {net : Network} {o : Outcome} {statuses : List Told}
    (h : Serves cs frames s) (hh : s.heads = {})
    (ho : o = { s.connect net with told := statuses }) :
    Serves (o.wire.foldl addWire cs) (frames ++ o.frames) o.socket := by
  subst ho
  have htaken : (s.connect net).taken = none := by
    cases net with
    | connected streamId metaData =>
      rw [LFStreamRTMPSocket.connect_connected]
      rfl
    | late => rfl
    | failed code reported => rw [LFStreamRTMPSocket.connect_failed]
  simpa [Outcome.wire, Outcome.frames, htaken] using h.connect hh net

theorem Serves.runBlock {net : Network} {written : WriteResult} {o : Outcome}
    (h : Serves cs frames s) (ho : s.runBlock net written = some o) :
    Serves (o.wire.foldl addWire cs) (frames ++ o.frames) o.socket := by
  unfold LFStreamRTMPSocket.runBlock at ho
  split at ho
  · simp at ho
  · next block queue hq =>
    have hrest : Serves cs frames { s with queue } := h.same rfl rfl
    cases block with
    | start =>
      obtain rfl := Option.some.inj ho
      unfold LFStreamRTMPSocket.startBlock
      split
      · simpa [Outcome.wire, Outcome.frames] using hrest
      · next hidle =>
        have hnone : s.rtmp = none := by
          rw [not_or] at hidle
          simpa using hidle.2
        exact Serves.connecting (s := { s with queue := queue, isConnecting := true })
          (h.same rfl rfl) (h.fresh hnone) rfl
    | stop =>
      obtain rfl := Option.some.inj ho
      have hclosed := h.closed (r := LFStreamRTMPSocket.clean
        (LFStreamRTMPSocket.close { s with queue }))
        (by simp [LFStreamRTMPSocket.clean, LFStreamRTMPSocket.close_eq]) rfl
      simpa [Outcome.wire, Outcome.frames, LFStreamRTMPSocket.stopBlock] using hclosed
    | sendFrame => exact hrest.sendFrameBlock ho
    | reconnect =>
      obtain rfl := Option.some.inj ho
      unfold LFStreamRTMPSocket.reconnectBlock
      dsimp only
      split
      · simpa [Outcome.wire, Outcome.frames] using h.same (r := { s with
          queue := queue
          retryTimes4netWorkBreaken := s.retryTimes4netWorkBreaken + 1
          isConnected := false, isConnecting := false, isReconnecting := true
          mainBlocks := s.mainBlocks + 1 }) rfl rfl
      · split <;> simpa [Outcome.wire, Outcome.frames] using h.same (r := { s with
          queue := queue
          retryTimes4netWorkBreaken := s.retryTimes4netWorkBreaken + 1 }) rfl rfl

variable {S : SortWindow.Sorter LFFrame.time} {a : SocketAction}

theorem Serves.act {o : Outcome} (h : Serves cs frames s) (ho : s.act S a = some o) :
    Serves (o.wire.foldl addWire cs) (frames ++ o.frames) o.socket := by
  cases a with
  | start =>
    obtain rfl := Option.some.inj ho
    simpa [Outcome.wire, Outcome.frames] using h.same (r := s.enqueue .start) rfl rfl
  | stop =>
    obtain rfl := Option.some.inj ho
    simpa [Outcome.wire, Outcome.frames] using h.same (r := s.enqueue .stop) rfl rfl
  | appendObject frame =>
    rw [LFStreamRTMPSocket.act_appendObject] at ho
    obtain rfl := Option.some.inj ho
    simpa [Outcome.wire, Outcome.frames] using h.same (r := { s with
      buffer := (s.buffer.appendObject S frame).1, checks := s.checks + 1 }) rfl rfl
  | check =>
    simp only [LFStreamRTMPSocket.act] at ho
    split at ho
    · obtain rfl := Option.some.inj ho
      have hless : Serves cs frames { s with checks := s.checks - 1 } := h.same rfl rfl
      split
      · simpa [Outcome.wire, Outcome.frames] using hless
      · simpa [Outcome.wire, Outcome.frames] using hless.same
          (r := LFStreamRTMPSocket.enqueue { s with checks := s.checks - 1 } .sendFrame) rfl rfl
    · simp at ho
  | runBlock net written => exact h.runBlock ho
  | reset =>
    simp only [LFStreamRTMPSocket.act] at ho
    split at ho
    · obtain rfl := Option.some.inj ho
      simpa [Outcome.wire, Outcome.frames] using h.same
        (r := LFStreamRTMPSocket.stopSending { s with resets := s.resets - 1 }) rfl rfl
    · simp at ho
  | mainBlock =>
    simp only [LFStreamRTMPSocket.act] at ho
    split at ho
    · obtain rfl := Option.some.inj ho
      simpa [Outcome.wire, Outcome.frames] using h.same (r := { s with
        mainBlocks := s.mainBlocks - 1, timers := s.timers + 1 }) rfl rfl
    · simp at ho
  | timer net =>
    simp only [LFStreamRTMPSocket.act] at ho
    split at ho
    · obtain rfl := Option.some.inj ho
      unfold LFStreamRTMPSocket.reconnect
      dsimp only
      split
      · simpa [Outcome.wire, Outcome.frames] using h.same (r := { s with
          timers := 0, isReconnecting := false }) rfl rfl
      · -- The old connection is closed before the new one is tried.
        have hclosed : Serves cs frames { LFStreamRTMPSocket.close
            { s with timers := 0, isReconnecting := false } with heads := {} } :=
          h.closed (by simp [LFStreamRTMPSocket.close_eq]) rfl
        exact Serves.connecting hclosed rfl rfl
    · simp at ho
  | tick =>
    rw [LFStreamRTMPSocket.act_tick] at ho
    obtain rfl := Option.some.inj ho
    simpa [Outcome.wire, Outcome.frames] using
      h.same (r := { s with buffer := s.buffer.tick.1 }) rfl rfl

theorem serves_init (n : Int) : Serves [] [] (LFStreamRTMPSocket.init n) := by
  unfold LFStreamRTMPSocket.init
  split <;> exact ⟨fun _ => rfl, by simp, rfl, by simp⟩

theorem serves_run {n : Int} {t : List SocketAction}
    (h : Runs.run (LFStreamRTMPSocket.step S) (.init n) t = some s) :
    Serves (connections (Runs.observed (LFStreamRTMPSocket.step S) (LFStreamRTMPSocket.wire S)
        (.init n) t))
      (Runs.observed (LFStreamRTMPSocket.step S) (LFStreamRTMPSocket.taken S) (.init n) t) s := by
  refine Runs.run_induction (P := fun t s =>
    Serves (connections (Runs.observed (LFStreamRTMPSocket.step S) (LFStreamRTMPSocket.wire S)
        (.init n) t))
      (Runs.observed (LFStreamRTMPSocket.step S) (LFStreamRTMPSocket.taken S) (.init n) t) s)
    (serves_init n) ?_ h
  intro t s a s' hrun ih hs
  obtain ⟨o, ho, rfl⟩ := Option.map_eq_some_iff.mp hs
  have hwire : s.wire S a = o.wire := by simp [LFStreamRTMPSocket.wire, ho]
  have htaken : s.taken S a = o.frames := by simp [LFStreamRTMPSocket.taken, ho]
  rw [Runs.observed_concat hrun, Runs.observed_concat hrun, hwire, htaken, connections,
    List.foldl_append]
  exact ih.act ho

/-- Over any run, the frames that the socket takes off its buffer fall into its
connections, and what is on the wire of each connection is what it is for: from
heads of its own on, the message of every frame that has one, whole while the
writes succeed, cut where one gives out, and nothing more once one has failed. -/
theorem connections_published {n : Int} {t : List SocketAction}
    (h : Runs.run (LFStreamRTMPSocket.step S) (.init n) t = some s) :
    let cs := connections (Runs.observed (LFStreamRTMPSocket.step S)
      (LFStreamRTMPSocket.wire S) (.init n) t)
    cs.reverse.flatMap Published.taken =
        Runs.observed (LFStreamRTMPSocket.step S) (LFStreamRTMPSocket.taken S) (.init n) t ∧
      ∀ c ∈ cs, c.wire = Runs.observed Feed.step Feed.sent c.feed c.frames := by
  have hserves := serves_run h
  exact ⟨hserves.all, hserves.faithful⟩

/-- A key frame and six audio frames; the socket connects and sends the first
frame, and the write of the second is cut short. -/
def goingLive : List SocketAction :=
  [.start, .runBlock (.connected 1 .wrote) .wrote] ++
    ((List.range 7).map fun i => .appendObject (frame i)) ++
    [.check, .runBlock (.failed none false) .wrote, .reset,
      .runBlock (.failed none false) (.failed true)]
where
  frame (i : Nat) : LFFrame :=
    { object := i
      timestamp := UInt64.ofNat (40 * i)
      data := [1, 2, 3]
      kind := if i = 0 then .video true (some [0x67, 0x42, 0, 30]) (some [0x68])
        else .audio (some [0x12, 0x10]) }

theorem connections_published_goingLive :
    ∃ s, Runs.run (LFStreamRTMPSocket.step (SortWindow.Sorter.insertion LFFrame.time)) (.init 0)
        goingLive = some s ∧
      ∀ c ∈ connections (Runs.observed
          (LFStreamRTMPSocket.step (SortWindow.Sorter.insertion LFFrame.time))
          (LFStreamRTMPSocket.wire (SortWindow.Sorter.insertion LFFrame.time)) (.init 0) goingLive),
        c.wire = Runs.observed Feed.step Feed.sent c.feed c.frames :=
  ⟨_, rfl, (connections_published (S := SortWindow.Sorter.insertion LFFrame.time) (n := 0)
    (t := goingLive) rfl).2⟩

/-! ## The order of the frames -/

/-- The frames given to `sendFrame:`. -/
def SocketAction.given : SocketAction → List LFFrame
  | .appendObject frame => [frame]
  | _ => []

/-- What the actions on the socket come to on its buffer. -/
structure Feeds (S : SortWindow.Sorter LFFrame.time) (given taken : List LFFrame)
    (b : LFStreamingBuffer) (u : List LFStreamingBuffer.Action) : Prop where
  run : Runs.run (LFStreamingBuffer.step S) {} u = some b
  came : Runs.observed (LFStreamingBuffer.step S) LFStreamingBuffer.came {} u = given
  popped : Runs.observed (LFStreamingBuffer.step S) LFStreamingBuffer.popped {} u = taken

theorem Feeds.concat {given taken : List LFFrame} {b d : LFStreamingBuffer}
    {u : List LFStreamingBuffer.Action} (h : Feeds S given taken b u)
    (x : LFStreamingBuffer.Action) (hx : b.step S x = some d) :
    Feeds S (given ++ b.came x) (taken ++ b.popped x) d (u ++ [x]) where
  run := by simp [Runs.run_append, h.run, hx]
  came := by rw [Runs.observed_concat h.run, h.came]
  popped := by rw [Runs.observed_concat h.run, h.popped]

theorem connect_buffer (s : LFStreamRTMPSocket) (net : Network) :
    (s.connect net).socket.buffer = s.buffer ∧ (s.connect net).taken = none := by
  cases net with
  | connected streamId metaData =>
    rw [LFStreamRTMPSocket.connect_connected]
    exact ⟨rfl, rfl⟩
  | late => exact ⟨rfl, rfl⟩
  | failed code reported =>
    rw [LFStreamRTMPSocket.connect_failed]
    exact ⟨rfl, rfl⟩

/-- The step leaves the buffer alone. -/
theorem Feeds.same {given taken : List LFFrame} {b : LFStreamingBuffer}
    {u : List LFStreamingBuffer.Action} (h : Feeds S given taken b u) {o : Outcome}
    (hb : o.socket.buffer = b) (ht : o.taken = none) :
    ∃ u', Feeds S given (taken ++ o.frames) o.socket.buffer u' := by
  refine ⟨u, ?_⟩
  simpa [Outcome.frames, hb, ht] using h

theorem Feeds.sendFrameBlock {given taken : List LFFrame} {u : List LFStreamingBuffer.Action}
    {written : WriteResult} {o : Outcome} (h : Feeds S given taken s.buffer u)
    (ho : s.sendFrameBlock written = some o) :
    ∃ u', Feeds S given (taken ++ o.frames) o.socket.buffer u' := by
  rcases LFStreamRTMPSocket.sendFrameBlock_cases ho with ⟨rfl, -⟩ | ⟨rfl, -⟩ |
    ⟨frame, rest, c, hlist, -, -, -, -, -, hsent⟩
  · exact h.same rfl rfl
  · exact h.same rfl rfl
  · have hpop := h.concat .popFirstObject (d := s.buffer.popFirstObject.1) rfl
    have hframe : s.buffer.popped .popFirstObject = [frame] := by
      simp [LFStreamingBuffer.popped, LFStreamingBuffer.popFirstObject, hlist]
    rw [hframe] at hpop
    simp only [LFStreamingBuffer.came, List.append_nil] at hpop
    rcases hsent with ⟨-, rfl⟩ | ⟨packet, -, rfl⟩
    · exact ⟨_, hpop⟩
    · -- The count of dropped frames goes to the debug information.
      have htake := hpop.concat .takeDropFrames
        (d := { s.buffer.popFirstObject.1 with lastDropFrames := 0 }) rfl
      simp only [LFStreamingBuffer.came, LFStreamingBuffer.popped, List.append_nil] at htake
      exact ⟨_, htake⟩

theorem Feeds.runBlock {given taken : List LFFrame} {u : List LFStreamingBuffer.Action}
    {net : Network} {written : WriteResult} {o : Outcome} (h : Feeds S given taken s.buffer u)
    (ho : s.runBlock net written = some o) :
    ∃ u', Feeds S given (taken ++ o.frames) o.socket.buffer u' := by
  unfold LFStreamRTMPSocket.runBlock at ho
  split at ho
  · simp at ho
  · next block queue hq =>
    cases block with
    | start =>
      obtain rfl := Option.some.inj ho
      unfold LFStreamRTMPSocket.startBlock
      split
      · exact h.same rfl rfl
      · obtain ⟨hb, ht⟩ := connect_buffer { s with queue := queue, isConnecting := true } net
        exact h.same hb ht
    | stop =>
      obtain rfl := Option.some.inj ho
      have hclear := h.concat .removeAllObject (d := s.buffer.removeAllObject) rfl
      simp only [LFStreamingBuffer.came, LFStreamingBuffer.popped, List.append_nil] at hclear
      refine hclear.same ?_ rfl
      simp [LFStreamRTMPSocket.stopBlock, LFStreamRTMPSocket.clean, LFStreamRTMPSocket.close_eq]
    | sendFrame => exact h.sendFrameBlock (s := { s with queue }) ho
    | reconnect =>
      obtain rfl := Option.some.inj ho
      unfold LFStreamRTMPSocket.reconnectBlock
      dsimp only
      split
      · exact h.same rfl rfl
      · split <;> exact h.same rfl rfl

theorem Feeds.act {given taken : List LFFrame} {u : List LFStreamingBuffer.Action} {o : Outcome}
    (h : Feeds S given taken s.buffer u) (ho : s.act S a = some o) :
    ∃ u', Feeds S (given ++ a.given) (taken ++ o.frames) o.socket.buffer u' := by
  have hgiven : given ++ [] = given := List.append_nil given
  cases a with
  | start =>
    obtain rfl := Option.some.inj ho
    exact hgiven.symm ▸ h.same rfl rfl
  | stop =>
    obtain rfl := Option.some.inj ho
    exact hgiven.symm ▸ h.same rfl rfl
  | appendObject frame =>
    rw [LFStreamRTMPSocket.act_appendObject] at ho
    obtain rfl := Option.some.inj ho
    exact ⟨_, h.concat (.appendObject frame) rfl⟩
  | check =>
    simp only [LFStreamRTMPSocket.act] at ho
    split at ho
    · obtain rfl := Option.some.inj ho
      rw [show given ++ SocketAction.check.given = given from hgiven]
      split <;> exact h.same rfl rfl
    · simp at ho
  | runBlock net written => exact hgiven.symm ▸ h.runBlock ho
  | reset =>
    simp only [LFStreamRTMPSocket.act] at ho
    split at ho
    · obtain rfl := Option.some.inj ho
      exact hgiven.symm ▸ h.same rfl rfl
    · simp at ho
  | mainBlock =>
    simp only [LFStreamRTMPSocket.act] at ho
    split at ho
    · obtain rfl := Option.some.inj ho
      exact hgiven.symm ▸ h.same rfl rfl
    · simp at ho
  | timer net =>
    simp only [LFStreamRTMPSocket.act] at ho
    split at ho
    · obtain rfl := Option.some.inj ho
      rw [show given ++ (SocketAction.timer net).given = given from hgiven]
      unfold LFStreamRTMPSocket.reconnect
      dsimp only
      split
      · exact h.same rfl rfl
      · obtain ⟨hb, ht⟩ := connect_buffer { LFStreamRTMPSocket.close
          { s with timers := 0, isReconnecting := false } with heads := {} } net
        refine h.same ?_ ht
        rw [hb]
        simp [LFStreamRTMPSocket.close_eq]
    · simp at ho
  | tick =>
    rw [LFStreamRTMPSocket.act_tick] at ho
    obtain rfl := Option.some.inj ho
    exact ⟨_, h.concat .tick rfl⟩

theorem feeds_run {n : Int} {t : List SocketAction}
    (h : Runs.run (LFStreamRTMPSocket.step S) (.init n) t = some s) :
    ∃ u, Feeds S (Runs.observed (LFStreamRTMPSocket.step S) (fun _ a => a.given) (.init n) t)
      (Runs.observed (LFStreamRTMPSocket.step S) (LFStreamRTMPSocket.taken S) (.init n) t)
      s.buffer u := by
  refine Runs.run_induction (P := fun t s => ∃ u,
    Feeds S (Runs.observed (LFStreamRTMPSocket.step S) (fun _ a => a.given) (.init n) t)
      (Runs.observed (LFStreamRTMPSocket.step S) (LFStreamRTMPSocket.taken S) (.init n) t)
      s.buffer u) ?_ ?_ h
  · refine ⟨[], ?_, rfl, rfl⟩
    unfold LFStreamRTMPSocket.init
    split <;> rfl
  · intro t s a s' hrun ih hs
    obtain ⟨u, hu⟩ := ih
    obtain ⟨o, ho, rfl⟩ := Option.map_eq_some_iff.mp hs
    have htaken : s.taken S a = o.frames := by simp [LFStreamRTMPSocket.taken, ho]
    rw [Runs.observed_concat hrun, Runs.observed_concat hrun, htaken]
    exact hu.act ho

/-- If no frame is given to the socket more than five places late, then over
all its connections, through losses, overflows and stops, it takes the frames
in the order of their timestamps, and each of them at most once. -/
theorem taken_in_order {n : Int} {t : List SocketAction}
    (h : Runs.run (LFStreamRTMPSocket.step S) (.init n) t = some s)
    (hn : (Runs.observed (LFStreamRTMPSocket.step S) (fun _ a => a.given) (.init n) t).Nodup)
    (ht : SortWindow.Timely LFFrame.time 5
      (Runs.observed (LFStreamRTMPSocket.step S) (fun _ a => a.given) (.init n) t)) :
    let frames := Runs.observed (LFStreamRTMPSocket.step S) (LFStreamRTMPSocket.taken S)
      (.init n) t
    frames.Pairwise (·.time ≤ ·.time) ∧ frames.Nodup ∧ ∀ f ∈ frames, f ∈
      Runs.observed (LFStreamRTMPSocket.step S) (fun _ a => a.given) (.init n) t := by
  obtain ⟨u, hu⟩ := feeds_run h
  rw [← hu.came] at hn ht
  have haccount := LFStreamingBuffer.account_of_run hu.run hn
  have hordered := LFStreamingBuffer.ordered_of_run hu.run hn ht
  have hsub := (List.sublist_append_left _ s.buffer.list).trans haccount.kept
  rw [hu.popped] at hsub
  have hout := hsub.trans (List.sublist_append_left _ s.buffer.sortList)
  refine ⟨hordered.sorted.sublist hsub, ?_, ?_⟩
  · exact hout.nodup (haccount.passed.perm.nodup_iff.mpr hn)
  · intro f hf
    rw [← hu.came]
    exact haccount.passed.perm.mem_iff.mp (hout.subset hf)

theorem taken_in_order_goingLive :
    ∃ s, Runs.run (LFStreamRTMPSocket.step (SortWindow.Sorter.insertion LFFrame.time)) (.init 0)
        goingLive = some s ∧
      (Runs.observed (LFStreamRTMPSocket.step (SortWindow.Sorter.insertion LFFrame.time))
        (LFStreamRTMPSocket.taken (SortWindow.Sorter.insertion LFFrame.time)) (.init 0)
        goingLive).Pairwise (·.time ≤ ·.time) := by
  have hgiven : Runs.observed (LFStreamRTMPSocket.step (SortWindow.Sorter.insertion LFFrame.time))
      (fun _ a => a.given) (.init 0) goingLive = (List.range 7).map goingLive.frame := rfl
  have hnodup : ((List.range 7).map goingLive.frame).Nodup := by decide
  have htimely : SortWindow.Timely LFFrame.time 5 ((List.range 7).map goingLive.frame) := by
    rw [SortWindow.timely_iff]
    decide
  rw [← hgiven] at hnodup htimely
  have horder := taken_in_order (S := SortWindow.Sorter.insertion LFFrame.time) (n := 0)
    (t := goingLive) rfl hnodup htimely
  exact ⟨_, rfl, horder.1⟩

/-! ## What the peer reads -/

/-- The previous packet of the media channel belongs to the stream. -/
def OnStream (l : Link) (streamId : UInt32) : Prop :=
  ∃ q, l.sender.vecChannelsOut 0x04 = some q ∧ q.nInfoField2 = streamId

theorem mediaPacket_sendable {l : Link} {streamId : UInt32} {packetType : UInt8}
    {body : List UInt8} {time : UInt64} (h : OnStream l streamId) (hlen : body.length < 2 ^ 24) :
    Sendable (l.prev (mediaPacket streamId packetType body time))
      (mediaPacket streamId packetType body time) where
  two_le := by simp [mediaPacket]
  channel_lt := by simp [mediaPacket]
  whole := by
    simp only [mediaPacket]
    omega
  size_lt := by
    simp only [mediaPacket]
    omega
  header := by
    obtain ⟨q, hq, hinfo⟩ := h
    simp only [mediaPacket]
    split
    · exact Or.inr ⟨rfl, q, hq, hinfo⟩
    · exact Or.inl rfl

theorem onStream_step {l l' : Link} {streamId : UInt32} {packetType : UInt8} {body : List UInt8}
    {time : UInt64} (h : l.step (mediaPacket streamId packetType body time) = some l') :
    OnStream l' streamId := by
  obtain ⟨⟨bytes, sender⟩, hsend, rfl⟩ := Option.map_eq_some_iff.mp h
  have hsame : ∀ (prev : Option RTMPPacket) (p : RTMPPacket),
      (compressed prev p).1.nChannel = p.nChannel ∧
        (compressed prev p).1.nInfoField2 = p.nInfoField2 := by
    intro prev p
    unfold compressed
    split
    · exact ⟨rfl, rfl⟩
    · dsimp only
      split_ifs <;> exact ⟨rfl, rfl⟩
  simp only [sendPacket] at hsend
  split at hsend
  · simp at hsend
  · obtain ⟨-, rfl⟩ := Prod.ext_iff.mp (Option.some.inj hsend)
    obtain ⟨hch, hinfo⟩ := hsame (l.sender.vecChannelsOut 0x04)
      (mediaPacket streamId packetType body time)
    refine ⟨(compressed (l.sender.vecChannelsOut 0x04)
      (mediaPacket streamId packetType body time)).1, ?_, hinfo⟩
    rw [show (mediaPacket streamId packetType body time).nChannel = 0x04 from rfl] at hch ⊢
    simp [Sender.record, hch]

/-- The peer can follow the packets of the frames. -/
theorem stream_packets {l : Link} {streamId : UInt32} (h : Heads) (hl : OnStream l streamId)
    {frames : List LFFrame} (hf : ∀ f ∈ frames, Fits f) :
    Stream l (Heads.packets streamId h frames) := by
  induction frames generalizing l h with
  | nil => trivial
  | cons frame frames ih =>
    have hrest : ∀ f ∈ frames, Fits f := fun f hmem => hf f (List.mem_cons_of_mem _ hmem)
    rw [Heads.packets]
    rcases h.packet_cases streamId (hf frame List.mem_cons_self) with
      ⟨hnone, -⟩ | ⟨packetType, body, time, tag, hsome, -, hlen, -⟩
    · rw [hnone]
      exact ih (h.after frame) hl hrest
    · rw [hsome]
      exact ⟨mediaPacket_sendable hl hlen, fun l' hs => ih _ (onStream_step hs) hrest⟩

/-- The peer's messages have the types and bodies of the packets sent. -/
theorem deliveredAll_bodies {l : Link} {ps : List RTMPPacket} (hps : Stream l ps) :
    (l.deliveredAll ps).map (fun m => readTag m.packetType m.body) =
      ps.map fun p => readTag p.packetType p.body := by
  have htimeless := congrArg (List.map fun m : Message => readTag m.packetType m.body)
    (deliveredAll_timeless hps)
  simpa [Function.comp_def, Message.timeless, RTMPPacket.message] using htimeless

theorem tags_packets (streamId : UInt32) (h : Heads) {frames : List LFFrame}
    (hf : ∀ f ∈ frames, Fits f) :
    (Heads.packets streamId h frames).map (fun p => readTag p.packetType p.body) =
      (Heads.tags h frames).map some := by
  induction frames generalizing h with
  | nil => rfl
  | cons frame frames ih =>
    have hrest := ih (h.after frame) fun f hmem => hf f (List.mem_cons_of_mem _ hmem)
    rw [Heads.packets, Heads.tags, List.map_append, List.map_append, hrest]
    rcases h.packet_cases streamId (hf frame List.mem_cons_self) with
      ⟨hnone, htag⟩ | ⟨packetType, body, time, tag, hsome, htag, -, hread⟩
    · rw [hnone, htag]
      rfl
    · rw [hsome, htag]
      simp [mediaPacket, hread]

/-! ## The two streams of a connection -/

def Tag.isVideo : Tag → Bool
  | .avcConfig .. | .avcNalu .. => true
  | .aacConfig _ | .aacRaw _ => false

/-- The header that the first frame of its kind is sent as, if it has one. -/
def LFFrame.header (frame : LFFrame) : Option Tag := Heads.tag {} frame

/-- The data that every other frame is sent as. -/
def LFFrame.content (frame : LFFrame) : Tag :=
  match frame.kind with
  | .video isKeyFrame _ _ => .avcNalu isKeyFrame frame.data
  | .audio _ => .aacRaw frame.data

/-- A header, and the data of the frames after the first. -/
def headerFirst : List LFFrame → List Tag
  | [] => []
  | first :: rest => first.header.toList ++ rest.map LFFrame.content

theorem tag_isVideo (h : Heads) (frame : LFFrame) :
    ∀ tag ∈ h.tag frame, tag.isVideo = frame.isVideo := by
  intro tag htag
  obtain ⟨object, timestamp, data, kind⟩ := frame
  rw [Option.mem_def] at htag
  cases kind with
  | video isKeyFrame sps pps =>
    simp only [Heads.tag] at htag
    split at htag
    · obtain rfl := Option.some.inj htag
      rfl
    · obtain ⟨sps', -, htag⟩ := Option.bind_eq_some_iff.mp htag
      obtain ⟨pps', -, rfl⟩ := Option.map_eq_some_iff.mp htag
      rfl
  | audio info =>
    simp only [Heads.tag] at htag
    split at htag
    · obtain rfl := Option.some.inj htag
      rfl
    · obtain ⟨info', -, rfl⟩ := Option.map_eq_some_iff.mp htag
      rfl

/-- The head of the stream that video frames, or the others, belong to. -/
def Heads.sent (h : Heads) (isVideo : Bool) : Bool := if isVideo then h.video else h.audio

theorem sent_after (h : Heads) (frame : LFFrame) (isVideo : Bool) :
    (h.after frame).sent isVideo = (h.sent isVideo || frame.isVideo == isVideo) := by
  unfold Heads.after
  cases hk : frame.isVideo <;> cases isVideo <;> simp [Heads.sent]

theorem tag_of_sent {h : Heads} {frame : LFFrame} (hs : h.sent frame.isVideo = true) :
    h.tag frame = some frame.content := by
  obtain ⟨object, timestamp, data, kind⟩ := frame
  cases kind <;> simp_all [Heads.tag, Heads.sent, LFFrame.content, LFFrame.isVideo]

theorem tag_of_not_sent {h : Heads} {frame : LFFrame} (hs : h.sent frame.isVideo = false) :
    h.tag frame = frame.header := by
  obtain ⟨object, timestamp, data, kind⟩ := frame
  cases kind <;> simp_all [Heads.tag, Heads.sent, LFFrame.header, LFFrame.isVideo]

/-- Within each of the two streams, a header comes first and then the data of
all frames but the first. -/
theorem tags_filter (isVideo : Bool) (h : Heads) (frames : List LFFrame) :
    (Heads.tags h frames).filter (fun tag => tag.isVideo == isVideo) =
      if h.sent isVideo then
        (frames.filter fun f => f.isVideo == isVideo).map LFFrame.content
      else headerFirst (frames.filter fun f => f.isVideo == isVideo) := by
  induction frames generalizing h with
  | nil => cases h.sent isVideo <;> simp [Heads.tags, headerFirst]
  | cons frame frames ih =>
    have hafter := sent_after h frame isVideo
    have htag := tag_isVideo h frame
    rw [Heads.tags, List.filter_append, ih (h.after frame), hafter]
    by_cases hk : frame.isVideo = isVideo
    · subst hk
      have hall : (h.tag frame).toList.filter (fun tag => tag.isVideo == frame.isVideo) =
          (h.tag frame).toList := by
        refine List.filter_eq_self.mpr fun tag hmem => ?_
        simp [htag tag (Option.mem_toList.mp hmem)]
      rw [hall]
      cases hs : h.sent frame.isVideo with
      | true => simp [tag_of_sent hs]
      | false => simp [tag_of_not_sent hs, headerFirst]
    · have hnone : (h.tag frame).toList.filter (fun tag => tag.isVideo == isVideo) = [] := by
        refine List.filter_eq_nil_iff.mpr fun tag hmem => ?_
        simp [htag tag (Option.mem_toList.mp hmem), hk]
      simp [hnone, hk]

/-- On every connection of every run, the peer reads first of all, whatever
follows on the wire, the frames up to the first whose message is not written to
its end: of the video frames the configuration that the first one carries and
the data of all others, in order, and of the audio frames likewise. The data of
the first frame of each kind is never sent. -/
theorem viewer_reads {n : Int} {t : List SocketAction}
    (h : Runs.run (LFStreamRTMPSocket.step S) (.init n) t = some s) {c : Published}
    (hc : c ∈ connections (Runs.observed (LFStreamRTMPSocket.step S)
      (LFStreamRTMPSocket.wire S) (.init n) t))
    (hf : ∀ f ∈ c.kept, Fits f) {l : Link} {r : Receiver} (pkt : RTMPPacket)
    (hl : InStep l r) (hstream : OnStream l c.connection.streamId) :
    ∃ (packets : List RTMPPacket) (behind : List Sent) (tags : List Tag),
      c.wire = packets.map .whole ++ behind ∧
      (∀ rest, ∃ messages later,
        (readAll r pkt (l.writtenAll packets ++ rest)).1 = messages ++ later ∧
        (messages.map fun m => readTag m.packetType m.body) = tags.map some) ∧
      (tags.filter fun tag => tag.isVideo) = headerFirst (c.kept.filter fun f => f.isVideo) ∧
      (tags.filter fun tag => !tag.isVideo) = headerFirst (c.kept.filter fun f => !f.isVideo) ∧
      (c.connection.isOpen = true → (∀ t ∈ c.frames, t.written = .wrote) → c.kept = c.taken) := by
  have hfaithful : c.wire = _ := (serves_run h).faithful c hc
  obtain ⟨behind, hwire⟩ := c.feed.observed_eq c.frames
  have hps := stream_packets {} hstream hf
  obtain ⟨l', r', pkt', -, -, hread⟩ := readAll_stream pkt hl hps
  refine ⟨Heads.packets c.connection.streamId {} c.kept, behind, Heads.tags {} c.kept,
    hfaithful.trans hwire, fun rest => ?_, ?_, ?_, fun hopen => Feed.kept_of_written hopen⟩
  · obtain ⟨messages, later, hsplit, hmessages, -⟩ := List.map_eq_append_iff.mp (hread rest).1
    refine ⟨messages, later, hsplit, ?_⟩
    rw [← tags_packets c.connection.streamId {} hf, ← deliveredAll_bodies hps, ← hmessages,
      List.map_map]
    rfl
  · have := tags_filter true {} c.kept
    simpa [Heads.sent] using this
  · have := tags_filter false {} c.kept
    simpa [Heads.sent] using this

/-- The message that opens the media channel, on stream 1. -/
def publishing : RTMPPacket := { packetType := 0x14, nChannel := 0x04, nInfoField2 := 1 }

theorem viewer_reads_goingLive :
    ∃ (c : Published) (l : Link) (r : Receiver) (packets : List RTMPPacket) (behind : List Sent)
        (tags : List Tag),
      c ∈ connections (Runs.observed
        (LFStreamRTMPSocket.step (SortWindow.Sorter.insertion LFFrame.time))
        (LFStreamRTMPSocket.wire (SortWindow.Sorter.insertion LFFrame.time)) (.init 0)
        goingLive) ∧
      c.kept = [goingLive.frame 0] ∧ c.taken = [goingLive.frame 0, goingLive.frame 1] ∧
      c.wire = packets.map .whole ++ behind ∧
      (∀ rest, ∃ messages later,
        (readAll r {} (l.writtenAll packets ++ rest)).1 = messages ++ later ∧
        (messages.map fun m => readTag m.packetType m.body) = tags.map some) ∧
      (tags.filter fun tag => tag.isVideo) = headerFirst [goingLive.frame 0] := by
  have hpublish : Sendable (Link.prev {} publishing) publishing :=
    ⟨by decide, by decide, rfl, by decide, .inl rfl⟩
  obtain ⟨l, r, -, -, hl, hr, -, -⟩ := readAll_written {} inStep_init hpublish
  have hstream : OnStream l 1 := by
    obtain rfl := Option.some.inj hl
    exact ⟨publishing, rfl, rfl⟩
  have hmem : ({ connection := { streamId := 1, isOpen := true }
                 frames := [
                   { frame := goingLive.frame 0
                     written := .wrote
                     sent := [.whole (mediaPacket 1 packetTypeVideo
                       ((videoHeaderBody [0x67, 0x42, 0, 30] [0x68]).getD []) 0)] },
                   { frame := goingLive.frame 1
                     written := .failed true
                     sent := [.cut (mediaPacket 1 packetTypeAudio
                       (audioHeaderBody [0x12, 0x10]) 0)] }] } : Published) ∈
      connections (Runs.observed
        (LFStreamRTMPSocket.step (SortWindow.Sorter.insertion LFFrame.time))
        (LFStreamRTMPSocket.wire (SortWindow.Sorter.insertion LFFrame.time)) (.init 0)
        goingLive) :=
    List.mem_cons_self
  have hfits : ∀ f ∈ [goingLive.frame 0], Fits f := by
    intro f hf
    obtain rfl : f = goingLive.frame 0 := by simpa using hf
    refine ⟨by decide, ?_, by simp [goingLive.frame]⟩
    simp [goingLive.frame]
  obtain ⟨packets, behind, tags, hwire, hread, hvideo, -⟩ :=
    viewer_reads (S := SortWindow.Sorter.insertion LFFrame.time) (n := 0) (t := goingLive)
      rfl hmem hfits {} hr hstream
  exact ⟨_, l, r, packets, behind, tags, hmem, rfl, rfl, hwire, hread, hvideo⟩

end WaxxyLive.LiveKit
