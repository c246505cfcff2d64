import WaxxyLive.LiveKit.RtmpSocket

/-!
# Runs of the RTMP socket

* `frames_never_stranded`: a frame in the queue always has a send under way;
* `reconnects_bounded`: how often a socket tries to reconnect by itself;
* `stop_final_iff`: when a stopped socket stays stopped.
-/

namespace WaxxyLive.LiveKit

open Rtmp (WriteResult)

namespace LFStreamRTMPSocket

variable {S : SortWindow.Sorter LFFrame.time} {s s' : LFStreamRTMPSocket} {a : SocketAction}

theorem step_eq_some (h : s.step S a = some s') : ∃ o, s.act S a = some o ∧ o.socket = s' :=
  Option.map_eq_some_iff.mp h

/-! ## The pump -/

/-- A send is under way: its block is queued, `isSending` is to be reset, or a
caller is about to look at it. -/
def Pending (s : LFStreamRTMPSocket) : Prop :=
  Block.sendFrame ∈ s.queue ∨ 0 < s.resets ∨ 0 < s.checks

structure Pump (s : LFStreamRTMPSocket) : Prop where
  sending : s.isSending = true → 0 < s.resets
  waiting : s.buffer.list ≠ [] → s.Pending

theorem pump_of_queued (hs : s.isSending = true → 0 < s.resets)
    (hq : Block.sendFrame ∈ s.queue) : Pump s :=
  ⟨hs, fun _ => Or.inl hq⟩

/-- A change that takes nothing from the pump. -/
theorem Pump.mono {r : LFStreamRTMPSocket} (h : Pump s)
    (hlist : r.buffer.list ≠ [] → s.buffer.list ≠ [])
    (hsend : r.isSending = true → s.isSending = true) (hresets : r.resets = s.resets)
    (hchecks : r.checks = s.checks)
    (hq : Block.sendFrame ∈ s.queue → Block.sendFrame ∈ r.queue) : Pump r where
  sending := fun hs => hresets ▸ h.sending (hsend hs)
  waiting := by
    intro hne
    rcases h.waiting (hlist hne) with hmem | hres | hch
    · exact Or.inl (hq hmem)
    · exact Or.inr (Or.inl (hresets ▸ hres))
    · exact Or.inr (Or.inr (hchecks ▸ hch))

theorem Pump.enqueue (h : Pump s) (block : Block) : Pump (s.enqueue block) :=
  h.mono id id rfl rfl fun hq => List.mem_append_left _ hq

theorem pump_stopSending (s : LFStreamRTMPSocket) : Pump s.stopSending :=
  pump_of_queued (by simp [stopSending, LFStreamRTMPSocket.enqueue])
    (by simp [stopSending, LFStreamRTMPSocket.enqueue])

theorem Pump.close (h : Pump s) : Pump s.close := by
  rw [close_eq]
  exact h.mono id id rfl rfl fun hq => List.mem_append_left _ hq

theorem Pump.connect (h : Pump s) (net : Network) : Pump (s.connect net).socket := by
  cases net with
  | connected streamId metaData =>
    rw [connect_connected]
    refine h.mono id ?_ rfl rfl fun hq => List.mem_append_left _ hq
    simp [playing]
  | late => exact h.mono id (by simp [LFStreamRTMPSocket.connect, playing]) rfl rfl id
  | failed code reported =>
    rw [connect_failed]
    exact h.mono id id rfl rfl fun hq => List.mem_append_left _ (List.mem_append_left _ hq)

theorem Pump.clean (h : Pump s) : Pump s.clean := by
  refine h.mono ?_ ?_ rfl rfl id
  · simp [LFStreamRTMPSocket.clean, LFStreamingBuffer.removeAllObject]
  · simp [LFStreamRTMPSocket.clean]

theorem Pump.sendFrameBlock {queue : List Block} {written : WriteResult} {o : Outcome} (h : Pump s)
    (ho : { s with queue }.sendFrameBlock written = some o) : Pump o.socket := by
  rcases sendFrameBlock_cases ho with ⟨rfl, hidle⟩ | ⟨rfl, -⟩ |
    ⟨frame, rest, c, -, -, -, -, -, -, ⟨-, rfl⟩ | ⟨packet, -, rfl⟩⟩
  · -- Nothing to do: the block is spent, but a reset is to come or no frame waits.
    refine ⟨h.sending, fun hne => ?_⟩
    rcases hidle with hs | hnil
    · exact Or.inr (Or.inl (h.sending hs))
    · exact absurd hnil hne
  · exact pump_stopSending _
  · exact pump_stopSending _
  · exact ⟨fun _ => Nat.succ_pos _, fun _ => Or.inr (Or.inl (Nat.succ_pos _))⟩

theorem Pump.runBlock {net : Network} {written : WriteResult} {o : Outcome} (h : Pump s)
    (ho : s.runBlock net written = some o) : Pump o.socket := by
  unfold LFStreamRTMPSocket.runBlock at ho
  split at ho
  · simp at ho
  · next block queue hq =>
    have hrest : block ≠ .sendFrame → Pump { s with queue } := by
      intro hne
      refine h.mono id id rfl rfl fun hmem => ?_
      rw [hq] at hmem
      rcases List.mem_cons.mp hmem with heq | hmem
      · exact absurd heq.symm hne
      · exact hmem
    cases block with
    | start =>
      obtain rfl := Option.some.inj ho
      have hpump := hrest (by simp)
      unfold startBlock
      split
      · exact hpump
      · exact (hpump.mono (r := { s with queue := queue, isConnecting := true })
          id id rfl rfl id).connect net
    | stop =>
      obtain rfl := Option.some.inj ho
      exact (hrest (by simp)).close.clean
    | sendFrame => exact h.sendFrameBlock ho
    | reconnect =>
      obtain rfl := Option.some.inj ho
      have hpump := hrest (by simp)
      unfold reconnectBlock
      dsimp only
      split
      · exact hpump.mono id id rfl rfl id
      · split <;> exact hpump.mono id id rfl rfl id

theorem tick_list (b : LFStreamingBuffer) : b.tick.1.list = b.list := by
  obtain ⟨c, t, h⟩ := b.tick_eq
  rw [h]

theorem Pump.step (h : Pump s) (hs : s.step S a = some s') : Pump s' := by
  obtain ⟨o, ho, rfl⟩ := step_eq_some hs
  cases a with
  | start =>
    obtain rfl := Option.some.inj ho
    exact h.enqueue .start
  | stop =>
    obtain rfl := Option.some.inj ho
    exact h.enqueue .stop
  | appendObject frame =>
    rw [act_appendObject] at ho
    obtain rfl := Option.some.inj ho
    exact ⟨h.sending, fun _ => Or.inr (Or.inr (Nat.succ_pos _))⟩
  | check =>
    simp only [act] at ho
    split at ho
    · obtain rfl := Option.some.inj ho
      dsimp only
      split
      · next hsending => exact ⟨h.sending, fun _ => Or.inr (Or.inl (h.sending hsending))⟩
      · refine pump_of_queued h.sending ?_
        simp [LFStreamRTMPSocket.enqueue]
    · simp at ho
  | runBlock net written => exact h.runBlock ho
  | reset =>
    simp only [act] at ho
    split at ho
    · obtain rfl := Option.some.inj ho
      exact pump_stopSending _
    · simp at ho
  | mainBlock =>
    simp only [act] at ho
    split at ho
    · obtain rfl := Option.some.inj ho
      exact h.mono id id rfl rfl id
    · simp at ho
  | timer net =>
    simp only [act] at ho
    split at ho
    · obtain rfl := Option.some.inj ho
      have hpump : Pump { s with timers := 0, isReconnecting := false } :=
        h.mono id id rfl rfl id
      unfold LFStreamRTMPSocket.reconnect
      dsimp only
      split
      · exact hpump
      · exact (hpump.close.mono (r := { LFStreamRTMPSocket.close
          { s with timers := 0, isReconnecting := false } with heads := {} })
          id id rfl rfl id).connect net
    · simp at ho
  | tick =>
    rw [act_tick] at ho
    obtain rfl := Option.some.inj ho
    refine h.mono ?_ id rfl rfl id
    rw [tick_list]
    exact id

theorem pump_init (n : Int) : Pump (init n) := by
  unfold init
  split <;> exact ⟨by simp, by simp⟩

/-- Whatever the threads and the network do, a frame in the queue of the buffer
is never forgotten: the block that sends it is queued, or `isSending` is about
to be reset and queue it, or a caller of `sendFrame:` is still to look. A frame
in the sorting window waits until others come. -/
theorem frames_never_stranded {n : Int} {t : List SocketAction}
    (h : Runs.run (step S) (init n) t = some s) (hne : s.buffer.list ≠ []) :
    Block.sendFrame ∈ s.queue ∨ 0 < s.resets ∨ 0 < s.checks :=
  (Runs.invariant (I := Pump) (fun _ _ _ hp hs => hp.step hs) (pump_init n) h).waiting hne

/-- Six frames, before anything is connected. -/
def sixFrames : List SocketAction :=
  (List.range 6).map fun i =>
    .appendObject { object := i, timestamp := UInt64.ofNat i, data := [], kind := .audio none }

theorem frames_never_stranded_sixFrames :
    ∃ s, Runs.run (step (SortWindow.Sorter.insertion LFFrame.time)) (init 0) sixFrames = some s ∧
      (Block.sendFrame ∈ s.queue ∨ 0 < s.resets ∨ 0 < s.checks) :=
  ⟨_, rfl, frames_never_stranded (n := 0) (t := sixFrames) rfl (by decide)⟩

/-! ## Reconnecting -/

/-- What the delegate is told at a step. -/
def told (S : SortWindow.Sorter LFFrame.time) (s : LFStreamRTMPSocket) (a : SocketAction) :
    List Told :=
  (s.act S a).elim [] Outcome.told

def refreshes (told : List Told) : Nat := told.count (.socketStatus .refresh)

def stops (told : List Told) : Nat := told.count (.socketStatus .stop)

/-- The reconnections still to come, as far as they are known. -/
def upcoming (s : LFStreamRTMPSocket) : Nat := s.timers + s.mainBlocks

/-- The part of the allowance of retries that is used up. -/
def usedUp (s : LFStreamRTMPSocket) : Nat := min s.retryTimes4netWorkBreaken s.reconnectCount

/-- A step that reconnects has an upcoming reconnection for it; one more comes
up only for one more retry, and only a stop gives the retries back. -/
structure Spends (s : LFStreamRTMPSocket) (o : Outcome) : Prop where
  count : o.socket.reconnectCount = s.reconnectCount
  spent : refreshes o.told + o.socket.upcoming + s.usedUp ≤
    s.upcoming + s.reconnectCount * stops o.told + o.socket.usedUp

/-- The block or action has nothing to do with reconnecting. -/
theorem spends_of_same {o : Outcome} (hc : o.socket.reconnectCount = s.reconnectCount)
    (hr : o.socket.retryTimes4netWorkBreaken = s.retryTimes4netWorkBreaken)
    (ht : o.socket.timers = s.timers) (hm : o.socket.mainBlocks = s.mainBlocks)
    (htold : refreshes o.told = 0) : Spends s o where
  count := hc
  spent := by
    have hu : o.socket.usedUp = s.usedUp := by simp [usedUp, hc, hr]
    have hup : o.socket.upcoming = s.upcoming := by simp [upcoming, ht, hm]
    rw [htold, hu, hup]
    omega

theorem refreshes_bufferState (state : Option LFLiveBuffferState) :
    refreshes (bufferState state) = 0 := by
  cases state <;> simp [refreshes, bufferState]

theorem connect_same (s : LFStreamRTMPSocket) (net : Network) :
    (s.connect net).socket.reconnectCount = s.reconnectCount ∧
      (s.connect net).socket.retryTimes4netWorkBreaken = s.retryTimes4netWorkBreaken ∧
      (s.connect net).socket.timers = s.timers ∧
      (s.connect net).socket.mainBlocks = s.mainBlocks ∧
      refreshes (s.connect net).told = 0 ∧ stops (s.connect net).told = 0 := by
  cases net with
  | connected streamId metaData =>
    rw [connect_connected]
    exact ⟨rfl, rfl, rfl, rfl, rfl, rfl⟩
  | late => exact ⟨rfl, rfl, rfl, rfl, rfl, rfl⟩
  | failed code reported =>
    rw [connect_failed]
    exact ⟨rfl, rfl, rfl, rfl, rfl, rfl⟩

theorem spends_startBlock (s : LFStreamRTMPSocket) (net : Network) :
    Spends s (s.startBlock net) := by
  unfold startBlock
  split
  · exact spends_of_same rfl rfl rfl rfl rfl
  · obtain ⟨hc, hr, ht, hm, htold, -⟩ := connect_same { s with isConnecting := true } net
    refine spends_of_same hc hr ht hm ?_
    simpa [refreshes] using htold

theorem spends_stopBlock (s : LFStreamRTMPSocket) : Spends s s.stopBlock where
  count := by simp [stopBlock, clean, close_eq]
  spent := by
    have hup : s.stopBlock.socket.upcoming = s.upcoming := by
      simp [stopBlock, clean, close_eq, upcoming]
    have hu : s.stopBlock.socket.usedUp = 0 := by simp [stopBlock, clean, usedUp]
    have hr : refreshes s.stopBlock.told = 0 := rfl
    have hs : stops s.stopBlock.told = 1 := rfl
    have hle : s.usedUp ≤ s.reconnectCount := Nat.min_le_right _ _
    rw [hup, hu, hr, hs]
    omega

theorem spends_sendFrameBlock {written : WriteResult} {o : Outcome}
    (h : s.sendFrameBlock written = some o) : Spends s o := by
  rcases sendFrameBlock_cases h with ⟨rfl, -⟩ | ⟨rfl, -⟩ |
    ⟨frame, rest, c, -, -, -, -, -, -, ⟨-, rfl⟩ | ⟨packet, -, rfl⟩⟩
  all_goals exact spends_of_same rfl rfl rfl rfl rfl

theorem spends_reconnectBlock (s : LFStreamRTMPSocket) : Spends s s.reconnectBlock := by
  unfold reconnectBlock
  dsimp only
  split
  · next hretry =>
    -- One retry more, one reconnection more.
    refine ⟨rfl, ?_⟩
    simp only [refreshes, stops, upcoming, usedUp, List.count_nil]
    omega
  · split
    · refine ⟨rfl, ?_⟩
      have hr : refreshes [.socketStatus .error, .socketDidError .reConnectTimeOut] = 0 := rfl
      simp only [hr, upcoming, usedUp]
      omega
    · refine ⟨rfl, ?_⟩
      simp only [refreshes, stops, upcoming, usedUp, List.count_nil]
      omega

theorem spends_runBlock {net : Network} {written : WriteResult} {o : Outcome}
    (h : s.runBlock net written = some o) : Spends s o := by
  unfold runBlock at h
  split at h
  · simp at h
  · next block queue hq =>
    have hrest : Spends { s with queue } o → Spends s o := fun hs => ⟨hs.count, hs.spent⟩
    apply hrest
    cases block with
    | start =>
      obtain rfl := Option.some.inj h
      exact spends_startBlock _ net
    | stop =>
      obtain rfl := Option.some.inj h
      exact spends_stopBlock _
    | sendFrame => exact spends_sendFrameBlock h
    | reconnect =>
      obtain rfl := Option.some.inj h
      exact spends_reconnectBlock _

theorem spends_timer (net : Network) (h : 0 < s.timers) : Spends s (s.reconnect net) := by
  unfold reconnect
  dsimp only
  split
  · refine ⟨rfl, ?_⟩
    simp only [refreshes, stops, upcoming, usedUp, List.count_nil]
    omega
  · -- The attempt is paid for by the timer that set it off.
    obtain ⟨hc, hr, ht, hm, htold, hstop⟩ := connect_same { LFStreamRTMPSocket.close
      { s with timers := 0, isReconnecting := false } with heads := {} } net
    simp only [close_eq] at hc hr ht hm
    refine ⟨?_, ?_⟩
    · simpa [close_eq] using hc
    · have hone : ∀ told, refreshes (.socketStatus .refresh :: told) = refreshes told + 1 := by
        simp [refreshes]
      have hzero : ∀ told, stops (.socketStatus .refresh :: told) = stops told := by
        simp [stops]
      simp only [close_eq] at htold hstop
      simp only [close_eq, hone, hzero, htold, hstop, upcoming, usedUp, hc, hr, ht, hm]
      omega

theorem spends_act {o : Outcome} (h : s.act S a = some o) : Spends s o := by
  cases a with
  | start =>
    obtain rfl := Option.some.inj h
    exact spends_of_same rfl rfl rfl rfl rfl
  | stop =>
    obtain rfl := Option.some.inj h
    exact spends_of_same rfl rfl rfl rfl rfl
  | appendObject frame =>
    rw [act_appendObject] at h
    obtain rfl := Option.some.inj h
    exact spends_of_same rfl rfl rfl rfl (refreshes_bufferState _)
  | check =>
    simp only [act] at h
    split at h
    · obtain rfl := Option.some.inj h
      split <;> exact spends_of_same rfl rfl rfl rfl rfl
    · simp at h
  | runBlock net written => exact spends_runBlock h
  | reset =>
    simp only [act] at h
    split at h
    · obtain rfl := Option.some.inj h
      exact spends_of_same rfl rfl rfl rfl rfl
    · simp at h
  | mainBlock =>
    simp only [act] at h
    split at h
    · obtain rfl := Option.some.inj h
      refine ⟨rfl, ?_⟩
      simp only [refreshes, stops, upcoming, usedUp, List.count_nil]
      omega
    · simp at h
  | timer net =>
    simp only [act] at h
    split at h
    · next ht =>
      obtain rfl := Option.some.inj h
      exact spends_timer net ht
    · simp at h
  | tick =>
    rw [act_tick] at h
    obtain rfl := Option.some.inj h
    exact spends_of_same rfl rfl rfl rfl (refreshes_bufferState _)

/-- The account of a run that starts at `s₀`. -/
theorem spends_run {s₀ : LFStreamRTMPSocket} {t : List SocketAction}
    (h : Runs.run (step S) s₀ t = some s) :
    s.reconnectCount = s₀.reconnectCount ∧
      refreshes (Runs.observed (step S) (told S) s₀ t) + s.upcoming + s₀.usedUp ≤
        s₀.upcoming + s₀.reconnectCount * stops (Runs.observed (step S) (told S) s₀ t) +
          s.usedUp := by
  refine Runs.run_induction (P := fun t s => s.reconnectCount = s₀.reconnectCount ∧
    refreshes (Runs.observed (step S) (told S) s₀ t) + s.upcoming + s₀.usedUp ≤
      s₀.upcoming + s₀.reconnectCount * stops (Runs.observed (step S) (told S) s₀ t) + s.usedUp)
    ?_ ?_ h
  · refine ⟨rfl, ?_⟩
    simp [Runs.observed, refreshes, stops]
  · intro t s a s' hrun ih hs
    obtain ⟨o, ho, rfl⟩ := step_eq_some hs
    obtain ⟨hcount, hspent⟩ := spends_act ho
    obtain ⟨ihcount, ih⟩ := ih
    rw [ihcount] at hspent
    refine ⟨hcount.trans ihcount, ?_⟩
    have htold : told S s a = o.told := by simp [told, ho]
    have happ : ∀ l l' : List Told, refreshes (l ++ l') = refreshes l + refreshes l' ∧
        stops (l ++ l') = stops l + stops l' := by
      intro l l'
      exact ⟨List.count_append, List.count_append⟩
    rw [Runs.observed_concat hrun, htold, (happ _ _).1, (happ _ _).2, Nat.mul_add]
    omega

theorem reconnectCount_init (n : Int) :
    (init n).reconnectCount = (if 0 < n then n.toNat else 5) ∧ (init n).upcoming = 0 ∧
      (init n).usedUp = 0 := by
  unfold init
  split <;> simp [upcoming, usedUp, retryTimesBreaken]

/-- Over any run, a socket tries to reconnect by itself at most as often as its
limit of retries for each stop that came between, and once more. -/
theorem reconnects_bounded {n : Int} {t : List SocketAction}
    (h : Runs.run (step S) (init n) t = some s) :
    refreshes (Runs.observed (step S) (told S) (init n) t) ≤
      (if 0 < n then n.toNat else 5) *
        (stops (Runs.observed (step S) (told S) (init n) t) + 1) := by
  obtain ⟨hcount, hspent⟩ := spends_run h
  obtain ⟨hinit, hup, hused⟩ := reconnectCount_init n
  have hle : s.usedUp ≤ s.reconnectCount := Nat.min_le_right _ _
  rw [hcount, hinit] at hle
  rw [hinit, hup, hused] at hspent
  rw [Nat.mul_add]
  omega

/-- The first attempt to connect fails, the second succeeds, then comes a stop. -/
def recovered : List SocketAction :=
  [.start, .runBlock (.failed (some (-1001)) false) .wrote, .runBlock (.failed none false) .wrote,
    .mainBlock, .timer (.connected 1 .wrote), .stop]

theorem reconnects_bounded_recovered :
    refreshes (Runs.observed (step (SortWindow.Sorter.insertion LFFrame.time))
      (told (SortWindow.Sorter.insertion LFFrame.time)) (init 0) recovered) ≤ 5 :=
  reconnects_bounded (S := SortWindow.Sorter.insertion LFFrame.time) (n := 0) (t := recovered) rfl

theorem mem_told_error {o : Outcome} (h : s.act S a = some o)
    (he : .socketStatus .error ∈ o.told) :
    o.socket.reconnectCount ≤ o.socket.retryTimes4netWorkBreaken := by
  have hconnect : ∀ (r : LFStreamRTMPSocket) net, .socketStatus .error ∉ (r.connect net).told := by
    intro r net
    cases net with
    | connected streamId metaData => simp [connect_connected, playing]
    | late => simp [connect, playing]
    | failed code reported => simp [connect_failed]
  have hstate : ∀ state, .socketStatus .error ∉ bufferState state := by
    intro state
    cases state <;> simp [bufferState]
  cases a with
  | start =>
    obtain rfl := Option.some.inj h
    simp at he
  | stop =>
    obtain rfl := Option.some.inj h
    simp at he
  | appendObject frame =>
    rw [act_appendObject] at h
    obtain rfl := Option.some.inj h
    exact absurd he (hstate _)
  | check =>
    simp only [act] at h
    split at h
    · obtain rfl := Option.some.inj h
      simp at he
    · simp at h
  | runBlock net written =>
    simp only [act, runBlock] at h
    split at h
    · simp at h
    · next block queue hq =>
      cases block with
      | start =>
        obtain rfl := Option.some.inj h
        unfold startBlock at he
        split at he
        · simp at he
        · exact absurd (by simpa using he) (hconnect _ net)
      | stop =>
        obtain rfl := Option.some.inj h
        simp [stopBlock] at he
      | sendFrame =>
        rcases sendFrameBlock_cases h with ⟨rfl, -⟩ | ⟨rfl, -⟩ |
          ⟨frame, rest, c, -, -, -, -, -, -, ⟨-, rfl⟩ | ⟨packet, -, rfl⟩⟩ <;> simp at he
      | reconnect =>
        obtain rfl := Option.some.inj h
        unfold reconnectBlock at he ⊢
        dsimp only at he ⊢
        split at he
        · simp at he
        · next hretry =>
          rw [if_neg hretry]
          split at he
          · next hover =>
            rw [if_pos hover]
            exact hover
          · simp at he
  | reset =>
    simp only [act] at h
    split at h
    · obtain rfl := Option.some.inj h
      simp at he
    · simp at h
  | mainBlock =>
    simp only [act] at h
    split at h
    · obtain rfl := Option.some.inj h
      simp at he
    · simp at h
  | timer net =>
    simp only [act] at h
    split at h
    · obtain rfl := Option.some.inj h
      unfold reconnect at he
      dsimp only at he
      split at he
      · simp at he
      · exact absurd (by simpa using he) (hconnect _ net)
    · simp at h
  | tick =>
    rw [act_tick] at h
    obtain rfl := Option.some.inj h
    exact absurd he (hstate _)

/-- Once `LFLiveError` was told, and until the next stop, the only attempts to
reconnect are those that were on their way already. -/
theorem no_reconnects_after_error {s'' : LFStreamRTMPSocket} {t : List SocketAction}
    (ha : s.step S a = some s') (he : .socketStatus .error ∈ told S s a)
    (h : Runs.run (step S) s' t = some s'')
    (hstop : stops (Runs.observed (step S) (told S) s' t) = 0) :
    refreshes (Runs.observed (step S) (told S) s' t) + s''.upcoming ≤ s'.upcoming := by
  obtain ⟨o, ho, rfl⟩ := step_eq_some ha
  have htold : told S s a = o.told := by simp [told, ho]
  have hover := mem_told_error ho (htold ▸ he)
  have hused : o.socket.usedUp = o.socket.reconnectCount := Nat.min_eq_right hover
  obtain ⟨hcount, hspent⟩ := spends_run h
  have hle : s''.usedUp ≤ s''.reconnectCount := Nat.min_le_right _ _
  rw [hcount] at hle
  rw [hstop, hused] at hspent
  omega

/-- A socket whose retries are used up while its last attempt is still to come. -/
def exhausted : LFStreamRTMPSocket where
  retryTimes4netWorkBreaken := 5
  isReconnecting := true
  queue := [.reconnect]
  mainBlocks := 1

theorem no_reconnects_after_error_exhausted :
    ∃ s' s'', step (SortWindow.Sorter.insertion LFFrame.time) exhausted
        (.runBlock (.failed none false) .wrote) = some s' ∧
      Runs.run (step (SortWindow.Sorter.insertion LFFrame.time)) s'
        [.mainBlock, .timer (.connected 1 .wrote)] = some s'' ∧
      refreshes (Runs.observed (step (SortWindow.Sorter.insertion LFFrame.time))
        (told (SortWindow.Sorter.insertion LFFrame.time)) s'
        [.mainBlock, .timer (.connected 1 .wrote)]) + s''.upcoming ≤ s'.upcoming := by
  have herror : step (SortWindow.Sorter.insertion LFFrame.time) exhausted
      (.runBlock (.failed none false) .wrote) =
        some (reconnectBlock { exhausted with queue := [] }).socket := rfl
  refine ⟨_, _, herror, rfl, ?_⟩
  exact no_reconnects_after_error herror (by decide) rfl rfl

/-! ## Stopping -/

/-- No connection, and nothing that would make one. -/
structure Quiet (s : LFStreamRTMPSocket) : Prop where
  rtmp : s.rtmp = none
  queue : Block.start ∉ s.queue ∧ Block.reconnect ∉ s.queue
  mainBlocks : s.mainBlocks = 0
  timers : s.timers = 0

/-- A change of a quiet socket that adds stops and sends at most. -/
theorem Quiet.mono (h : Quiet s) (blocks : List Block) (hr : s'.rtmp = none)
    (hq : s'.queue = s.queue ++ blocks) (hb : Block.start ∉ blocks ∧ Block.reconnect ∉ blocks)
    (hm : s'.mainBlocks = s.mainBlocks) (ht : s'.timers = s.timers) : Quiet s' where
  rtmp := hr
  queue := by
    rw [hq, List.mem_append, List.mem_append]
    exact ⟨by simp [h.queue.1, hb.1], by simp [h.queue.2, hb.2]⟩
  mainBlocks := hm.trans h.mainBlocks
  timers := ht.trans h.timers

theorem Quiet.runBlock {net : Network} {written : WriteResult} {o : Outcome} (h : Quiet s)
    (ho : s.runBlock net written = some o) : Quiet o.socket := by
  unfold LFStreamRTMPSocket.runBlock at ho
  split at ho
  · simp at ho
  · next block queue hq =>
    obtain ⟨hstart, hreconnect⟩ := h.queue
    rw [hq, List.mem_cons, not_or] at hstart hreconnect
    have hrest : Quiet { s with queue } :=
      ⟨h.rtmp, ⟨hstart.2, hreconnect.2⟩, h.mainBlocks, h.timers⟩
    cases block with
    | start => simp at hstart
    | stop =>
      obtain rfl := Option.some.inj ho
      have hback : callsBack { s with queue } = false := by simp [callsBack, h.rtmp]
      refine hrest.mono [] ?_ ?_ (by simp) ?_ ?_
      · simp [stopBlock, clean, close_eq]
      · simp [stopBlock, clean, close_eq, hback]
      · simp [stopBlock, clean, close_eq]
      · simp [stopBlock, clean, close_eq]
    | sendFrame =>
      rcases sendFrameBlock_cases ho with ⟨rfl, -⟩ | ⟨rfl, -⟩ | ⟨frame, rest, c, -, hc, -⟩
      · exact hrest
      · exact hrest.mono [.sendFrame] h.rtmp rfl (by simp) rfl rfl
      · rw [hrest.rtmp] at hc
        simp at hc
    | reconnect => simp at hreconnect

/-- A quiet socket stays quiet until it is started. -/
theorem Quiet.step (h : Quiet s) (ha : a ≠ .start) (hs : s.step S a = some s') : Quiet s' := by
  obtain ⟨o, ho, rfl⟩ := step_eq_some hs
  cases a with
  | start => exact absurd rfl ha
  | stop =>
    obtain rfl := Option.some.inj ho
    exact h.mono [.stop] h.rtmp rfl (by simp) rfl rfl
  | appendObject frame =>
    rw [act_appendObject] at ho
    obtain rfl := Option.some.inj ho
    exact h.mono [] h.rtmp (by simp) (by simp) rfl rfl
  | check =>
    simp only [act] at ho
    split at ho
    · obtain rfl := Option.some.inj ho
      dsimp only
      split
      · exact h.mono [] h.rtmp (by simp) (by simp) rfl rfl
      · exact h.mono [.sendFrame] h.rtmp rfl (by simp) rfl rfl
    · simp at ho
  | runBlock net written => exact h.runBlock ho
  | reset =>
    simp only [act] at ho
    split at ho
    · obtain rfl := Option.some.inj ho
      exact h.mono [.sendFrame] h.rtmp rfl (by simp) rfl rfl
    · simp at ho
  | mainBlock => simp [act, h.mainBlocks] at ho
  | timer net => simp [act, h.timers] at ho
  | tick =>
    rw [act_tick] at ho
    obtain rfl := Option.some.inj ho
    exact h.mono [] h.rtmp (by simp) (by simp) rfl rfl

theorem Quiet.run {t : List SocketAction} (h : Quiet s) (ht : SocketAction.start ∉ t)
    (hrun : Runs.run (LFStreamRTMPSocket.step S) s t = some s') : Quiet s' := by
  induction t generalizing s with
  | nil =>
    obtain rfl : s = s' := by simpa using hrun
    exact h
  | cons a t ih =>
    rw [List.mem_cons, not_or] at ht
    obtain ⟨r, hr, hrun⟩ := Option.bind_eq_some_iff.mp hrun
    exact ih (h.step (Ne.symm ht.1) hr) ht.2 hrun

/-- A socket as `clean` leaves it. -/
structure Cleaned (s : LFStreamRTMPSocket) : Prop where
  rtmp : s.rtmp = none
  list : s.buffer.list = []
  retries : s.retryTimes4netWorkBreaken = 0
  connected : s.isConnected = false
  reconnecting : s.isReconnecting = false

theorem cleaned_stopBlock (s : LFStreamRTMPSocket) : Cleaned s.stopBlock.socket := by
  constructor <;> simp [stopBlock, clean, close_eq, LFStreamingBuffer.removeAllObject]

/-- The stops and sends that are queued before a reconnection leave a stopped
socket as it is. -/
theorem Cleaned.drain {queue : List Block} (h : Cleaned s)
    (hq : s.queue = queue ++ [.reconnect])
    (hfree : Block.start ∉ queue ∧ Block.reconnect ∉ queue) :
    ∃ t s', SocketAction.start ∉ t ∧ Runs.run (LFStreamRTMPSocket.step S) s t = some s' ∧
      Cleaned s' ∧ s'.queue = [.reconnect] ∧ s'.reconnectCount = s.reconnectCount := by
  induction queue generalizing s with
  | nil => exact ⟨[], s, by simp, rfl, h, by simpa using hq, rfl⟩
  | cons block queue ih =>
    rw [List.mem_cons, not_or, List.mem_cons, not_or] at hfree
    have hnext : ∃ s₁, s.step S (.runBlock (.failed none false) .wrote) = some s₁ ∧ Cleaned s₁ ∧
        s₁.queue = queue ++ [.reconnect] ∧ s₁.reconnectCount = s.reconnectCount := by
      cases block with
      | start => simp at hfree
      | stop =>
        refine ⟨({ s with queue := queue ++ [.reconnect] } : LFStreamRTMPSocket).stopBlock.socket,
          by simp [LFStreamRTMPSocket.step, act, LFStreamRTMPSocket.runBlock, hq],
          cleaned_stopBlock _, ?_, ?_⟩
        · simp [stopBlock, clean, close_eq, callsBack, h.rtmp]
        · simp [stopBlock, clean, close_eq]
      | sendFrame =>
        refine ⟨{ s with queue := queue ++ [.reconnect] }, ?_, ?_, rfl, rfl⟩
        · simp [LFStreamRTMPSocket.step, act, LFStreamRTMPSocket.runBlock, hq,
            LFStreamRTMPSocket.sendFrameBlock, h.list]
        · exact ⟨h.rtmp, h.list, h.retries, h.connected, h.reconnecting⟩
      | reconnect => simp at hfree
    obtain ⟨s₁, hstep, hclean, hqueue, hcount⟩ := hnext
    obtain ⟨t, s', ht, hrun, hclean', hq', hcount'⟩ :=
      ih hclean hqueue ⟨hfree.1.2, hfree.2.2⟩
    refine ⟨.runBlock (.failed none false) .wrote :: t, s', by simp [ht], ?_, hclean', hq',
      hcount'.trans hcount⟩
    simp [hstep, hrun]

/-- From there the reconnection goes through and opens a connection again. -/
theorem Cleaned.reopens (h : Cleaned s) (hq : s.queue = [.reconnect])
    (hcount : 0 < s.reconnectCount) (streamId : UInt32) :
    ∃ t s', SocketAction.start ∉ t ∧ Runs.run (LFStreamRTMPSocket.step S) s t = some s' ∧
      s'.rtmp = some ⟨streamId, true⟩ := by
  have hrun : ∃ s', Runs.run (LFStreamRTMPSocket.step S) s
      [.runBlock (.failed none false) .wrote, .mainBlock, .timer (.connected streamId .wrote)] =
        some s' ∧ s'.rtmp = some ⟨streamId, true⟩ := by
    simp [LFStreamRTMPSocket.step, act, LFStreamRTMPSocket.runBlock, hq, reconnectBlock,
      h.retries, hcount, h.reconnecting, reconnect, connect_connected, playing, WriteResult.fails]
  obtain ⟨s', hs', hopen⟩ := hrun
  exact ⟨_, s', by simp, hs', hopen⟩

theorem stopBlock_queue (s : LFStreamRTMPSocket) :
    s.stopBlock.socket.queue = s.queue ++ if s.callsBack then [.reconnect] else [] := by
  simp [stopBlock, clean, close_eq]

/-- A stop after which nothing else is on its way is final, unless it closes an
open connection while the code of an earlier error is left: then, and only
then, the socket can come back without being started. -/
theorem stop_final_iff {queue : List Block} {net : Network} {written : WriteResult}
    (hcount : 0 < s.reconnectCount) (hq : s.queue = .stop :: queue)
    (hfree : Block.start ∉ queue ∧ Block.reconnect ∉ queue) (hup : s.upcoming = 0)
    (hs : s.step S (.runBlock net written) = some s') :
    (∀ t s'', SocketAction.start ∉ t → Runs.run (step S) s' t = some s'' → s''.rtmp = none) ↔
      ¬ ((∃ c, s.rtmp = some c ∧ c.isOpen = true) ∧ s.errorCode < 0) := by
  obtain ⟨hmain, htimers⟩ : s.mainBlocks = 0 ∧ s.timers = 0 := by
    unfold upcoming at hup
    omega
  obtain rfl : ({ s with queue } : LFStreamRTMPSocket).stopBlock.socket = s' := by
    simpa [step, act, runBlock, hq] using hs
  have hqueue := stopBlock_queue { s with queue }
  have hback : callsBack { s with queue } = true ↔
      (∃ c, s.rtmp = some c ∧ c.isOpen = true) ∧ s.errorCode < 0 := by
    simp [callsBack, Option.any_eq_true]
  constructor
  · intro hfinal hbad
    rw [hback.mpr hbad, if_pos rfl] at hqueue
    obtain ⟨t, r, ht, hrun, hclean, hr, hc⟩ :=
      (cleaned_stopBlock { s with queue }).drain (S := S) hqueue hfree
    have hpos : 0 < r.reconnectCount := by
      rw [hc]
      simpa [stopBlock, clean, close_eq] using hcount
    obtain ⟨u, r', hu, hrun', hopen⟩ := hclean.reopens (S := S) hr hpos 1
    have hnone := hfinal (t ++ u) r' (by simp [ht, hu]) (by rw [Runs.run_append, hrun]; exact hrun')
    rw [hnone] at hopen
    simp at hopen
  · intro hgood t s'' ht hrun
    have hfalse : callsBack { s with queue } = false := by
      rw [← Bool.not_eq_true]
      exact fun hb => hgood (hback.mp hb)
    rw [hfalse] at hqueue
    have hquiet : Quiet ({ s with queue } : LFStreamRTMPSocket).stopBlock.socket := by
      refine ⟨(cleaned_stopBlock _).rtmp, ?_, ?_, ?_⟩
      · rw [hqueue]
        simpa using hfree
      · simpa [stopBlock, clean, close_eq] using hmain
      · simpa [stopBlock, clean, close_eq] using htimers
    exact (hquiet.run ht hrun).rtmp

/-- The socket before the stop of `recovered`. -/
def beforeStop : LFStreamRTMPSocket where
  rtmp := some ⟨1, true⟩
  errorCode := -1001
  retryTimes4netWorkBreaken := 1
  isConnected := true
  queue := [.stop]

theorem stop_final_recovered :
    Runs.run (step (SortWindow.Sorter.insertion LFFrame.time)) (init 0) recovered =
        some beforeStop ∧
      ∃ s', step (SortWindow.Sorter.insertion LFFrame.time) beforeStop
          (.runBlock (.failed none false) .wrote) = some s' ∧
        ¬ ∀ t s'', SocketAction.start ∉ t →
          Runs.run (step (SortWindow.Sorter.insertion LFFrame.time)) s' t = some s'' →
            s''.rtmp = none := by
  refine ⟨rfl, _, rfl, fun hfinal => ?_⟩
  have hstep : step (SortWindow.Sorter.insertion LFFrame.time) beforeStop
      (.runBlock (.failed none false) .wrote) =
        some (stopBlock { beforeStop with queue := [] }).socket := rfl
  refine (stop_final_iff ?_ rfl ?_ rfl hstep).mp hfinal ⟨⟨⟨1, true⟩, rfl, rfl⟩, ?_⟩
  · decide
  · exact ⟨List.not_mem_nil, List.not_mem_nil⟩
  · decide

end LFStreamRTMPSocket

end WaxxyLive.LiveKit
