import WaxxyLive.LiveKit.LiveSession
import WaxxyLive.LiveKit.SocketRuns
import Mathlib.Data.List.TakeWhile

/-!
# The runs of a session

What a session makes of its callbacks over a run: each upload hands on the
frames from the first key frame after the first audio frame on, on a clock of
its own; what is encoded after `stopLive` never leaves a socket; the bit rate
keeps to its band.
-/

namespace WaxxyLive.LiveKit.LFLiveSession

variable (S : SortWindow.Sorter LFFrame.time)

/-! ## What a step leaves alone -/

section Steps

variable {S} {s s' : LFLiveSession} {l : List Noted} {created : Bool}

/-- A report of a socket changes neither the sockets nor the settings. -/
structure Reported (s s' : LFLiveSession) : Prop where
  sockets : s'.sockets = s.sockets
  socket : s'.socket = s.socket
  captureType : s'.captureType = s.captureType
  videoConfiguration : s'.videoConfiguration = s.videoConfiguration
  adaptiveBitrate : s'.adaptiveBitrate = s.adaptiveBitrate
  reconnectCount : s'.reconnectCount = s.reconnectCount

theorem Reported.refl (s : LFLiveSession) : Reported s s := ⟨rfl, rfl, rfl, rfl, rfl, rfl⟩

theorem Reported.trans {s₁ s₂ s₃ : LFLiveSession} (h : Reported s₁ s₂) (h' : Reported s₂ s₃) :
    Reported s₁ s₃ where
  sockets := h'.sockets.trans h.sockets
  socket := h'.socket.trans h.socket
  captureType := h'.captureType.trans h.captureType
  videoConfiguration := h'.videoConfiguration.trans h.videoConfiguration
  adaptiveBitrate := h'.adaptiveBitrate.trans h.adaptiveBitrate
  reconnectCount := h'.reconnectCount.trans h.reconnectCount

theorem reported_hear (s : LFLiveSession) (told : Told) :
    Reported s (s.hear created told).1 := by
  cases told with
  | socketStatus status =>
    cases status with
    | start =>
      simp only [hear, socketStatus]
      split <;> exact ⟨rfl, rfl, rfl, rfl, rfl, rfl⟩
    | _ => exact ⟨rfl, rfl, rfl, rfl, rfl, rfl⟩
  | socketDidError code => exact Reported.refl s
  | socketBufferStatus status =>
    simp only [hear, socketBufferStatus]
    split <;> exact ⟨rfl, rfl, rfl, rfl, rfl, rfl⟩

/-- Of a report only the beginning of an upload is noted. -/
theorem noted_hear {n : Noted} {told : Told} (h : n ∈ (s.hear created told).2) : n = .began := by
  cases told with
  | socketStatus status =>
    cases status with
    | start =>
      simp only [hear, socketStatus] at h
      split at h <;> simp_all
    | _ => simp [hear, socketStatus] at h
  | socketDidError code => simp [hear] at h
  | socketBufferStatus status => simp [hear] at h

theorem reported_hearAll (s : LFLiveSession) (told : List Told) :
    Reported s (s.hearAll created told).1 := by
  induction told generalizing s with
  | nil => exact Reported.refl s
  | cons told more ih => exact (reported_hear s told).trans (ih _)

theorem noted_hearAll {n : Noted} {told : List Told} (h : n ∈ (s.hearAll created told).2) :
    n = .began := by
  induction told generalizing s with
  | nil => simp [hearAll] at h
  | cons told more ih =>
    rcases List.mem_append.mp h with h | h
    · exact noted_hear h
    · exact ih h

/-- A state of the buffer says nothing about uploads. -/
theorem hearAll_bufferState (s : LFLiveSession) (state : Option LFLiveBuffferState) :
    ∃ e, s.hearAll created (LFStreamRTMPSocket.bufferState state) =
      ({ s with videoEncoder := e }, []) := by
  cases state with
  | none => exact ⟨s.videoEncoder, rfl⟩
  | some status =>
    simp only [LFStreamRTMPSocket.bufferState, Option.toList_some, List.map_cons, List.map_nil,
      hearAll, hear, socketBufferStatus, List.append_nil]
    split
    · exact ⟨_, rfl⟩
    · exact ⟨s.videoEncoder, rfl⟩

theorem onSocket_spec {i : Nat} {a : SocketAction} (h : s.onSocket S i a created = some (s', l)) :
    ∃ k o, s.sockets[i]? = some k ∧ k.act S a = some o ∧
      s' = ({ s with sockets := s.sockets.set i o.socket }.hearAll created o.told).1 ∧
      l = .acted i a ::
        ({ s with sockets := s.sockets.set i o.socket }.hearAll created o.told).2 := by
  unfold onSocket at h
  cases hk : s.sockets[i]? with
  | none => simp [hk] at h
  | some k =>
    rw [hk] at h
    obtain ⟨o, ho, heq⟩ := Option.map_eq_some_iff.mp h
    obtain ⟨rfl, rfl⟩ := Prod.mk.inj heq
    exact ⟨k, o, rfl, ho, rfl, rfl⟩

theorem current_some {i : Nat} (h : s.socket = some i) : s.current = (s, i) := by
  simp [current, h]

theorem current_none (h : s.socket = none) :
    s.current =
      ({ s with
          sockets := s.sockets ++ [.init s.reconnectCount], socket := some s.sockets.length },
        s.sockets.length) := by
  simp [current, h]

end Steps

/-! ## The sockets of a session -/

/-- What was done to one socket. -/
def actions (i : Nat) (l : List Noted) : List SocketAction :=
  l.filterMap fun n =>
    match n with
    | .acted j a => if j = i then some a else none
    | _ => none

@[simp] theorem actions_append (i : Nat) (l l' : List Noted) :
    actions i (l ++ l') = actions i l ++ actions i l' := by
  simp [actions]

@[simp] theorem actions_nil (i : Nat) : actions i [] = [] := rfl

@[simp] theorem actions_encoded (i : Nat) (frame : LFFrame) (l : List Noted) :
    actions i (.encoded frame :: l) = actions i l := by
  simp [actions]

theorem actions_acted (i j : Nat) (a : SocketAction) (l : List Noted) :
    actions i (.acted j a :: l) = if j = i then a :: actions i l else actions i l := by
  by_cases h : j = i <;> simp [actions, h]

theorem mem_actions {i : Nat} {l : List Noted} {a : SocketAction} :
    a ∈ actions i l ↔ Noted.acted i a ∈ l := by
  induction l with
  | nil => simp
  | cons n l ih =>
    cases n with
    | began => simpa [actions] using ih
    | encoded frame => simpa using ih
    | acted j b =>
      rw [actions_acted]
      by_cases h : j = i
      · subst h
        simp [ih]
      · simp [h, ih, Ne.symm h]

theorem actions_hearAll (i : Nat) {created : Bool} (s : LFLiveSession) (told : List Told) :
    actions i (s.hearAll created told).2 = [] := by
  refine List.eq_nil_iff_forall_not_mem.mpr ?_
  intro a ha
  have hbegan := noted_hearAll (mem_actions.mp ha)
  simp at hbegan

theorem actions_onSocket {s s' : LFLiveSession} {l : List Noted} {created : Bool} {i : Nat}
    {a : SocketAction} (h : s.onSocket S i a created = some (s', l)) (j : Nat) :
    actions j l = if i = j then [a] else [] := by
  obtain ⟨k, o, -, -, -, rfl⟩ := onSocket_spec h
  rw [actions_acted, actions_hearAll]

/-- The encoder after a step that touches no socket. -/
def encoderAfter (s : LFLiveSession) : SessionAction → Option LFHardwareVideoEncoder
  | .captureVideo noErr created =>
    if s.uploading then some ((s.encoder created).encodeVideoData noErr created)
    else s.videoEncoder
  | .willEnterBackground => s.videoEncoder.map (·.willEnterBackground)
  | .willEnterForeground created => s.videoEncoder.map (·.willEnterForeground created)
  | _ => s.videoEncoder

/-- What a step does to the sockets: nothing, or one action on the current
socket, after a change of flags, or one of the socket's own. -/
inductive Acts (s : LFLiveSession) (a : SessionAction) (s' : LFLiveSession) (l : List Noted) :
    Prop where
  | quiet (hs : Reported s s') (he : s'.videoEncoder = s.encoderAfter a)
      (hl : ∀ i, actions i l = [])
  | current (r s₂ : LFLiveSession) (b : SocketAction) (l₂ : List Noted) (hr : Reported s r)
      (he : r.videoEncoder = s.videoEncoder) (hb : b = .start → ∃ c, a = .startLive c)
      (h : r.current.1.onSocket S r.current.2 b a.created = some (s₂, l₂))
      (hl : ∀ i, actions i l = actions i l₂) (hs' : s' = s₂ ∨ s' = { s₂ with socket := none })
  | socket (i : Nat) (b : SocketAction) (hb : b.isInternal = true)
      (h : s.onSocket S i b a.created = some (s', l))

theorem acts_of_passOn {s r s' : LFLiveSession} {l : List Noted} {frame : LFFrame}
    {created : Bool} (hr : Reported s r) (he : r.videoEncoder = s.videoEncoder)
    (h : r.passOn S frame created = some (s', l)) : Acts S s (.frame frame created) s' l := by
  unfold passOn at h
  split at h
  · obtain ⟨⟨s₂, l₂⟩, hpush, heq⟩ := Option.map_eq_some_iff.mp h
    obtain ⟨rfl, rfl⟩ := Prod.mk.inj heq
    unfold pushSendBuffer at hpush
    dsimp only at hpush
    split at hpush
    · exact .current { r with relativeTimestamps := frame.timestamp } _ _ _
        (hr.trans ⟨rfl, rfl, rfl, rfl, rfl, rfl⟩) he (by simp) hpush
        (fun i => actions_encoded i frame l₂) (.inl rfl)
    · exact .current r _ _ _ hr he (by simp) hpush
        (fun i => actions_encoded i frame l₂) (.inl rfl)
  · obtain ⟨rfl, rfl⟩ := Prod.mk.inj (Option.some.inj h)
    exact .quiet hr he (fun i => actions_encoded i frame [])

theorem acts_of_act {s s' : LFLiveSession} {l : List Noted} {a : SessionAction}
    (h : s.act S a = some (s', l)) : Acts S s a s' l := by
  cases a with
  | startLive created =>
    exact .current s _ _ _ (Reported.refl s) rfl (fun _ => ⟨created, rfl⟩) h (fun _ => rfl) (.inl rfl)
  | stopLive created =>
    obtain ⟨⟨s₂, l₂⟩, hstop, heq⟩ := Option.map_eq_some_iff.mp h
    obtain ⟨rfl, rfl⟩ := Prod.mk.inj heq
    exact .current { s with uploading := false } _ _ _ ⟨rfl, rfl, rfl, rfl, rfl, rfl⟩ rfl (by simp)
      hstop (fun _ => rfl) (.inr rfl)
  | frame frame created =>
    simp only [act] at h
    split at h
    · unfold videoFrame at h
      split at h
      · refine acts_of_passOn S ?_ ?_ h
        · split
          · exact ⟨rfl, rfl, rfl, rfl, rfl, rfl⟩
          · exact Reported.refl s
        · split <;> rfl
      · obtain ⟨rfl, rfl⟩ := Prod.mk.inj (Option.some.inj h)
        exact .quiet (Reported.refl s) rfl (fun _ => rfl)
    · unfold audioFrame at h
      split at h
      · exact acts_of_passOn S (r := { s with hasCaptureAudio := true })
          ⟨rfl, rfl, rfl, rfl, rfl, rfl⟩ rfl h
      · obtain ⟨rfl, rfl⟩ := Prod.mk.inj (Option.some.inj h)
        exact .quiet (Reported.refl s) rfl (fun _ => rfl)
  | captureVideo noErr created =>
    obtain ⟨rfl, rfl⟩ := Prod.mk.inj (Option.some.inj h)
    refine .quiet ?_ ?_ (fun _ => rfl)
    · unfold captureVideo
      split
      · exact ⟨rfl, rfl, rfl, rfl, rfl, rfl⟩
      · exact Reported.refl s
    · unfold captureVideo encoderAfter
      split <;> rfl
  | socket i b created =>
    simp only [act] at h
    split at h
    · next hint => exact .socket i b hint h
    · simp at h
  | mainBlock =>
    simp only [act] at h
    split at h
    · simp at h
    · obtain ⟨rfl, rfl⟩ := Prod.mk.inj (Option.some.inj h)
      exact .quiet ⟨rfl, rfl, rfl, rfl, rfl, rfl⟩ rfl (fun _ => rfl)
  | willEnterBackground =>
    obtain ⟨rfl, rfl⟩ := Prod.mk.inj (Option.some.inj h)
    exact .quiet ⟨rfl, rfl, rfl, rfl, rfl, rfl⟩ rfl (fun _ => rfl)
  | willEnterForeground created =>
    obtain ⟨rfl, rfl⟩ := Prod.mk.inj (Option.some.inj h)
    exact .quiet ⟨rfl, rfl, rfl, rfl, rfl, rfl⟩ rfl (fun _ => rfl)

/-- Every socket has the history that was noted, from its beginning on. -/
structure Histories (n : Int) (l : List Noted) (s : LFLiveSession) : Prop where
  count : s.reconnectCount = n
  run : ∀ i k, s.sockets[i]? = some k →
    Runs.run (LFStreamRTMPSocket.step S) (.init n) (actions i l) = some k
  fresh : ∀ i, s.sockets.length ≤ i → actions i l = []
  current : ∀ i, s.socket = some i → i < s.sockets.length

section Histories

variable {S} {n : Int} {l l' : List Noted} {s s' : LFLiveSession} {created : Bool}

/-- Steps that touch no socket. -/
theorem Histories.same (h : Histories S n l s) (hcount : s'.reconnectCount = s.reconnectCount)
    (hs : s'.sockets = s.sockets) (hc : ∀ i, s'.socket = some i → s.socket = some i)
    (hl : ∀ i, actions i l' = []) : Histories S n (l ++ l') s' where
  count := hcount.trans h.count
  run := by
    intro i k hk
    rw [actions_append, hl, List.append_nil]
    exact h.run i k (hs ▸ hk)
  fresh := by
    intro i hi
    rw [actions_append, hl, List.append_nil]
    exact h.fresh i (hs ▸ hi)
  current := by
    intro i hi
    rw [hs]
    exact h.current i (hc i hi)

theorem Histories.getCurrent (h : Histories S n l s) :
    Histories S n l s.current.1 ∧ s.current.2 < s.current.1.sockets.length := by
  cases hsocket : s.socket with
  | some i =>
    rw [current_some hsocket]
    exact ⟨h, h.current i hsocket⟩
  | none =>
    rw [current_none hsocket]
    refine ⟨⟨h.count, ?_, ?_, ?_⟩, by simp⟩
    · intro i k hk
      by_cases hi : i < s.sockets.length
      · exact h.run i k (by rwa [List.getElem?_append_left hi] at hk)
      · rw [List.getElem?_append_right (by omega)] at hk
        obtain ⟨hzero, rfl⟩ : i - s.sockets.length = 0 ∧ LFStreamRTMPSocket.init n = k := by
          cases hj : i - s.sockets.length with
          | zero => simpa [hj, h.count] using hk
          | succ j => simp [hj] at hk
        rw [h.fresh i (by omega)]
        rfl
    · intro i hi
      simp only [List.length_append, List.length_singleton] at hi
      exact h.fresh i (by omega)
    · intro i hi
      simp only [Option.some.injEq] at hi
      simp [← hi]

theorem Histories.onSocket (h : Histories S n l s) {i : Nat} {a : SocketAction}
    (hs : s.onSocket S i a created = some (s', l')) : Histories S n (l ++ l') s' := by
  obtain ⟨k, o, hk, ho, rfl, -⟩ := onSocket_spec hs
  have hi : i < s.sockets.length := (List.getElem?_eq_some_iff.mp hk).1
  have hreport := @reported_hearAll created
    { s with sockets := s.sockets.set i o.socket } o.told
  refine ⟨hreport.reconnectCount.trans h.count, ?_, ?_, ?_⟩
  · intro j k' hk'
    rw [hreport.sockets] at hk'
    rw [actions_append, actions_onSocket S hs]
    by_cases hij : i = j
    · subst hij
      rw [if_pos rfl, Runs.run_append, h.run i k hk]
      have hset : o.socket = k' := by simpa [hi] using hk'
      simp [LFStreamRTMPSocket.step, ho, hset]
    · rw [if_neg hij, List.append_nil]
      apply h.run
      simpa [List.getElem?_set_ne hij] using hk'
  · intro j hj
    rw [hreport.sockets] at hj
    simp only [List.length_set] at hj
    rw [actions_append, actions_onSocket S hs, if_neg (by omega), List.append_nil]
    exact h.fresh j hj
  · intro j hj
    rw [hreport.socket] at hj
    rw [hreport.sockets]
    simpa using h.current j hj

theorem Histories.act (h : Histories S n l s) {a : SessionAction}
    (ha : s.act S a = some (s', l')) : Histories S n (l ++ l') s' := by
  cases acts_of_act S ha with
  | quiet hs he hl => exact h.same hs.reconnectCount hs.sockets (fun i hi => hs.socket ▸ hi) hl
  | current r s₂ b l₂ hr he hb hon hl hs' =>
    have hready : Histories S n (l ++ []) r :=
      h.same hr.reconnectCount hr.sockets (fun i hi => hr.socket ▸ hi) (fun _ => rfl)
    have hafter := (List.append_nil l ▸ hready).getCurrent.1.onSocket hon
    have hnoted : ∀ i, actions i (l ++ l') = actions i (l ++ l₂) := by
      intro i
      rw [actions_append, actions_append, hl]
    refine ⟨?_, ?_, ?_, ?_⟩
    · rcases hs' with rfl | rfl <;> exact hafter.count
    · intro i k hk
      rw [hnoted]
      exact hafter.run i k (by rcases hs' with rfl | rfl <;> exact hk)
    · intro i hi
      rw [hnoted]
      exact hafter.fresh i (by rcases hs' with rfl | rfl <;> exact hi)
    · intro i hi
      rcases hs' with rfl | rfl
      · exact hafter.current i hi
      · simp at hi
  | socket i b hb hon => exact h.onSocket hon

variable {t u : List SessionAction} {captureType : UInt64}
  {videoConfiguration : Mux.LFLiveVideoConfiguration} {adaptiveBitrate : Bool}

/-- Everything noted of a run. -/
abbrev log (S : SortWindow.Sorter LFFrame.time) (s : LFLiveSession) (t : List SessionAction) :
    List Noted :=
  Runs.observed (step S) (noted S) s t

theorem step_eq_some {a : SessionAction} (h : s.step S a = some s') :
    s.act S a = some (s', s.noted S a) := by
  obtain ⟨⟨s₁, l₁⟩, ha, rfl⟩ := Option.map_eq_some_iff.mp h
  simp [noted, ha]

/-- Each socket of a session has run through what was noted of it. -/
theorem histories_run
    (h : Runs.run (step S) (init captureType videoConfiguration adaptiveBitrate n) t = some s) :
    Histories S n (log S (init captureType videoConfiguration adaptiveBitrate n) t) s := by
  refine Runs.run_induction (P := fun t s => Histories S n
    (log S (init captureType videoConfiguration adaptiveBitrate n) t) s) ?_ ?_ h
  · exact ⟨rfl, by simp [init], by simp [log, Runs.observed], by simp [init]⟩
  · intro t s a s' hrun ih hs
    rw [log, Runs.observed_concat hrun]
    exact ih.act (step_eq_some hs)

end Histories

/-! ## After `stopLive` -/

section Stopped

variable {S} {n : Int} {m : Nat} {s s' : LFLiveSession} {l : List Noted} {created : Bool}

/-- A socket that is not connected and not about to be takes no frame and opens nothing. -/
theorem silent_of_quiet {k : LFStreamRTMPSocket} {a : SocketAction} {o : Outcome}
    (h : k.Quiet) (ho : k.act S a = some o) : o.taken = none ∧ o.opened = none := by
  cases a with
  | start =>
    obtain rfl := Option.some.inj ho
    exact ⟨rfl, rfl⟩
  | stop =>
    obtain rfl := Option.some.inj ho
    exact ⟨rfl, rfl⟩
  | appendObject frame =>
    obtain rfl := Option.some.inj ho
    exact ⟨rfl, rfl⟩
  | check =>
    simp only [LFStreamRTMPSocket.act] at ho
    split at ho
    · obtain rfl := Option.some.inj ho
      exact ⟨rfl, rfl⟩
    · simp at ho
  | runBlock net written =>
    simp only [LFStreamRTMPSocket.act, LFStreamRTMPSocket.runBlock] at ho
    split at ho
    · simp at ho
    · next block queue hqueue =>
      cases block with
      | start => exact absurd (by simp [hqueue]) h.queue.1
      | stop =>
        obtain rfl := Option.some.inj ho
        exact ⟨rfl, rfl⟩
      | sendFrame =>
        rcases LFStreamRTMPSocket.sendFrameBlock_cases ho with
          ⟨rfl, -⟩ | ⟨rfl, -⟩ | ⟨frame, rest, c, -, hc, -⟩
        · exact ⟨rfl, rfl⟩
        · exact ⟨rfl, rfl⟩
        · simp [h.rtmp] at hc
      | reconnect => exact absurd (by simp [hqueue]) h.queue.2
  | reset =>
    simp only [LFStreamRTMPSocket.act] at ho
    split at ho
    · obtain rfl := Option.some.inj ho
      exact ⟨rfl, rfl⟩
    · simp at ho
  | mainBlock => simp [LFStreamRTMPSocket.act, h.mainBlocks] at ho
  | timer net => simp [LFStreamRTMPSocket.act, h.timers] at ho
  | tick =>
    obtain rfl := Option.some.inj ho
    exact ⟨rfl, rfl⟩

/-- A socket that is not started never shows on the network. -/
theorem wire_of_not_started {k : LFStreamRTMPSocket} {t : List SocketAction} (h : k.Quiet)
    (ht : SocketAction.start ∉ t) :
    Runs.observed (LFStreamRTMPSocket.step S) (LFStreamRTMPSocket.wire S) k t = [] := by
  induction t generalizing k with
  | nil => rfl
  | cons a t ih =>
    rw [List.mem_cons, not_or] at ht
    have hwire : k.wire S a = [] := by
      cases ho : k.act S a with
      | none => simp [LFStreamRTMPSocket.wire, ho]
      | some o =>
        obtain ⟨htaken, hopened⟩ := silent_of_quiet h ho
        simp [LFStreamRTMPSocket.wire, ho, Outcome.wire, htaken, hopened]
    cases hs : k.step S a with
    | none => simp [Runs.observed, hwire, hs]
    | some k' =>
      have hrest := ih (h.step (Ne.symm ht.1) hs) ht.2
      simp [Runs.observed, hwire, hs, hrest]

theorem quiet_init (n : Int) : (LFStreamRTMPSocket.init n).Quiet := by
  unfold LFStreamRTMPSocket.init
  split <;> exact ⟨rfl, by simp, rfl, rfl⟩

/-- The session has let go of its first `m` sockets. -/
structure Released (m : Nat) (s : LFLiveSession) : Prop where
  room : m ≤ s.sockets.length
  current : ∀ i, s.socket = some i → m ≤ i

/-- What may be noted then: frames go to later sockets, and none is started. -/
def Harmless (m : Nat) (l : List Noted) : Prop :=
  (∀ i f, .appendObject f ∈ actions i l → m ≤ i) ∧ ∀ i, .start ∉ actions i l

theorem harmless_of_nil (h : ∀ i, actions i l = []) : Harmless m l :=
  ⟨by simp [h], by simp [h]⟩

theorem Released.getCurrent (h : Released m s) :
    Released m s.current.1 ∧ m ≤ s.current.2 := by
  cases hsocket : s.socket with
  | some i =>
    rw [current_some hsocket]
    exact ⟨h, h.current i hsocket⟩
  | none =>
    rw [current_none hsocket]
    have hroom := h.room
    refine ⟨⟨?_, ?_⟩, hroom⟩
    · simp only [List.length_append]
      omega
    · intro i hi
      obtain rfl : s.sockets.length = i := by simpa using hi
      exact hroom

theorem Released.onSocket (h : Released m s) {i : Nat} {a : SocketAction}
    (hs : s.onSocket S i a created = some (s', l)) : Released m s' := by
  obtain ⟨k, o, -, -, rfl, -⟩ := onSocket_spec hs
  have hreport := @reported_hearAll created
    { s with sockets := s.sockets.set i o.socket } o.told
  refine ⟨?_, ?_⟩
  · rw [hreport.sockets]
    simpa using h.room
  · rw [hreport.socket]
    exact h.current

theorem harmless_onSocket {l₁ : List Noted} {i : Nat} {a : SocketAction}
    (hs : s.onSocket S i a created = some (s', l₁)) (hl : ∀ j, actions j l = actions j l₁)
    (ha : a ≠ .start) (hi : ∀ f, a = .appendObject f → m ≤ i) : Harmless m l := by
  have honly : ∀ j, actions j l = if i = j then [a] else [] := by
    intro j
    rw [hl, actions_onSocket S hs]
  constructor
  · intro j f hmem
    rw [honly] at hmem
    by_cases hij : i = j
    · subst hij
      exact hi f (by simpa [eq_comm] using hmem)
    · simp [hij] at hmem
  · intro j hmem
    rw [honly] at hmem
    by_cases hij : i = j
    · exact ha (by simpa [hij, eq_comm] using hmem)
    · simp [hij] at hmem

theorem Released.act (h : Released m s) {a : SessionAction} (hstart : ∀ c, a ≠ .startLive c)
    (ha : s.act S a = some (s', l)) : Released m s' ∧ Harmless m l := by
  cases acts_of_act S ha with
  | quiet hs he hl =>
    refine ⟨⟨?_, ?_⟩, harmless_of_nil hl⟩
    · rw [hs.sockets]
      exact h.room
    · rw [hs.socket]
      exact h.current
  | current r s₂ b l₂ hr he hb hon hl hs' =>
    have hready : Released m r := by
      refine ⟨?_, ?_⟩
      · rw [hr.sockets]
        exact h.room
      · rw [hr.socket]
        exact h.current
    obtain ⟨hcurrent, hle⟩ := hready.getCurrent
    have hafter := hcurrent.onSocket hon
    refine ⟨?_, harmless_onSocket hon hl ?_ (fun _ _ => hle)⟩
    · rcases hs' with rfl | rfl
      · exact hafter
      · exact ⟨hafter.room, by simp⟩
    · intro hbs
      obtain ⟨c, hc⟩ := hb hbs
      exact hstart c hc
  | socket i b hb hon =>
    refine ⟨h.onSocket hon, harmless_onSocket hon (fun _ => rfl) ?_ ?_⟩
    · rintro rfl
      simp [SocketAction.isInternal] at hb
    · rintro f rfl
      simp [SocketAction.isInternal] at hb

theorem Released.run {u : List SessionAction} (h : Released m s)
    (hu : ∀ c, SessionAction.startLive c ∉ u) (hrun : Runs.run (step S) s u = some s') :
    Harmless m (log S s u) := by
  induction u generalizing s with
  | nil => exact harmless_of_nil (fun _ => rfl)
  | cons a u ih =>
    obtain ⟨r, hr, hrun⟩ := Option.bind_eq_some_iff.mp hrun
    have ha := step_eq_some hr
    obtain ⟨hnext, hharmless⟩ := h.act (fun c hc => hu c (by simp [hc])) ha
    obtain ⟨hframes, hstart⟩ := ih hnext (fun c hmem => hu c (List.mem_cons_of_mem a hmem)) hrun
    have hlog : log S s (a :: u) = s.noted S a ++ log S r u := by
      simp [log, Runs.observed, hr]
    rw [hlog]
    constructor
    · intro i f hmem
      rw [actions_append] at hmem
      rcases List.mem_append.mp hmem with hmem | hmem
      · exact hharmless.1 i f hmem
      · exact hframes i f hmem
    · intro i hmem
      rw [actions_append] at hmem
      rcases List.mem_append.mp hmem with hmem | hmem
      · exact hharmless.2 i hmem
      · exact hstart i hmem

/-- A frame that the session hands on after `stopLive`, and before the next
`startLive:`, goes to a socket that nothing is sent on: until that `startLive:`
it opens no connection and takes no frame. -/
theorem nothing_sent_after_stop {t u : List SessionAction} {captureType : UInt64}
    {videoConfiguration : Mux.LFLiveVideoConfiguration} {adaptiveBitrate : Bool}
    {s₁ : LFLiveSession}
    (hstop : Runs.run (step S) (init captureType videoConfiguration adaptiveBitrate n)
      (t ++ [.stopLive created]) = some s₁)
    (hu : ∀ c, SessionAction.startLive c ∉ u) (hrun : Runs.run (step S) s₁ u = some s)
    {i : Nat} {f : LFFrame} (hf : Noted.acted i (.appendObject f) ∈ log S s₁ u) :
    Runs.observed (LFStreamRTMPSocket.step S) (LFStreamRTMPSocket.wire S) (.init n)
      (actions i (log S (init captureType videoConfiguration adaptiveBitrate n)
        (t ++ [.stopLive created] ++ u))) = [] := by
  have hhistories := histories_run hstop
  obtain ⟨r, -, hs⟩ := Runs.run_concat hstop
  have hnone : s₁.socket = none := by
    obtain ⟨⟨s₂, l₂⟩, -, heq⟩ := Option.map_eq_some_iff.mp (step_eq_some hs)
    exact (Prod.mk.inj heq).1 ▸ rfl
  have hreleased : Released s₁.sockets.length s₁ := ⟨Nat.le_refl _, by simp [hnone]⟩
  obtain ⟨hframes, hstart⟩ := hreleased.run hu hrun
  rw [log, Runs.observed_append hstop, actions_append,
    hhistories.fresh i (hframes i f (mem_actions.mpr hf)), List.nil_append]
  exact wire_of_not_started (quiet_init n) (hstart i)

/-- The socket connects after the session let go of it, and frames come in. -/
def lateStart : List SessionAction :=
  [.socket 0 (.runBlock (.connected 1 .wrote) .wrote) true,
    .frame { object := 0, timestamp := 10, data := [], kind := .audio none } true,
    .frame { object := 1, timestamp := 20, data := [], kind := .video true none none } true]

theorem nothing_sent_after_stop_lateStart :
    ∃ s₁ s : LFLiveSession,
      Runs.run (step (SortWindow.Sorter.insertion LFFrame.time))
        (init liveCaptureDefaultMask {} false 0) ([.startLive true] ++ [.stopLive true]) = some s₁ ∧
      Runs.run (step (SortWindow.Sorter.insertion LFFrame.time)) s₁ lateStart = some s ∧
      s.socket = some 1 ∧
      Runs.observed (LFStreamRTMPSocket.step (SortWindow.Sorter.insertion LFFrame.time))
        (LFStreamRTMPSocket.wire (SortWindow.Sorter.insertion LFFrame.time)) (.init 0)
        (actions 1 (log (SortWindow.Sorter.insertion LFFrame.time)
          (init liveCaptureDefaultMask {} false 0)
          ([.startLive true] ++ [.stopLive true] ++ lateStart))) = [] :=
  ⟨_, _, rfl, rfl, rfl, nothing_sent_after_stop rfl (by simp [lateStart]) rfl
    (f := { object := 1, timestamp := 0, data := [], kind := .video true none none })
    (List.mem_of_getElem? (i := 4) rfl)⟩

end Stopped

/-! ## Uploads -/

/-- What was encoded and handed on since an upload began. -/
structure Upload where
  encoded : List LFFrame := []
  handed : List (Nat × LFFrame) := []

/-- The uploads so far, the latest first. -/
def addNoted : List Upload → Noted → List Upload
  | us, .began => {} :: us
  | u :: us, .encoded frame => { u with encoded := u.encoded ++ [frame] } :: us
  | u :: us, .acted i (.appendObject frame) => { u with handed := u.handed ++ [(i, frame)] } :: us
  | us, _ => us

def uploads (l : List Noted) : List Upload := l.foldl addNoted []

/-- The frames from the first key frame after the first audio frame on, if there
is to be both audio and video. -/
def aligned (both : Bool) (frames : List LFFrame) : List LFFrame :=
  if both then (frames.dropWhile LFFrame.isVideo).dropWhile fun f => !f.isKeyFrame else frames

/-- The first time that is not zero. -/
def base (frames : List LFFrame) : UInt64 :=
  ((frames.dropWhile fun f => f.timestamp == 0).head?.map LFFrame.timestamp).getD 0

/-- The frames on a clock that starts with the first of them that has a time. -/
def rebase (frames : List LFFrame) : List LFFrame :=
  (frames.takeWhile fun f => f.timestamp == 0) ++
    (frames.dropWhile fun f => f.timestamp == 0).map fun f =>
      { f with timestamp := f.timestamp - base frames }

section Clock

variable (frames : List LFFrame) (f : LFFrame)

theorem base_concat :
    base (frames ++ [f]) = if base frames = 0 then f.timestamp else base frames := by
  unfold base
  rw [List.dropWhile_append]
  cases hdrop : frames.dropWhile fun f => f.timestamp == 0 with
  | nil =>
    by_cases hf : f.timestamp = 0
    · simp [hf]
    · simp [hf]
  | cons g rest =>
    have hg : ¬ g.timestamp = 0 := by
      have hhead := List.head?_dropWhile_not (fun f : LFFrame => f.timestamp == 0) frames
      rw [hdrop] at hhead
      simpa using hhead
    simp [hg]

theorem rebase_concat :
    rebase (frames ++ [f]) =
      rebase frames ++ [{ f with timestamp := f.timestamp - base (frames ++ [f]) }] := by
  have hbase := base_concat frames f
  unfold rebase
  rw [List.takeWhile_append, List.dropWhile_append]
  cases hdrop : frames.dropWhile fun f => f.timestamp == 0 with
  | nil =>
    have hzero : base frames = 0 := by simp [base, hdrop]
    have hall : ∀ g ∈ frames, g.timestamp = 0 := by
      simpa [List.dropWhile_eq_nil_iff] using hdrop
    have htake : (frames.takeWhile fun f => f.timestamp == 0) = frames := by
      rw [List.takeWhile_eq_self_iff]
      simpa using hall
    rw [hbase, hzero, htake]
    obtain ⟨object, timestamp, data, kind⟩ := f
    by_cases hf : timestamp = 0
    · simp [hf]
    · simp [hf]
  | cons g rest =>
    have hne : base frames ≠ 0 := by
      have hhead := List.head?_dropWhile_not (fun f : LFFrame => f.timestamp == 0) frames
      rw [hdrop] at hhead
      simpa [base, hdrop] using hhead
    have htake : ¬ (frames.takeWhile fun f => f.timestamp == 0).length = frames.length := by
      have hlen := congrArg List.length
        (List.takeWhile_append_dropWhile (p := fun f : LFFrame => f.timestamp == 0) (l := frames))
      rw [hdrop, List.length_append, List.length_cons] at hlen
      omega
    rw [hbase, if_neg hne, if_neg htake]
    simp

def hasAudio (frames : List LFFrame) : Bool := frames.any fun f => !f.isVideo

def hasKey (frames : List LFFrame) : Bool :=
  (frames.dropWhile LFFrame.isVideo).any LFFrame.isKeyFrame

theorem hasAudio_concat : hasAudio (frames ++ [f]) = (hasAudio frames || !f.isVideo) := by
  simp [hasAudio]

theorem hasAudio_iff : hasAudio frames = true ↔ frames.dropWhile LFFrame.isVideo ≠ [] := by
  rw [ne_eq, List.dropWhile_eq_nil_iff]
  simp [hasAudio]

theorem isKeyFrame_of_audio {f : LFFrame} (h : f.isVideo = false) : f.isKeyFrame = false := by
  cases hk : f.kind with
  | video k sps pps => simp [LFFrame.isVideo, hk] at h
  | audio info => simp [LFFrame.isKeyFrame, hk]

theorem hasKey_concat :
    hasKey (frames ++ [f]) = (hasKey frames || (f.isKeyFrame && hasAudio frames)) := by
  unfold hasKey
  rw [List.dropWhile_append]
  by_cases ha : hasAudio frames = true
  · have hne := (hasAudio_iff frames).mp ha
    simp [ha, hne]
  · have hnil : frames.dropWhile LFFrame.isVideo = [] := by
      simpa [hasAudio_iff] using ha
    cases hf : f.isVideo with
    | true => simp [hnil, hf, ha]
    | false => simp [hnil, hf, ha, isKeyFrame_of_audio hf]

theorem hasAudio_of_hasKey (h : hasKey frames = true) : hasAudio frames = true := by
  rw [hasAudio_iff]
  intro hnil
  simp [hasKey, hnil] at h

theorem aligned_concat (both : Bool) :
    aligned both (frames ++ [f]) =
      aligned both frames ++
        if both = true → hasKey (frames ++ [f]) = true then [f] else [] := by
  cases both with
  | false => simp [aligned]
  | true =>
    have hcases : (if true = true → hasKey (frames ++ [f]) = true then [f] else []) =
        if hasKey frames || (f.isKeyFrame && hasAudio frames) then [f] else [] := by
      rw [hasKey_concat]
      simp
    rw [hcases]
    simp only [aligned, if_true]
    rw [List.dropWhile_append]
    by_cases ha : hasAudio frames = true
    · have hne := (hasAudio_iff frames).mp ha
      have hnot : ¬ (frames.dropWhile LFFrame.isVideo).isEmpty = true := by simpa using hne
      rw [if_neg hnot, List.dropWhile_append]
      by_cases hk : hasKey frames = true
      · have hkey : ¬ ((frames.dropWhile LFFrame.isVideo).dropWhile fun f => !f.isKeyFrame).isEmpty
            = true := by
          simpa [hasKey, List.dropWhile_eq_nil_iff] using hk
        rw [if_neg hkey]
        simp [hk]
      · have hkey : ((frames.dropWhile LFFrame.isVideo).dropWhile fun f => !f.isKeyFrame) = [] := by
          simpa [hasKey, List.dropWhile_eq_nil_iff] using hk
        cases hf : f.isKeyFrame <;> simp [hkey, hk, ha, hf]
    · have hnil : frames.dropWhile LFFrame.isVideo = [] := by
        simpa [hasAudio_iff] using ha
      have hk : hasKey frames = false := by simp [hasKey, hnil]
      cases hf : f.isVideo with
      | true => simp [hnil, hf, ha, hk]
      | false => simp [hnil, hf, ha, hk, isKeyFrame_of_audio hf]

end Clock

/-- An upload hands on the frames that are to be, on its own clock, to one socket. -/
def Upload.Aligned (both : Bool) (u : Upload) : Prop :=
  ∃ i, u.handed = (rebase (aligned both u.encoded)).map (Prod.mk i)

/-- The upload under way, and what the session knows of it. -/
structure Upload.Open (both : Bool) (u : Upload) (s : LFLiveSession) : Prop where
  audio : s.hasCaptureAudio = hasAudio u.encoded
  key : s.hasKeyFrameVideo = hasKey u.encoded
  clock : s.relativeTimestamps = base (aligned both u.encoded)
  handed : u.handed.map Prod.snd = rebase (aligned both u.encoded)
  current : ∀ p ∈ u.handed, s.socket = some p.1

structure Uploading (both : Bool) (us : List Upload) (s : LFLiveSession) : Prop where
  capture : (s.takesAudio && s.takesVideo) = both
  finished : ∀ u ∈ us, u.Aligned both
  latest : s.uploading = true → ∃ u rest, us = u :: rest ∧ u.Open both s

section Uploads

variable {S} {both : Bool} {u : Upload} {us rest : List Upload} {s s' : LFLiveSession}
  {l : List Noted} {created : Bool}

theorem Upload.Open.isAligned (h : u.Open both s) : u.Aligned both := by
  obtain ⟨i, hi⟩ : ∃ i, ∀ p ∈ u.handed, p.1 = i := by
    cases hsocket : s.socket with
    | none =>
      refine ⟨0, ?_⟩
      intro p hp
      have hp := h.current p hp
      simp [hsocket] at hp
    | some i =>
      refine ⟨i, ?_⟩
      intro p hp
      have hp := h.current p hp
      rw [hsocket] at hp
      exact (Option.some.inj hp).symm
  refine ⟨i, ?_⟩
  rw [← h.handed, List.map_map]
  symm
  calc u.handed.map (Prod.mk i ∘ Prod.snd) = u.handed.map id :=
        List.map_congr_left fun p hp => Prod.ext (hi p hp).symm rfl
    _ = u.handed := List.map_id _

/-- Changes that do not concern the upload under way. -/
theorem Upload.Open.same (h : u.Open both s) (ha : s'.hasCaptureAudio = s.hasCaptureAudio)
    (hk : s'.hasKeyFrameVideo = s.hasKeyFrameVideo)
    (hr : s'.relativeTimestamps = s.relativeTimestamps)
    (hc : ∀ i, s.socket = some i → s'.socket = some i) : u.Open both s' where
  audio := ha.trans h.audio
  key := hk.trans h.key
  clock := hr.trans h.clock
  handed := h.handed
  current := fun p hp => hc p.1 (h.current p hp)

theorem takes_eq (h : s'.captureType = s.captureType) :
    (s'.takesAudio && s'.takesVideo) = (s.takesAudio && s.takesVideo) := by
  simp [takesAudio, takesVideo, h]

theorem Uploading.hear (h : Uploading both us s) (told : Told) :
    Uploading both ((s.hear created told).2.foldl addNoted us) (s.hear created told).1 := by
  have hcapture := (takes_eq (@reported_hear created s told).captureType).trans h.capture
  cases told with
  | socketStatus status =>
    cases status with
    | start =>
      simp only [LFLiveSession.hear, socketStatus] at hcapture ⊢
      by_cases hu : s.uploading = true
      · simp only [hu, if_true, List.foldl_nil] at hcapture ⊢
        refine ⟨hcapture, h.finished, fun _ => ?_⟩
        obtain ⟨u, rest, heq, hopen⟩ := h.latest hu
        exact ⟨u, rest, heq, hopen.same rfl rfl rfl (fun _ hi => hi)⟩
      · rw [if_neg hu] at hcapture ⊢
        simp only [List.foldl_cons, List.foldl_nil]
        have hopen : Upload.Open both {} { s with
            mainBlocks := s.mainBlocks ++ [.start], hasCaptureAudio := false
            hasKeyFrameVideo := false, relativeTimestamps := 0, uploading := true } := by
          refine ⟨rfl, rfl, ?_, ?_, by simp⟩
          · cases both <;> rfl
          · cases both <;> rfl
        refine ⟨hcapture, ?_, fun _ => ⟨{}, us, rfl, hopen⟩⟩
        intro u hu
        rcases List.mem_cons.mp hu with rfl | hu
        · exact hopen.isAligned
        · exact h.finished u hu
    | stop => exact ⟨hcapture, h.finished, by simp [LFLiveSession.hear, socketStatus]⟩
    | error => exact ⟨hcapture, h.finished, by simp [LFLiveSession.hear, socketStatus]⟩
    | _ =>
      refine ⟨hcapture, h.finished, fun hu => ?_⟩
      obtain ⟨u, rest, heq, hopen⟩ := h.latest hu
      exact ⟨u, rest, heq, hopen.same rfl rfl rfl (fun _ hi => hi)⟩
  | socketDidError code => exact h
  | socketBufferStatus status =>
    refine ⟨hcapture, h.finished, ?_⟩
    simp only [LFLiveSession.hear, socketBufferStatus]
    split
    · intro hu
      obtain ⟨u, rest, heq, hopen⟩ := h.latest hu
      exact ⟨u, rest, heq, hopen.same rfl rfl rfl (fun _ hi => hi)⟩
    · exact h.latest

theorem Uploading.hearAll (h : Uploading both us s) (told : List Told) :
    Uploading both ((s.hearAll created told).2.foldl addNoted us) (s.hearAll created told).1 := by
  induction told generalizing s us with
  | nil => exact h
  | cons told more ih =>
    have hnext := ih (h.hear told : Uploading _ _ (s.hear created told).1)
    simpa [LFLiveSession.hearAll] using hnext

/-- Changes that do not concern uploads. -/
theorem Uploading.same (h : Uploading both us s) (hcapture : s'.captureType = s.captureType)
    (hu : s'.uploading = true → s.uploading = true)
    (ha : s'.hasCaptureAudio = s.hasCaptureAudio) (hk : s'.hasKeyFrameVideo = s.hasKeyFrameVideo)
    (hr : s'.relativeTimestamps = s.relativeTimestamps)
    (hc : s'.uploading = true → ∀ i, s.socket = some i → s'.socket = some i) :
    Uploading both us s' where
  capture := (takes_eq hcapture).trans h.capture
  finished := h.finished
  latest := by
    intro hup
    obtain ⟨u, rest, heq, hopen⟩ := h.latest (hu hup)
    exact ⟨u, rest, heq, hopen.same ha hk hr (hc hup)⟩

theorem addNoted_acted {i : Nat} {a : SocketAction} (ha : ∀ f, a ≠ .appendObject f) :
    addNoted us (.acted i a) = us := by
  cases us with
  | nil => cases a <;> rfl
  | cons u us =>
    cases a with
    | appendObject f => exact absurd rfl (ha f)
    | _ => rfl

theorem Uploading.onSocket (h : Uploading both us s) {i : Nat} {a : SocketAction}
    (ha : ∀ f, a ≠ .appendObject f) (hs : s.onSocket S i a created = some (s', l)) :
    Uploading both (l.foldl addNoted us) s' := by
  obtain ⟨k, o, -, -, rfl, rfl⟩ := onSocket_spec hs
  rw [List.foldl_cons, addNoted_acted ha]
  refine Uploading.hearAll ?_ o.told
  exact h.same rfl (fun hu => hu) rfl rfl rfl (fun _ _ hi => hi)

theorem Uploading.getCurrent (h : Uploading both us s) : Uploading both us s.current.1 := by
  cases hsocket : s.socket with
  | some i =>
    rw [current_some hsocket]
    exact h
  | none =>
    rw [current_none hsocket]
    exact h.same rfl (fun hu => hu) rfl rfl rfl (fun _ j hj => by simp [hsocket] at hj)

theorem current_spec (s : LFLiveSession) : ∃ sockets i,
    s.current = ({ s with sockets, socket := some i }, i) ∧ ∀ j, s.socket = some j → j = i := by
  cases hsocket : s.socket with
  | some i =>
    refine ⟨s.sockets, i, ?_, by simp⟩
    rw [current_some hsocket, ← hsocket]
  | none => exact ⟨_, _, current_none hsocket, by simp⟩

/-- A frame given to a socket changes nothing of an upload but what is noted. -/
theorem onSocket_appendObject {i : Nat} {frame : LFFrame}
    (h : s.onSocket S i (.appendObject frame) created = some (s', l)) :
    l = [.acted i (.appendObject frame)] ∧
      ∃ sockets videoEncoder, s' = { s with sockets, videoEncoder } := by
  obtain ⟨k, o, -, ho, rfl, rfl⟩ := onSocket_spec h
  have htold : o.told =
      LFStreamRTMPSocket.bufferState (k.buffer.appendObject S frame).2 := by
    rw [LFStreamRTMPSocket.act_appendObject] at ho
    rw [← Option.some.inj ho]
  obtain ⟨e, hquiet⟩ := @hearAll_bufferState created
    { s with sockets := s.sockets.set i o.socket } (k.buffer.appendObject S frame).2
  rw [htold, hquiet]
  exact ⟨rfl, _, _, rfl⟩

/-- What `pushSendBuffer:` does: the clock is set by the first frame that has a
time, and the frame goes to the current socket. -/
theorem pushSendBuffer_spec {frame : LFFrame}
    (h : s.pushSendBuffer S frame created = some (s', l)) :
    let r := if s.relativeTimestamps = 0 then frame.timestamp else s.relativeTimestamps
    ∃ i sockets videoEncoder,
      l = [.acted i (.appendObject { frame with timestamp := frame.timestamp - r })] ∧
      (∀ j, s.socket = some j → j = i) ∧
      s' = { s with relativeTimestamps := r, socket := some i, sockets, videoEncoder } := by
  intro r
  have hbased : (if s.relativeTimestamps = 0 then
      { s with relativeTimestamps := frame.timestamp } else s) =
      { s with relativeTimestamps := r } := by
    by_cases hr : s.relativeTimestamps = 0 <;> simp [r, hr]
  unfold pushSendBuffer at h
  rw [hbased] at h
  obtain ⟨sockets, i, hcurrent, hsame⟩ :=
    current_spec ({ s with relativeTimestamps := r } : LFLiveSession)
  dsimp only at h
  rw [hcurrent] at h
  obtain ⟨hl, sockets', e, hs'⟩ := onSocket_appendObject h
  exact ⟨i, sockets', e, hl, hsame, hs'⟩

/-- A frame encoded during an upload, after the flags were set for it. -/
theorem Uploading.passOn {frame : LFFrame} (hcapture : (s.takesAudio && s.takesVideo) = both)
    (hrest : ∀ u ∈ rest, u.Aligned both) (h : u.Open both s) {s₁ : LFLiveSession}
    (hcap : s₁.captureType = s.captureType)
    (ha : s₁.hasCaptureAudio = hasAudio (u.encoded ++ [frame]))
    (hk : s₁.hasKeyFrameVideo = hasKey (u.encoded ++ [frame]))
    (hr : s₁.relativeTimestamps = s.relativeTimestamps) (hc : s₁.socket = s.socket)
    (hs : s₁.passOn S frame created = some (s', l)) :
    Uploading both (l.foldl addNoted (u :: rest)) s' := by
  have hboth : (s₁.takesAudio && s₁.takesVideo) = both := (takes_eq hcap).trans hcapture
  have halign : s₁.avAlignment = true ↔
      (both = true → hasKey (u.encoded ++ [frame]) = true) := by
    unfold avAlignment
    rw [hboth, ha, hk]
    cases both with
    | false => simp
    | true =>
      have haudio := hasAudio_of_hasKey (u.encoded ++ [frame])
      cases hkey : hasKey (u.encoded ++ [frame]) with
      | false => simp
      | true => simp [haudio hkey]
  have hclock := aligned_concat u.encoded frame both
  unfold LFLiveSession.passOn at hs
  by_cases hal : s₁.avAlignment = true
  · rw [if_pos hal] at hs
    obtain ⟨⟨s₂, l₂⟩, hpush, heq⟩ := Option.map_eq_some_iff.mp hs
    obtain ⟨rfl, rfl⟩ := Prod.mk.inj heq
    obtain ⟨i, sockets, e, rfl, hsame, hs₂⟩ := pushSendBuffer_spec hpush
    rw [if_pos (halign.mp hal)] at hclock
    have hbase : (if s₁.relativeTimestamps = 0 then frame.timestamp else s₁.relativeTimestamps) =
        base (aligned both (u.encoded ++ [frame])) := by
      rw [hr, h.clock, hclock, base_concat]
    rw [hbase] at hs₂ ⊢
    have hopen : Upload.Open both { u with
        encoded := u.encoded ++ [frame]
        handed := u.handed ++ [(i, { frame with
          timestamp := frame.timestamp - base (aligned both (u.encoded ++ [frame])) })] } s₂ := by
      subst hs₂
      refine ⟨ha, hk, rfl, ?_, ?_⟩
      · rw [List.map_append, h.handed, hclock, rebase_concat]
        rfl
      · intro p hp
        rcases List.mem_append.mp hp with hp | hp
        · rw [hsame p.1 (hc.trans (h.current p hp))]
        · obtain rfl := List.mem_singleton.mp hp
          rfl
    have hcap₂ : s₂.captureType = s₁.captureType := by rw [hs₂]
    refine ⟨(takes_eq hcap₂).trans hboth, ?_, fun _ => ⟨_, rest, rfl, hopen⟩⟩
    intro v hv
    rcases List.mem_cons.mp hv with rfl | hv
    · exact hopen.isAligned
    · exact hrest v hv
  · rw [if_neg hal] at hs
    obtain ⟨rfl, rfl⟩ := Prod.mk.inj (Option.some.inj hs)
    rw [if_neg (fun hready => hal (halign.mpr hready)), List.append_nil] at hclock
    have hopen : Upload.Open both { u with encoded := u.encoded ++ [frame] } s₁ := by
      refine ⟨ha, hk, ?_, ?_, ?_⟩
      · rw [hr, h.clock, hclock]
      · rw [hclock]
        exact h.handed
      · intro p hp
        exact hc.trans (h.current p hp)
    refine ⟨hboth, ?_, fun _ => ⟨_, rest, rfl, hopen⟩⟩
    intro v hv
    rcases List.mem_cons.mp hv with rfl | hv
    · exact hopen.isAligned
    · exact hrest v hv

theorem Uploading.frame (h : Uploading both us s) {frame : LFFrame} {created : Bool}
    (ha : s.act S (.frame frame created) = some (s', l)) :
    Uploading both (l.foldl addNoted us) s' := by
  by_cases hu : s.uploading = true
  · obtain ⟨u, rest, rfl, hopen⟩ := h.latest hu
    have hrest : ∀ v ∈ rest, v.Aligned both := fun v hv => h.finished v (List.mem_cons_of_mem u hv)
    cases hv : frame.isVideo with
    | true =>
      simp only [LFLiveSession.act, hv, if_true, videoFrame, hu] at ha
      refine Uploading.passOn h.capture hrest hopen ?_ ?_ ?_ ?_ ?_ ha
      · split <;> rfl
      · rw [hasAudio_concat, hv]
        split <;> simp [hopen.audio]
      · rw [hasKey_concat, ← hopen.key, ← hopen.audio]
        split
        · next hset => simp [hset]
        · next hset =>
          cases hkey : frame.isKeyFrame with
          | false => simp
          | true =>
            have haudio : s.hasCaptureAudio = false := by simpa [hkey] using hset
            simp [haudio]
      · split <;> rfl
      · split <;> rfl
    | false =>
      simp only [LFLiveSession.act, hv, Bool.false_eq_true, if_false, audioFrame, hu, if_true] at ha
      refine Uploading.passOn h.capture hrest hopen ?_ ?_ ?_ ?_ ?_ ha
      · rfl
      · rw [hasAudio_concat, hv]
        simp
      · rw [hasKey_concat, isKeyFrame_of_audio hv]
        simp [hopen.key]
      · rfl
      · rfl
  · have hnone : s' = s ∧ l = [] := by
      cases hv : frame.isVideo <;>
        simpa [LFLiveSession.act, hv, videoFrame, audioFrame, hu, eq_comm] using ha
    obtain ⟨rfl, rfl⟩ := hnone
    exact h

theorem Uploading.act (h : Uploading both us s) {a : SessionAction}
    (ha : s.act S a = some (s', l)) : Uploading both (l.foldl addNoted us) s' := by
  cases a with
  | startLive created => exact h.getCurrent.onSocket (by simp) ha
  | stopLive created =>
    obtain ⟨⟨s₁, l₁⟩, hstop, heq⟩ := Option.map_eq_some_iff.mp ha
    obtain ⟨rfl, rfl⟩ := Prod.mk.inj heq
    have hgated : Uploading both us { s with uploading := false } :=
      h.same rfl (by simp) rfl rfl rfl (by simp)
    have hafter := hgated.getCurrent.onSocket (by simp) hstop
    obtain ⟨k, o, -, ho, hs₁, -⟩ := onSocket_spec hstop
    obtain rfl := Option.some.inj ho
    have hidle : s₁.uploading = false := by
      obtain ⟨sockets, i, hcurrent, -⟩ := current_spec ({ s with uploading := false } : LFLiveSession)
      rw [hs₁]
      show ({ s with uploading := false } : LFLiveSession).current.1.uploading = false
      rw [hcurrent]
    exact hafter.same rfl (fun hu => hu) rfl rfl rfl (by simp [hidle])
  | frame frame created => exact h.frame ha
  | captureVideo noErr created =>
    obtain ⟨rfl, rfl⟩ := Prod.mk.inj (Option.some.inj ha)
    unfold LFLiveSession.captureVideo
    split
    · exact h.same rfl (fun hu => hu) rfl rfl rfl (fun _ _ hi => hi)
    · exact h
  | socket i a created =>
    simp only [LFLiveSession.act] at ha
    split at ha
    · next hint =>
      refine h.onSocket ?_ ha
      rintro f rfl
      simp [SocketAction.isInternal] at hint
    · simp at ha
  | mainBlock =>
    simp only [LFLiveSession.act] at ha
    split at ha
    · simp at ha
    · obtain ⟨rfl, rfl⟩ := Prod.mk.inj (Option.some.inj ha)
      exact h.same rfl (fun hu => hu) rfl rfl rfl (fun _ _ hi => hi)
  | willEnterBackground =>
    obtain ⟨rfl, rfl⟩ := Prod.mk.inj (Option.some.inj ha)
    exact h.same rfl (fun hu => hu) rfl rfl rfl (fun _ _ hi => hi)
  | willEnterForeground created =>
    obtain ⟨rfl, rfl⟩ := Prod.mk.inj (Option.some.inj ha)
    exact h.same rfl (fun hu => hu) rfl rfl rfl (fun _ _ hi => hi)

/-- Over any run and for each of its uploads: when both audio and video are
taken, the frames handed on are the encoded ones from the first key frame after
the first audio frame on, none left out, all of them otherwise; they go to one
socket, and their clock starts at zero with the first that has a time. -/
theorem uploads_aligned {n : Int} {t : List SessionAction} {captureType : UInt64}
    {videoConfiguration : Mux.LFLiveVideoConfiguration} {adaptiveBitrate : Bool}
    (h : Runs.run (step S) (init captureType videoConfiguration adaptiveBitrate n) t = some s) :
    ∀ u ∈ uploads (log S (init captureType videoConfiguration adaptiveBitrate n) t),
      ∃ i, u.handed = (rebase (aligned
        ((init captureType videoConfiguration adaptiveBitrate n).takesAudio &&
          (init captureType videoConfiguration adaptiveBitrate n).takesVideo)
        u.encoded)).map (Prod.mk i) := by
  have hrun : Uploading ((init captureType videoConfiguration adaptiveBitrate n).takesAudio &&
      (init captureType videoConfiguration adaptiveBitrate n).takesVideo)
      (uploads (log S (init captureType videoConfiguration adaptiveBitrate n) t)) s := by
    refine Runs.run_induction (P := fun t s => Uploading _
      (uploads (log S (init captureType videoConfiguration adaptiveBitrate n) t)) s) ?_ ?_ h
    · exact ⟨rfl, by simp [uploads, log, Runs.observed], by simp [init]⟩
    · intro t s a s' hrun ih hs
      rw [log, Runs.observed_concat hrun, uploads, List.foldl_append]
      exact ih.act (step_eq_some hs)
  exact hrun.finished

/-- A frame with its number as its time. -/
def frameAt (n : Nat) (kind : FrameKind) : SessionAction :=
  .frame { object := n, timestamp := UInt64.ofNat n, data := [], kind } true

/-- A connection, and frames of both kinds. -/
def firstUpload : List SessionAction :=
  [.startLive true, .socket 0 (.runBlock (.connected 1 .wrote) .wrote) true,
    frameAt 10 (.video true none none), frameAt 11 (.audio none), frameAt 12 (.video false none none),
    frameAt 13 (.video true none none), frameAt 14 (.audio none)]

theorem uploads_aligned_firstUpload :
    ∃ s : LFLiveSession,
      Runs.run (step (SortWindow.Sorter.insertion LFFrame.time))
        (init liveCaptureDefaultMask {} false 0) firstUpload = some s ∧
      ∀ u ∈ uploads (log (SortWindow.Sorter.insertion LFFrame.time)
          (init liveCaptureDefaultMask {} false 0) firstUpload),
        ∃ i, u.handed = (rebase (aligned true u.encoded)).map (Prod.mk i) :=
  ⟨_, rfl, uploads_aligned rfl⟩

end Uploads

/-! ## The adaptive bit rate -/

section BitRate

variable {S} {c : Mux.LFLiveVideoConfiguration} {s s' : LFLiveSession} {l : List Noted}
  {created : Bool}

/-- Less than a step of 100 000 below the minimum, and less than one of 50 000
above the maximum. -/
def InBand (c : Mux.LFLiveVideoConfiguration) (rate : Nat) : Prop :=
  c.videoBitRate.min < rate + 100 * 1000 ∧ rate < c.videoBitRate.max + 50 * 1000

/-- The band has room for both steps, and the configured rate lies in it.
Without the room a step downwards runs below zero, which the unsigned rate wraps. -/
structure Steady (c : Mux.LFLiveVideoConfiguration) : Prop where
  room : 100 * 1000 ≤ c.videoBitRate.min + 1
  word : c.videoBitRate.max + 50 * 1000 ≤ 2 ^ 64
  rate : InBand c c.videoBitRate.rate

/-- The encoder of a session, if it has one, keeps to the band. -/
structure Banded (c : Mux.LFLiveVideoConfiguration) (s : LFLiveSession) : Prop where
  configuration : s.videoConfiguration = c
  encoder : ∀ e, s.videoEncoder = some e →
    e.configuration = c ∧ InBand c e.currentVideoBitRate.toNat

theorem Steady.reset (hc : Steady c) {e : LFHardwareVideoEncoder} (he : e.configuration = c) :
    InBand c (e.resetCompressionSession true).currentVideoBitRate.toNat := by
  have hword := hc.word
  have hrate : c.videoBitRate.rate < c.videoBitRate.max + 50 * 1000 := hc.rate.2
  have hnat : (UInt64.ofNat c.videoBitRate.rate).toNat = c.videoBitRate.rate := by
    rw [UInt64.toNat_ofNat']
    exact Nat.mod_eq_of_lt (by omega)
  simp only [LFHardwareVideoEncoder.resetCompressionSession, if_true, he]
  rw [hnat]
  exact hc.rate

theorem Banded.getEncoder (hc : Steady c) (h : Banded c s) :
    (s.encoder true).configuration = c ∧
      InBand c (s.encoder true).currentVideoBitRate.toNat := by
  unfold LFLiveSession.encoder
  cases he : s.videoEncoder with
  | some e => exact h.encoder e he
  | none => exact ⟨h.configuration, hc.reset h.configuration⟩

/-- One report of the buffer moves the rate by one step, and not out of the band. -/
theorem Banded.socketBufferStatus (hc : Steady c) (h : Banded c s) (status : LFLiveBuffferState) :
    Banded c (s.socketBufferStatus status true) := by
  unfold LFLiveSession.socketBufferStatus
  split
  · refine ⟨h.configuration, ?_⟩
    intro e he
    obtain ⟨hconf, hlow, hhigh⟩ := h.getEncoder hc
    have hroom := hc.room
    have hword := hc.word
    dsimp only at he
    rw [h.configuration] at he
    generalize s.encoder true = e₀ at he hconf hlow hhigh
    -- a rate set in the background is ignored
    have hset : ∀ rate, (e₀.setVideoBitRate rate).configuration = c ∧
        ((e₀.setVideoBitRate rate).currentVideoBitRate = rate ∨
          (e₀.setVideoBitRate rate).currentVideoBitRate = e₀.currentVideoBitRate) := by
      intro rate
      unfold LFHardwareVideoEncoder.setVideoBitRate
      split
      · exact ⟨hconf, Or.inr rfl⟩
      · exact ⟨hconf, Or.inl rfl⟩
    obtain rfl := Option.some.inj he
    split
    · split
      · next hless =>
        obtain ⟨hconf', hrate | hrate⟩ := hset (e₀.currentVideoBitRate + 50 * 1000)
        · have hnat : (e₀.currentVideoBitRate + 50 * 1000).toNat =
              e₀.currentVideoBitRate.toNat + 50 * 1000 := by
            rw [UInt64.toNat_add]
            exact Nat.mod_eq_of_lt (by show _ + 50000 < _; omega)
          refine ⟨hconf', ?_⟩
          rw [hrate, hnat]
          unfold InBand
          omega
        · exact ⟨hconf', by rw [hrate]; exact ⟨hlow, hhigh⟩⟩
      · exact ⟨hconf, hlow, hhigh⟩
    · split
      · next hmore =>
        obtain ⟨hconf', hrate | hrate⟩ := hset (e₀.currentVideoBitRate - 100 * 1000)
        · have hnat : (e₀.currentVideoBitRate - 100 * 1000).toNat =
              e₀.currentVideoBitRate.toNat - 100 * 1000 := by
            apply UInt64.toNat_sub_of_le
            rw [UInt64.le_iff_toNat_le]
            show 100000 ≤ _
            omega
          refine ⟨hconf', ?_⟩
          rw [hrate, hnat]
          unfold InBand
          omega
        · exact ⟨hconf', by rw [hrate]; exact ⟨hlow, hhigh⟩⟩
      · exact ⟨hconf, hlow, hhigh⟩
  · exact h

theorem Banded.hearAll (hc : Steady c) (h : Banded c s) (told : List Told) :
    Banded c (s.hearAll true told).1 := by
  induction told generalizing s with
  | nil => exact h
  | cons told more ih =>
    apply ih
    cases told with
    | socketStatus status =>
      cases status with
      | start =>
        simp only [socketStatus]
        split <;> exact ⟨h.configuration, h.encoder⟩
      | _ => exact ⟨h.configuration, h.encoder⟩
    | socketDidError code => exact h
    | socketBufferStatus status => exact h.socketBufferStatus hc status

theorem Banded.onSocket (hc : Steady c) (h : Banded c s) {i : Nat} {a : SocketAction}
    (hs : s.onSocket S i a true = some (s', l)) : Banded c s' := by
  obtain ⟨k, o, -, -, rfl, -⟩ := onSocket_spec hs
  have hset : Banded c { s with sockets := s.sockets.set i o.socket } :=
    ⟨h.configuration, h.encoder⟩
  exact hset.hearAll hc o.told

theorem Banded.encoderAfter (hc : Steady c) (h : Banded c s) {a : SessionAction}
    (ha : a.created = true) : ∀ e, s.encoderAfter a = some e →
      e.configuration = c ∧ InBand c e.currentVideoBitRate.toNat := by
  intro e he
  cases a with
  | captureVideo noErr created =>
    obtain rfl : created = true := ha
    simp only [LFLiveSession.encoderAfter] at he
    split at he
    · obtain ⟨hconf, hband⟩ := h.getEncoder hc
      obtain rfl := Option.some.inj he
      unfold LFHardwareVideoEncoder.encodeVideoData
      split
      · exact ⟨hconf, hband⟩
      · cases noErr with
        | true => exact ⟨hconf, hband⟩
        | false => exact ⟨hconf, hc.reset hconf⟩
    · exact h.encoder e he
  | willEnterBackground =>
    obtain ⟨e₀, he₀, rfl⟩ := Option.map_eq_some_iff.mp he
    exact h.encoder e₀ he₀
  | willEnterForeground created =>
    obtain rfl : created = true := ha
    obtain ⟨e₀, he₀, rfl⟩ := Option.map_eq_some_iff.mp he
    obtain ⟨hconf, -⟩ := h.encoder e₀ he₀
    exact ⟨hconf, hc.reset hconf⟩
  | _ => exact h.encoder e he

theorem Banded.act (hc : Steady c) (h : Banded c s) {a : SessionAction} (hcreated : a.created = true)
    (ha : s.act S a = some (s', l)) : Banded c s' := by
  cases acts_of_act S ha with
  | quiet hs he hl =>
    refine ⟨hs.videoConfiguration.trans h.configuration, ?_⟩
    rw [he]
    exact h.encoderAfter hc hcreated
  | current r s₂ b l₂ hr he hb hon hl hs' =>
    obtain ⟨sockets, i, hcurrent, -⟩ := current_spec r
    have hready : Banded c r.current.1 := by
      rw [hcurrent]
      exact ⟨hr.videoConfiguration.trans h.configuration, he ▸ h.encoder⟩
    rw [hcreated] at hon
    have hafter := hready.onSocket hc hon
    rcases hs' with rfl | rfl
    · exact hafter
    · exact ⟨hafter.configuration, hafter.encoder⟩
  | socket i b hb hon =>
    rw [hcreated] at hon
    exact h.onSocket hc hon

/-- However often the buffer reports, and whatever resets the encoder in
between, the bit rate of a steady configuration stays less than one step outside
the configured bounds, as long as every compression session can be made. -/
theorem bitRate_in_band {n : Int} {t : List SessionAction} {captureType : UInt64}
    {adaptiveBitrate : Bool} (hc : Steady c) (ht : ∀ a ∈ t, a.created = true)
    (h : Runs.run (step S) (init captureType c adaptiveBitrate n) t = some s) :
    ∀ e, s.videoEncoder = some e → InBand c e.currentVideoBitRate.toNat := by
  have hrun : Banded c s := by
    have halong : Runs.Along (step S) (fun _ a => a.created = true)
        (init captureType c adaptiveBitrate n) t := by
      rw [Runs.along_iff_prefix]
      intro u a _ hu _
      exact ht a (hu.subset (by simp))
    refine Runs.invariant_along (I := Banded c) ?_ halong ⟨rfl, by simp [init]⟩ h
    intro s a s' ha hi hs
    exact hi.act hc ha (step_eq_some hs)
  intro e he
  exact (hrun.encoder e he).2

/-- A second without frames, five times over. -/
def idleSeconds : List SessionAction :=
  .startLive true :: List.replicate 5 (.socket 0 .tick true)

theorem bitRate_in_band_idleSeconds :
    ∃ s : LFLiveSession,
      Runs.run (step (SortWindow.Sorter.insertion LFFrame.time))
        (init liveCaptureDefaultMask (.medium3 true) true 0) idleSeconds = some s ∧
      s.videoEncoder.map LFHardwareVideoEncoder.currentVideoBitRate = some 1050000 ∧
      ∀ e, s.videoEncoder = some e → InBand (.medium3 true) e.currentVideoBitRate.toNat :=
  ⟨_, rfl, rfl, @bitRate_in_band (SortWindow.Sorter.insertion LFFrame.time) (.medium3 true) _ 0
    idleSeconds liveCaptureDefaultMask true ⟨by decide, by decide, by decide, by decide⟩
    (by simp [idleSeconds, SessionAction.created]) rfl⟩

end BitRate

end WaxxyLive.LiveKit.LFLiveSession
