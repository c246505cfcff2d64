import WaxxyLive.Lib.Runs
import WaxxyLive.Lib.Tables
import WaxxyLive.MuxLive

/-!
# What the delegate hears of a broadcast

A session reports its state changes in main-queue blocks that may run long
after `MuxLive` dropped it. `inv_step` says what the delegate hears as long as
a session is stopped before the next one is started.
-/

namespace WaxxyLive.Mux

/-- A `didChangeState` call, with the session it stems from and the one held when it is made. -/
structure DidChangeState where
  session : Nat
  held : Option Nat
  state : MuxLiveState
  deriving DecidableEq, Repr

/-- The `didChangeState` calls before the last `start` and since, oldest first. -/
structure Watched where
  muxLive : MuxLive := {}
  earlier : List DidChangeState := []
  since : List DidChangeState := []

def Watched.calls (w : Watched) : List DidChangeState := w.earlier ++ w.since

/-- The state last reported, ready before any report. -/
def lastReported (calls : List DidChangeState) : MuxLiveState :=
  (calls.getLast?.map DidChangeState.state).getD .ready

namespace Watched

inductive Action where
  | start (streamKey : String)
  | stop
  | delivered (sid : Nat) (state : LFLiveState)

/-- A block delivers a state of a session that was started; the call it makes, if any, is made by
the handler `liveSession(_:liveStateDidChange:)`. -/
def step (w : Watched) : Action → Option Watched
  | .start streamKey =>
    some { muxLive := w.muxLive.start streamKey, earlier := w.calls, since := [] }
  | .stop => some { w with muxLive := w.muxLive.stop }
  | .delivered sid state =>
    if sid < w.muxLive.sessions.length then
      let (muxLive, reported) := w.muxLive.report sid state
      some { w with
        muxLive
        since := w.since ++ reported.toList.map fun s => ⟨sid, w.muxLive.liveSession, s⟩ }
    else none

end Watched

open Watched

/-- Every call stems from the session held when it is made, and the state last reported is
`liveState`. -/
structure NeverDisagrees (w : Watched) : Prop where
  calls : ∀ c ∈ w.calls, c.held = some c.session
  state : lastReported w.calls = w.muxLive.liveState

/-- While a session is held the delegate has heard its state, and otherwise it hears nothing. -/
structure Agrees (w : Watched) : Prop where
  calls : ∀ c ∈ w.calls, c.held = some c.session
  held : w.muxLive.session.isSome → lastReported w.since = w.muxLive.liveState
  dropped : w.muxLive.session = none → w.muxLive.liveState = .ready ∧
    ∀ sid state w', step w (.delivered sid state) = some w' → w'.calls = w.calls

/-- `start` is not called while a session is held. -/
def StartsAfterStop (w : Watched) : Action → Prop
  | .start _ => w.muxLive.session = none
  | _ => True

/-! ## The session table -/

section Table

variable (m : MuxLive)

theorem start_sessions (streamKey : String) :
    (m.start streamKey).sessions = m.sessions ++
      [{ delegate := true, preView := m.previewView, url := some (streamUrlString streamKey) }] :=
  Tables.modify_concat m.sessions _ _

theorem start_liveSession (streamKey : String) :
    (m.start streamKey).liveSession = some m.sessions.length := rfl

variable {m}

theorem stop_sessions_of_held {sid : Nat} (h : m.liveSession = some sid) :
    m.stop.sessions = m.sessions.modify sid fun s => { s with delegate := false } := by
  simp [MuxLive.stop, MuxLive.modifySession, h]

theorem stop_sessions_of_none (h : m.liveSession = none) : m.stop.sessions = m.sessions := by
  simp [MuxLive.stop, MuxLive.modifySession, h]

end Table

/-! ## The invariant -/

/-- Only the session held has the delegate, and its state is the last the delegate heard since it
was started. -/
structure Inv (w : Watched) : Prop where
  calls : ∀ c ∈ w.calls, c.held = some c.session
  delegate : ∀ sid s, w.muxLive.sessions[sid]? = some s → s.delegate →
    w.muxLive.liveSession = some sid
  held : ∀ sid, w.muxLive.liveSession = some sid → ∃ s, w.muxLive.sessions[sid]? = some s ∧
    s.delegate ∧ lastReported w.since = .ofLFLiveState s.state

variable {w w' : Watched}

theorem inv_init : Inv {} := ⟨by simp [Watched.calls], by simp, by simp⟩

/-- The session held is in the table. -/
theorem Inv.session_eq_none (h : Inv w) (hs : w.muxLive.session = none) :
    w.muxLive.liveSession = none := by
  cases hsid : w.muxLive.liveSession with
  | none => rfl
  | some sid =>
    rcases h.held sid hsid with ⟨s, hget, -⟩
    simp [MuxLive.session, hsid, hget] at hs

theorem inv_start {streamKey : String} (h : Inv w) (hC : w.muxLive.session = none)
    (hs : step w (.start streamKey) = some w') : Inv w' := by
  obtain rfl := Option.some.inj hs
  have hnone := h.session_eq_none hC
  refine ⟨by simpa [Watched.calls] using h.calls, fun sid s hget hd => ?_, fun sid hsid => ?_⟩
  · -- no older session has the delegate
    rw [start_sessions] at hget
    rw [start_liveSession]
    by_cases hlt : sid < w.muxLive.sessions.length
    · rw [List.getElem?_append_left hlt] at hget
      have hheld := h.delegate sid s hget hd
      rw [hnone] at hheld
      cases hheld
    · rw [List.getElem?_append_right (by omega)] at hget
      have hsid : sid - w.muxLive.sessions.length = 0 := by
        by_contra hne
        rw [List.getElem?_eq_none (by simp; omega)] at hget
        cases hget
      congr 1
      omega
  · rw [start_liveSession] at hsid
    obtain rfl := Option.some.inj hsid
    rw [start_sessions]
    exact ⟨_, List.getElem?_concat_length, rfl, rfl⟩

theorem inv_stop (h : Inv w) (hs : step w .stop = some w') : Inv w' := by
  obtain rfl := Option.some.inj hs
  refine ⟨h.calls, fun sid s hget hd => ?_, fun sid hsid => nomatch hsid⟩
  -- the session that was held is detached, and no other had the delegate
  cases hheld : w.muxLive.liveSession with
  | none =>
    rw [stop_sessions_of_none hheld] at hget
    have hsid := h.delegate sid s hget hd
    rw [hheld] at hsid
    cases hsid
  | some held =>
    rw [stop_sessions_of_held hheld, List.getElem?_modify] at hget
    rcases Option.map_eq_some_iff.mp hget with ⟨s', hget', rfl⟩
    by_cases hsid : held = sid
    · simp [hsid] at hd
    · have hd' : s'.delegate = true := by simpa [hsid] using hd
      have hsid' := h.delegate sid s' hget' hd'
      rw [hheld] at hsid'
      exact absurd (Option.some.inj hsid') hsid

/-- What a delivery does: it sets the session's state and, when the session has the delegate, makes
one call. -/
theorem step_delivered {sid : Nat} {state : LFLiveState} :
    step w (.delivered sid state) = some w' ↔ ∃ s, w.muxLive.sessions[sid]? = some s ∧
      w' = { w with
        muxLive := (w.muxLive.report sid state).1
        since := w.since ++ if s.delegate then
          [⟨sid, w.muxLive.liveSession, .ofLFLiveState state⟩] else [] } := by
  cases hget : w.muxLive.sessions[sid]? with
  | none =>
    have hlen : ¬ sid < w.muxLive.sessions.length := by
      simpa using List.getElem?_eq_none_iff.mp hget
    simp [step, hlen]
  | some s =>
    rcases List.getElem?_eq_some_iff.mp hget with ⟨hlen, rfl⟩
    by_cases hd : w.muxLive.sessions[sid].delegate <;>
      simp [step, hlen, MuxLive.report, hd, @eq_comm _ w']

theorem report_sessions_self {m : MuxLive} {sid : Nat} {s : LFLiveSession} (state : LFLiveState)
    (h : m.sessions[sid]? = some s) :
    (m.report sid state).1.sessions[sid]? = some { s with state } := by
  simp [MuxLive.report, h]

theorem report_sessions_ne {m : MuxLive} {sid i : Nat} (state : LFLiveState) (h : sid ≠ i) :
    (m.report sid state).1.sessions[i]? = m.sessions[i]? := by
  simp [MuxLive.report, h]

theorem inv_delivered {sid : Nat} {state : LFLiveState} (h : Inv w)
    (hs : step w (.delivered sid state) = some w') : Inv w' := by
  rcases step_delivered.mp hs with ⟨s, hget, rfl⟩
  have hlive : (w.muxLive.report sid state).1.liveSession = w.muxLive.liveSession := rfl
  refine ⟨?_, fun i s' hi hd => ?_, fun i hi => ?_⟩
  · intro c hc
    have hnew : c ∈ w.calls ∨
        s.delegate ∧ c = ⟨sid, w.muxLive.liveSession, .ofLFLiveState state⟩ := by
      simpa [Watched.calls, or_assoc] using hc
    rcases hnew with hold | ⟨hd, rfl⟩
    · exact h.calls c hold
    · exact h.delegate sid s hget hd
  · rw [hlive]
    by_cases hsid : sid = i
    · subst hsid
      rw [report_sessions_self state hget] at hi
      rw [← Option.some.inj hi] at hd
      exact h.delegate sid s hget hd
    · rw [report_sessions_ne state hsid] at hi
      exact h.delegate i s' hi hd
  · rw [hlive] at hi
    rcases h.held i hi with ⟨s', hget', hd', hlast⟩
    by_cases hsid : sid = i
    · subst hsid
      obtain rfl : s = s' := Option.some.inj (hget.symm.trans hget')
      exact ⟨_, report_sessions_self state hget, hd', by simp [hd', lastReported]⟩
    · have hd : ¬ s.delegate := by
        intro hd
        have hheld := h.delegate sid s hget hd
        rw [hi] at hheld
        exact hsid (Option.some.inj hheld).symm
      exact ⟨s', (report_sessions_ne state hsid).trans hget', hd', by simpa [hd] using hlast⟩

theorem inv_step {a : Action} (hC : StartsAfterStop w a) (h : Inv w) (hs : step w a = some w') :
    Inv w' := by
  cases a with
  | start streamKey => exact inv_start h hC hs
  | stop => exact inv_stop h hs
  | delivered sid state => exact inv_delivered h hs

theorem Inv.agrees (h : Inv w) : Agrees w := by
  refine ⟨h.calls, fun hsome => ?_, fun hnone => ⟨?_, fun sid state w' hs => ?_⟩⟩
  · rcases Option.isSome_iff_exists.mp hsome with ⟨s, hs⟩
    rcases Option.bind_eq_some_iff.mp hs with ⟨sid, hsid, hget⟩
    rcases h.held sid hsid with ⟨s', hget', -, hlast⟩
    obtain rfl : s = s' := Option.some.inj (hget.symm.trans hget')
    rw [hlast, MuxLive.liveState, hs]
  · rw [MuxLive.liveState, hnone]
  · rcases step_delivered.mp hs with ⟨s, hget, rfl⟩
    have hd : ¬ s.delegate := by
      intro hd
      have hheld := h.delegate sid s hget hd
      rw [h.session_eq_none hnone] at hheld
      cases hheld
    simp [Watched.calls, hd]

/-- **The delegate.** In every run that stops each session before it starts the next, every call
stems from the session held, the state last heard since that session was started is `liveState`, and
with no session held `liveState` is ready and the delegate hears nothing. -/
theorem delegate_agrees {t : List Action} (hC : Runs.Along step StartsAfterStop {} t)
    (h : Runs.run step {} t = some w) : Agrees w :=
  (Runs.invariant_along (fun _ _ _ => inv_step) hC inv_init h).agrees

/-- Two broadcasts one after the other, the last report of the first one coming late. -/
def twoBroadcasts : List Action :=
  [.start "one", .delivered 0 .start, .stop, .start "two", .delivered 0 .stop, .delivered 1 .pending]

theorem delegate_agrees_twoBroadcasts :
    ∃ w, Runs.run step {} twoBroadcasts = some w ∧ Agrees w := by
  refine ⟨_, rfl, delegate_agrees ?_ (show Runs.run step {} twoBroadcasts = _ from rfl)⟩
  refine Runs.along_cons rfl rfl (Runs.along_cons trivial rfl (Runs.along_cons trivial rfl ?_))
  exact Runs.along_cons rfl rfl (Runs.along_cons trivial rfl (Runs.along_cons trivial rfl trivial))

/-- The delegate of a stopped broadcast has last heard that it started. -/
theorem stopped_broadcast_disagrees :
    ¬ ∀ (t : List Action) (w : Watched), Runs.run step {} t = some w → NeverDisagrees w := by
  intro h
  have hstate := (h [.start "key", .delivered 0 .start, .stop] _ rfl).state
  cases hstate

end WaxxyLive.Mux
