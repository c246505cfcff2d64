import WaxxyLive.MuxLive
import Mathlib.Data.List.Induction

/-!
# The preview and the running flag of a session

`MuxLive` copies `previewView` and `isRunning` to the session it holds when
they are assigned, and `previewView` to a new session when it starts one.
`copied_assignment` and `copied_start` say what one call leaves of the two in
the session held.
-/

namespace WaxxyLive.Mux

inductive Call where
  | setPreviewView (view : Option View)
  | setIsRunning (isRunning : Bool)
  | start (streamKey : String)
  | stop
  deriving DecidableEq, Repr

def MuxLive.exec (m : MuxLive) : Call → MuxLive
  | .setPreviewView view => m.setPreviewView view
  | .setIsRunning isRunning => m.setIsRunning isRunning
  | .start streamKey => m.start streamKey
  | .stop => m.stop

/-- A new `MuxLive` after the calls, oldest first. -/
def MuxLive.after (calls : List Call) : MuxLive := calls.foldl MuxLive.exec {}

theorem MuxLive.after_concat (calls : List Call) (c : Call) :
    MuxLive.after (calls ++ [c]) = (MuxLive.after calls).exec c := by
  simp [MuxLive.after]

/-- Every session held has the preview and the running flag `MuxLive` has. -/
def SettingsEqual (m : MuxLive) : Prop :=
  ∀ s, m.session = some s → s.preView = m.previewView ∧ s.running = m.isRunning

/-- A call that neither starts nor stops a session. -/
def Call.IsAssignment : Call → Prop
  | .setPreviewView _ | .setIsRunning _ => True
  | .start _ | .stop => False

/-- The view a call assigns, if it assigns one. -/
def Call.view : Call → Option View
  | .setPreviewView view => view
  | _ => none

def Call.AssignsRunning : Call → Prop
  | .setIsRunning _ => True
  | _ => False

/-- The last view assigned. -/
def lastView (calls : List Call) : Option View := (calls.filterMap Call.view).getLast?

theorem lastView_concat (calls : List Call) (c : Call) :
    lastView (calls ++ [c]) = c.view.or (lastView calls) := by
  cases h : c.view <;> simp [lastView, h]

/-- What the session `s` started on `atStart` shows in `m`, after the assignments `since`. -/
structure Copied (atStart : MuxLive) (since : List Call) (m : MuxLive) (s : LFLiveSession) :
    Prop where
  preView : s.preView = (lastView since).or atStart.previewView
  previewView : m.previewView ≠ none → s.preView = m.previewView
  running : (∃ c ∈ since, c.AssignsRunning) ∨ atStart.isRunning = false → s.running = m.isRunning

section Calls

variable {atStart m : MuxLive} {since : List Call} {s s' : LFLiveSession}

theorem setPreviewView_some (m : MuxLive) (v : View) :
    (m.setPreviewView (some v)).previewView = some v ∧
      (m.setPreviewView (some v)).isRunning = m.isRunning := by
  cases hsid : m.liveSession <;> simp [MuxLive.setPreviewView, MuxLive.modifySession, hsid]

theorem setIsRunning_fields (m : MuxLive) (isRunning : Bool) :
    (m.setIsRunning isRunning).previewView = m.previewView ∧
      (m.setIsRunning isRunning).isRunning = isRunning := by
  cases hsid : m.liveSession <;> simp [MuxLive.setIsRunning, MuxLive.modifySession, hsid]

/-- A new session has the preview of its `MuxLive`. -/
theorem copied_start (m : MuxLive) (streamKey : String) (hs : (m.start streamKey).session = some s) :
    Copied m [] (m.start streamKey) s := by
  rw [MuxLive.session_start] at hs
  obtain rfl := Option.some.inj hs
  have hm : (m.start streamKey).previewView = m.previewView ∧
      (m.start streamKey).isRunning = m.isRunning := ⟨rfl, rfl⟩
  constructor
  · simp [lastView]
  · intro _
    exact hm.1.symm
  · intro h
    have hrunning : m.isRunning = false := by simpa using h
    rw [hm.2, hrunning]

theorem copied_setPreviewView (view : Option View) (hs' : m.session = some s')
    (h : Copied atStart since m s') (hs : (m.setPreviewView view).session = some s) :
    Copied atStart (since ++ [.setPreviewView view]) (m.setPreviewView view) s := by
  rw [MuxLive.session_setPreviewView] at hs
  have hlast : lastView (since ++ [.setPreviewView view]) = view.or (lastView since) :=
    lastView_concat since _
  have hassigns : (∃ c ∈ since ++ [.setPreviewView view], c.AssignsRunning) →
      ∃ c ∈ since, c.AssignsRunning := by
    rintro ⟨c, hc, hr⟩
    rcases List.mem_append.mp hc with hc | hc
    · exact ⟨c, hc, hr⟩
    · rw [List.mem_singleton.mp hc] at hr
      exact hr.elim
  cases view with
  | none =>
    obtain rfl : s' = s := Option.some.inj (hs'.symm.trans hs)
    refine ⟨?_, fun hv => absurd rfl hv, fun hr => h.running (hr.imp_left hassigns)⟩
    rw [hlast]
    exact h.preView
  | some v =>
    rw [hs'] at hs
    obtain rfl := Option.some.inj hs
    have hm := setPreviewView_some m v
    refine ⟨?_, fun _ => hm.1.symm, fun hr => ?_⟩
    · rw [hlast]
      rfl
    · rw [hm.2]
      exact h.running (hr.imp_left hassigns)

theorem copied_setIsRunning (isRunning : Bool) (hs' : m.session = some s')
    (h : Copied atStart since m s') (hs : (m.setIsRunning isRunning).session = some s) :
    Copied atStart (since ++ [.setIsRunning isRunning]) (m.setIsRunning isRunning) s := by
  rw [MuxLive.session_setIsRunning, hs'] at hs
  obtain rfl := Option.some.inj hs
  have hm := setIsRunning_fields m isRunning
  refine ⟨?_, fun hv => ?_, fun _ => hm.2.symm⟩
  · rw [lastView_concat]
    exact h.preView
  · rw [hm.1] at hv ⊢
    exact h.previewView hv

/-- An assignment finds a session if it leaves one, and is copied to it. -/
theorem copied_assignment {c : Call} (hc : c.IsAssignment) (hs : (m.exec c).session = some s) :
    ∃ s', m.session = some s' ∧ (∀ atStart since, Copied atStart since m s' →
      Copied atStart (since ++ [c]) (m.exec c) s) := by
  have hsome : ∃ s', m.session = some s' := by
    cases hm : m.session with
    | some s' => exact ⟨s', rfl⟩
    | none =>
      cases c with
      | setPreviewView view => cases view <;> simp [MuxLive.exec, hm] at hs
      | setIsRunning isRunning => simp [MuxLive.exec, hm] at hs
      | start streamKey => exact hc.elim
      | stop => exact hc.elim
  rcases hsome with ⟨s', hs'⟩
  refine ⟨s', hs', fun atStart since h => ?_⟩
  cases c with
  | setPreviewView view => exact copied_setPreviewView view hs' h hs
  | setIsRunning isRunning => exact copied_setIsRunning isRunning hs' h hs
  | start streamKey => exact hc.elim
  | stop => exact hc.elim

end Calls

/-- **Session settings.** After any calls, the session held was started by one of them, and what it
shows is what was assigned since: the last view assigned (the preview there was at its start when
none was), which is `previewView` whenever that is a view, and the running flag as soon as
`isRunning` was assigned, or when it was false at the start. -/
theorem settings_reach_session {calls : List Call} {s : LFLiveSession}
    (h : (MuxLive.after calls).session = some s) :
    ∃ before streamKey since, calls = before ++ .start streamKey :: since ∧
      (∀ c ∈ since, c.IsAssignment) ∧
      Copied (MuxLive.after before) since (MuxLive.after calls) s := by
  induction calls using List.reverseRecOn generalizing s with
  | nil => cases h
  | append_singleton calls c ih =>
    rw [MuxLive.after_concat] at h ⊢
    by_cases hc : c.IsAssignment
    · rcases copied_assignment hc h with ⟨s', hs', hcopied⟩
      rcases ih hs' with ⟨before, streamKey, since, rfl, hsince, hold⟩
      refine ⟨before, streamKey, since ++ [c], by simp, fun d hd => ?_, hcopied _ _ hold⟩
      rcases List.mem_append.mp hd with hd | hd
      · exact hsince d hd
      · exact List.mem_singleton.mp hd ▸ hc
    · cases c with
      | setPreviewView view => exact absurd trivial hc
      | setIsRunning isRunning => exact absurd trivial hc
      | start streamKey => exact ⟨calls, streamKey, [], rfl, by simp, copied_start _ streamKey h⟩
      | stop => cases h

/-- A broadcast restarted with the preview of the first one and running. -/
theorem settings_reach_restarted_session :
    ∃ before streamKey since, [.setPreviewView (some 0), .start "key", .setIsRunning true, .stop,
        .start "key", .setPreviewView (some 1), .setIsRunning true] =
        before ++ .start streamKey :: since ∧ (∀ c ∈ since, c.IsAssignment) ∧
      Copied (MuxLive.after before) since
        (MuxLive.after [.setPreviewView (some 0), .start "key", .setIsRunning true, .stop,
          .start "key", .setPreviewView (some 1), .setIsRunning true])
        { delegate := true, preView := some 1, running := true,
          url := some "rtmp://global-live.mux.com:5222/app/key" } :=
  settings_reach_session (by rfl)

/-- Clearing the preview leaves the session with it. -/
theorem cleared_preview_stays :
    ¬ SettingsEqual
      (MuxLive.after [.setPreviewView (some 0), .start "key", .setPreviewView none]) := by
  intro h
  rcases h _ rfl with ⟨hpreview, -⟩
  cases hpreview

end WaxxyLive.Mux
