import WaxxyLive.Lib.Runs
import WaxxyLive.MuxLive
import WaxxyLive.Registration
import WaxxyLive.Streaming

/-!
# A broadcast on the host's device

Going live publishes the stream entry and presents a `MuxViewController`, whose
broadcast view owns a `MuxLive`. The Stop button stops it, retracts the entry
and dismisses the screen; the broadcast view stops it when it disappears. The
device's writes are applied in the order they were issued.
-/

namespace WaxxyLive.Broadcast

open Firestore CoreData Registration Streaming Mux

inductive Write where
  | publish (ref : DocumentReference) (playback : PlaybackData)
  | retract (ref : DocumentReference)

/-- A retraction of a missing document is refused and changes nothing. -/
def Write.apply (db : Database) : Write → Database
  | .publish ref playback => Streaming.publish db ref playback
  | .retract ref => (Streaming.retract db ref).getD db

/-- A `MuxViewController` with the `MuxLive` of its broadcast view. -/
structure MuxViewController where
  host : Option Host
  muxLive : MuxLive
  dismissing : Bool := false

/-- Whether a `MuxViewController` is on the screen, or the last one was dismissed. -/
inductive Screen where
  | home
  | presented (vc : MuxViewController)
  | dismissed

structure Device where
  host : Option Host
  db : Database
  writes : List Write := []
  screen : Screen := .home

/-- `MuxViewController.viewDidLoad`: the broadcast is started before the broadcast view loads,
which then sets its preview. -/
def viewDidLoad (streamKey : String) : MuxLive :=
  (MuxLive.start {} streamKey).setPreviewView (some 0)

inductive Action where
  | goLive (playback : PlaybackData)
  | stopPressed
  | viewWillAppear
  | viewWillDisappear
  | report (sid : Nat) (state : LFLiveState)
  | dismissed
  | writeApplied

/-- Something happens to the screen presented. -/
def Device.onScreen (d : Device) (f : MuxViewController → Option Device) : Option Device :=
  match d.screen with
  | .presented vc => f vc
  | .home | .dismissed => none

/-- `handleStopButton`; `none` is the trap of `host!.username!` or of a username that is no
document path. -/
def handleStopButton (d : Device) (vc : MuxViewController) : Option Device := do
  let target ← stopTarget vc.host
  let writes ← match target with
    | some username => (hostDocument username).map fun ref => [.retract ref]
    | none => some []
  return { d with
    writes := d.writes ++ writes
    screen := .presented { vc with muxLive := vc.muxLive.stop, dismissing := true } }

/-- The write of `createStream` after a reply. -/
def createStream (host : Option Host) (playback : PlaybackData) : Option (List Write) :=
  match createStreamTarget host with
  | some username => (hostDocument username).map fun ref => [.publish ref playback]
  | none => some []

/-- One action; `none` where it cannot happen, or where the app traps. -/
def step (d : Device) : Action → Option Device
  | .goLive playback =>
    match d.screen with
    | .presented _ => none
    | .home | .dismissed => (createStream d.host playback).map fun writes =>
      { d with
        writes := d.writes ++ writes
        screen := .presented { host := d.host, muxLive := viewDidLoad playback.streamKey } }
  | .stopPressed => d.onScreen fun vc => handleStopButton d vc
  | .viewWillAppear => d.onScreen fun vc =>
    some { d with screen := .presented { vc with muxLive := vc.muxLive.setIsRunning true } }
  | .viewWillDisappear => d.onScreen fun vc =>
    some { d with
      screen := .presented { vc with muxLive := (vc.muxLive.setIsRunning false).stop } }
  | .report sid state => d.onScreen fun vc =>
    some { d with screen := .presented { vc with muxLive := (vc.muxLive.report sid state).1 } }
  | .dismissed => d.onScreen fun vc =>
    if vc.dismissing then some { d with screen := .dismissed } else none
  | .writeApplied =>
    match d.writes with
    | [] => none
    | w :: rest => some { d with db := w.apply d.db, writes := rest }

/-! ## The stream entry and the broadcast -/

/-- The document has a `stream` field. -/
def HasStream (db : Database) (ref : DocumentReference) : Prop :=
  ((db.get ref).bind fun data => data.lookup "stream").isSome

/-- No session is held any more, or the one held failed or stopped. -/
def Ended : Screen → Prop
  | .home => False
  | .presented vc => vc.muxLive.session = none ∨ vc.muxLive.liveState = .failed ∨
      vc.muxLive.liveState = .stopped
  | .dismissed => True

def GoesOn : Screen → Prop
  | .presented vc => vc.muxLive.session.isSome ∧ vc.muxLive.liveState ≠ .failed ∧
      vc.muxLive.liveState ≠ .stopped
  | .home | .dismissed => False

/-- Once every write is applied, the field is there while the broadcast goes on and not after. -/
def Follows (ref : DocumentReference) (d : Device) : Prop :=
  d.writes = [] →
    (Ended d.screen → ¬ HasStream d.db ref) ∧ (GoesOn d.screen → HasStream d.db ref)

/-- The broadcast view does not disappear while a session is held, and the session held does not
report that it failed or stopped. -/
def KeepsEntry (d : Device) : Action → Prop
  | .viewWillDisappear => ∀ vc, d.screen = .presented vc → vc.muxLive.session = none
  | .report sid state => ∀ vc, d.screen = .presented vc → vc.muxLive.liveSession = some sid →
      state ≠ .stop ∧ state ≠ .error
  | _ => True

/-- A logged-in host's device, before it goes live. -/
structure LoggedIn (ref : DocumentReference) (d : Device) : Prop where
  host : (createStreamTarget d.host).bind hostDocument = some ref
  doc : (d.db.get ref).isSome
  writes : d.writes = []
  screen : d.screen = .home

/-! ## The invariant -/

/-- The database once every write is applied. -/
def Device.settled (d : Device) : Database := d.writes.foldl Write.apply d.db

theorem get_publish_isSome (db : Database) (ref : DocumentReference) (playback : PlaybackData) :
    ((publish db ref playback).get ref).isSome := by
  simp [publish, Database.setDataMerge]

theorem hasStream_publish (db : Database) (ref : DocumentReference) (playback : PlaybackData) :
    HasStream (publish db ref playback) ref := by
  obtain ⟨⟨fields, hs, -⟩, -⟩ := patchObject_stream ((db.get ref).getD ∅) playback
  simp [HasStream, publish, Database.setDataMerge, hs]

theorem retract_of_isSome {db : Database} {ref : DocumentReference} (h : (db.get ref).isSome) :
    (((retract db ref).getD db).get ref).isSome ∧ ¬ HasStream ((retract db ref).getD db) ref := by
  obtain ⟨data, hd⟩ := Option.isSome_iff_exists.mp h
  simp [retract, Database.updateDataDelete, hd, HasStream]

/-- The screen presented, when the entry will be there (`stream`) or not. -/
structure ScreenOk (stream : Prop) (host : Option Host) (vc : MuxViewController) : Prop where
  host : vc.host = host
  dismissing : vc.dismissing → vc.muxLive.session = none
  held : ∀ s, vc.muxLive.session = some s → stream ∧ s.state ≠ .stop ∧ s.state ≠ .error
  dropped : vc.muxLive.session = none → ¬ stream

structure Inv (ref : DocumentReference) (d : Device) : Prop where
  host : (createStreamTarget d.host).bind hostDocument = some ref
  doc : (d.settled.get ref).isSome
  presented : ∀ vc, d.screen = .presented vc → ScreenOk (HasStream d.settled ref) d.host vc
  dismissed : d.screen = .dismissed → ¬ HasStream d.settled ref

variable {ref : DocumentReference} {d d' : Device}

theorem inv_init (h : LoggedIn ref d) : Inv ref d where
  host := h.host
  doc := by simpa [Device.settled, h.writes] using h.doc
  presented := by simp [h.screen]
  dismissed := by simp [h.screen]

theorem onScreen_eq_some {f : MuxViewController → Option Device} :
    d.onScreen f = some d' ↔ ∃ vc, d.screen = .presented vc ∧ f vc = some d' := by
  unfold Device.onScreen
  cases d.screen <;> simp

/-- A change of the screen that keeps its relation to the entry. -/
theorem Inv.present {vc : MuxViewController} (h : Inv ref d)
    (hvc : ScreenOk (HasStream d.settled ref) d.host vc) :
    Inv ref { d with screen := .presented vc } where
  host := h.host
  doc := h.doc
  presented _ hs := Screen.presented.inj hs ▸ hvc
  dismissed hs := nomatch hs

theorem createStream_of_target {host : Option Host} (playback : PlaybackData)
    (h : (createStreamTarget host).bind hostDocument = some ref) :
    createStream host playback = some [.publish ref playback] := by
  obtain ⟨username, ht, href⟩ := Option.bind_eq_some_iff.mp h
  simp [createStream, ht, href]

/-- A session with a username can be stopped, and stops what it published. -/
theorem handleStopButton_of_target {vc : MuxViewController}
    (h : (createStreamTarget vc.host).bind hostDocument = some ref) :
    handleStopButton d vc = some { d with
      writes := d.writes ++ [.retract ref]
      screen := .presented { vc with muxLive := vc.muxLive.stop, dismissing := true } } := by
  obtain ⟨username, ht, href⟩ := Option.bind_eq_some_iff.mp h
  obtain ⟨host, hh, hu⟩ := Option.bind_eq_some_iff.mp ht
  simp [handleStopButton, stopTarget, hh, hu, href]

theorem inv_goLive {playback : PlaybackData} (h : Inv ref d)
    (hs : step d (.goLive playback) = some d') : Inv ref d' := by
  have hd : d' = { d with
      writes := d.writes ++ [.publish ref playback]
      screen := .presented { host := d.host, muxLive := viewDidLoad playback.streamKey } } := by
    cases hscreen : d.screen <;>
      simp [step, hscreen, createStream_of_target playback h.host] at hs <;> exact hs.symm
  have hsettled : d'.settled = publish d.settled ref playback := by
    simp [hd, Device.settled, Write.apply]
  have hstream := hasStream_publish d.settled ref playback
  refine ⟨by simpa [hd] using h.host, hsettled ▸ get_publish_isSome _ _ _, ?_, by simp [hd]⟩
  rintro vc hvc
  obtain rfl : vc = { host := d.host, muxLive := viewDidLoad playback.streamKey } := by
    simpa [hd, eq_comm] using hvc
  rw [hsettled]
  refine ⟨by simp [hd], by simp, ?_, by simp [viewDidLoad]⟩
  intro s hsession
  obtain rfl : _ = s := by simpa [viewDidLoad] using hsession
  exact ⟨hstream, by simp, by simp⟩

theorem inv_stopPressed (h : Inv ref d) (hs : step d .stopPressed = some d') : Inv ref d' := by
  obtain ⟨vc, hvc, hs⟩ := onScreen_eq_some.mp hs
  have hok := h.presented vc hvc
  rw [handleStopButton_of_target (hok.host ▸ h.host)] at hs
  obtain rfl := Option.some.inj hs
  have hretract := retract_of_isSome h.doc
  refine ⟨h.host, ?_, ?_, by simp⟩
  · simpa [Device.settled, Write.apply] using hretract.1
  · rintro vc' hvc'
    obtain rfl := Screen.presented.inj hvc'
    refine ⟨hok.host, fun _ => rfl, by simp, fun _ => ?_⟩
    simpa [Device.settled, Write.apply] using hretract.2

theorem inv_viewWillAppear (h : Inv ref d) (hs : step d .viewWillAppear = some d') : Inv ref d' := by
  obtain ⟨vc, hvc, hs⟩ := onScreen_eq_some.mp hs
  obtain rfl := Option.some.inj hs
  have hok := h.presented vc hvc
  refine h.present ⟨hok.host, ?_, ?_, ?_⟩
  · intro hd
    simp [hok.dismissing hd]
  · intro s hsession
    obtain ⟨s', hs', rfl⟩ := by simpa using hsession
    exact hok.held s' hs'
  · intro hnone
    exact hok.dropped (by simpa using hnone)

theorem inv_report {sid : Nat} {state : LFLiveState} (hC : KeepsEntry d (.report sid state))
    (h : Inv ref d) (hs : step d (.report sid state) = some d') : Inv ref d' := by
  obtain ⟨vc, hvc, hs⟩ := onScreen_eq_some.mp hs
  obtain rfl := Option.some.inj hs
  have hok := h.presented vc hvc
  by_cases hheld : vc.muxLive.liveSession = some sid
  · obtain ⟨hstop, herror⟩ := hC vc hvc hheld
    have hsession := vc.muxLive.session_report sid state
    rw [if_pos hheld] at hsession
    refine h.present ⟨hok.host, fun hd => by simp [hsession, hok.dismissing hd], ?_, ?_⟩
    · intro s hs
      obtain ⟨s', hs', rfl⟩ := Option.map_eq_some_iff.mp (hsession ▸ hs)
      exact ⟨(hok.held s' hs').1, hstop, herror⟩
    · intro hnone
      exact hok.dropped (by simpa [hsession] using hnone)
  · have hsession : (vc.muxLive.report sid state).1.session = vc.muxLive.session := by
      rw [vc.muxLive.session_report, if_neg hheld]
    exact h.present ⟨hok.host, fun hd => hsession.trans (hok.dismissing hd),
      fun s hs => hok.held s (hsession ▸ hs), fun hnone => hok.dropped (hsession ▸ hnone)⟩

theorem inv_writeApplied (h : Inv ref d) (hs : step d .writeApplied = some d') : Inv ref d' := by
  cases hw : d.writes with
  | nil => simp [step, hw] at hs
  | cons w rest =>
    obtain rfl : { d with db := w.apply d.db, writes := rest } = d' := by
      simpa [step, hw] using hs
    have hsettled : ({ d with db := w.apply d.db, writes := rest } : Device).settled =
        d.settled := by
      simp [Device.settled, hw]
    exact ⟨h.host, hsettled ▸ h.doc, hsettled ▸ h.presented, hsettled ▸ h.dismissed⟩

theorem inv_step {a : Action} (hC : KeepsEntry d a) (h : Inv ref d) (hs : step d a = some d') :
    Inv ref d' := by
  cases a with
  | goLive playback => exact inv_goLive h hs
  | stopPressed => exact inv_stopPressed h hs
  | viewWillAppear => exact inv_viewWillAppear h hs
  | viewWillDisappear =>
    obtain ⟨vc, hvc, hs⟩ := onScreen_eq_some.mp hs
    obtain rfl := Option.some.inj hs
    have hok := h.presented vc hvc
    exact h.present ⟨hok.host, fun _ => rfl, by simp, fun _ => hok.dropped (hC vc hvc)⟩
  | report sid state => exact inv_report hC h hs
  | dismissed =>
    obtain ⟨vc, hvc, hs⟩ := onScreen_eq_some.mp hs
    obtain ⟨hd, rfl⟩ : vc.dismissing = true ∧ _ = d' := by simpa using hs
    have hok := h.presented vc hvc
    exact ⟨h.host, h.doc, by simp, fun _ => hok.dropped (hok.dismissing hd)⟩
  | writeApplied => exact inv_writeApplied h hs

/-- A screen related to the entry shows whether the broadcast goes on. -/
theorem ScreenOk.follows {stream : Prop} {host : Option Host} {vc : MuxViewController}
    (h : ScreenOk stream host vc) :
    (Ended (.presented vc) → ¬ stream) ∧ (GoesOn (.presented vc) → stream) := by
  cases hs : vc.muxLive.session with
  | none => simp [GoesOn, hs, h.dropped hs]
  | some s =>
    obtain ⟨hstream, hstop, herror⟩ := h.held s hs
    refine ⟨fun hended => ?_, fun _ => hstream⟩
    rcases hended with hnone | hfailed | hstopped
    · simp [hs] at hnone
    · cases hstate : s.state <;> simp_all [MuxLive.liveState, MuxLiveState.ofLFLiveState]
    · cases hstate : s.state <;> simp_all [MuxLive.liveState, MuxLiveState.ofLFLiveState]

/-- **The entry follows the broadcast.** In every run whose steps all keep the entry. -/
theorem stream_follows_broadcast {d₀ : Device} {t : List Action} (h₀ : LoggedIn ref d₀)
    (hC : Runs.Along step KeepsEntry d₀ t) (h : Runs.run step d₀ t = some d) : Follows ref d := by
  have hinv := Runs.invariant_along (fun _ _ _ => inv_step) hC (inv_init h₀) h
  intro hw
  have hsettled : d.settled = d.db := by simp [Device.settled, hw]
  cases hscreen : d.screen with
  | home => simp [Ended, GoesOn]
  | presented vc => exact hsettled ▸ (hinv.presented vc hscreen).follows
  | dismissed => simpa [Ended, GoesOn, hsettled] using hinv.dismissed hscreen

/-! ## A device for the concrete runs -/

/-- The device of the logged-in host of `djStore`. -/
def djDevice : Device where
  host := some { username := some "dj" }
  db := djStore

theorem djDevice_loggedIn : LoggedIn djReference djDevice := ⟨by decide, by decide, rfl, rfl⟩

/-- Going live and stopping with the button, with every write applied. -/
def stoppedBroadcast : List Action :=
  [.goLive ⟨"id", "public", "key"⟩, .viewWillAppear, .report 0 .start, .writeApplied,
    .stopPressed, .viewWillDisappear, .writeApplied]

theorem stoppedBroadcast_keepsEntry : Runs.Along step KeepsEntry djDevice stoppedBroadcast := by
  refine Runs.along_cons trivial rfl (Runs.along_cons trivial rfl (Runs.along_cons ?_ rfl
    (Runs.along_cons trivial rfl (Runs.along_cons trivial rfl (Runs.along_cons ?_ rfl
      (Runs.along_cons trivial rfl trivial))))))
  · exact fun _ _ _ => by decide
  · intro vc hvc
    rw [← Screen.presented.inj hvc]
    rfl

theorem stream_follows_stoppedBroadcast :
    ∃ d, Runs.run step djDevice stoppedBroadcast = some d ∧ Follows djReference d :=
  ⟨_, rfl, stream_follows_broadcast djDevice_loggedIn stoppedBroadcast_keepsEntry rfl⟩

/-- Going live, and the broadcast view disappearing without the button. -/
def abandonedBroadcast : List Action :=
  [.goLive ⟨"id", "public", "key"⟩, .viewWillAppear, .writeApplied, .viewWillDisappear]

/-- The entry of an abandoned broadcast stays. -/
theorem abandoned_broadcast_stays_published :
    ¬ ∀ (ref : DocumentReference) (d₀ d : Device) (t : List Action), LoggedIn ref d₀ →
      Runs.run step d₀ t = some d → Follows ref d := by
  intro h
  obtain ⟨hended, -⟩ := h djReference djDevice _ abandonedBroadcast djDevice_loggedIn rfl rfl
  exact hended (.inl rfl) rfl

end WaxxyLive.Broadcast
