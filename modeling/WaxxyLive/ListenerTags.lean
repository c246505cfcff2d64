import WaxxyLive.Lib.Runs
import WaxxyLive.TabBars
import WaxxyLive.TagsField

/-!
# A listener's genres from registration to the settings screen

The registration screen is edited while `Finish` waits for Auth and Firestore;
each completed registration opens the settings screen on the document it
wrote, which is edited in turn. `inStep_run`: on every screen of every run the
genre list is what its tag field shows.
-/

namespace WaxxyLive.Tags

open Firestore Registration TabBars FirstSeen

section System

variable (same : String → String → Bool) (email : String)

/-- `ListenerRegistrationViewController.viewDidLoad`: the field starts empty. -/
def ListenerRegistrationViewController.viewDidLoad : TagsScreen :=
  ({} : TagsScreen).textFieldEvents

/-- `setupTagTextField` of the settings screens: the field is filled before `textFieldEvents`. -/
def setupTagTextField (s : TagsScreen) : TagsScreen := (s.addTags same s.genreTags).textFieldEvents

/-- The settings screen with its genre list and tag field; `none` is a failed cast. -/
def ListenerSettingsViewController.viewDidLoad (guestInfo : Document) : Option TagsScreen :=
  (TabBars.ListenerSettingsViewController.viewDidLoad guestInfo).map fun settings =>
    setupTagTextField same { genreTags := settings.genreTags }

/-- The settings tab of the tab bar that a completed registration presents. -/
def settingsTab (p : Profile) : Option TagsScreen :=
  match registrationSession mainStoryboard p with
  | some (.listeners c) =>
    ListenerSettingsViewController.viewDidLoad same c.viewDidLoad.settingsTab.guestInfo
  | _ => none

/-- The registration screen, its `createUser` calls in flight, the profiles whose `setData` is in
flight, and the settings screens opened. -/
structure Screens where
  registration : TagsScreen
  creating : Nat := 0
  writing : List Profile := []
  settings : List TagsScreen := []

def Screens.all (s : Screens) : List TagsScreen := s.registration :: s.settings

def start : Screens := { registration := ListenerRegistrationViewController.viewDidLoad }

inductive Action where
  | registration (e : TagEvent)
  | finishPressed
  | createUserCompleted (succeeded : Bool) (username : String)
  | setDataCompleted (succeeded : Bool) (i : Nat)
  | settings (i : Nat) (e : TagEvent)

/-- One event; `none` when it is not due, or on a trap. -/
def step (s : Screens) : Action → Option Screens
  | .registration e => (s.registration.event same e).map fun r => { s with registration := r }
  | .finishPressed => some { s with creating := s.creating + 1 }
  | .createUserCompleted succeeded username =>
    if s.creating = 0 then none
    else if succeeded then
      let p : Profile := ⟨email, .listener username s.registration.genreTags⟩
      p.reference.map fun _ => { s with creating := s.creating - 1, writing := s.writing ++ [p] }
    else some { s with creating := s.creating - 1 }
  | .setDataCompleted succeeded i =>
    s.writing[i]?.bind fun p =>
      if succeeded then (settingsTab same p).map fun r =>
        { s with writing := s.writing.eraseIdx i, settings := s.settings ++ [r] }
      else some { s with writing := s.writing.eraseIdx i }
  | .settings i e =>
    s.settings[i]?.bind fun r =>
      (r.event same e).map fun r' => { s with settings := s.settings.set i r' }

end System

/-! ## Opening the settings screen -/

variable {same : String → String → Bool}

theorem settings_of_docData (email username : String) (genreTags : List String) :
    TabBars.ListenerSettingsViewController.viewDidLoad
        (Registration.ListenerRegistrationViewController.docData email username genreTags) =
      some ⟨username, genreTags⟩ := by
  simp [TabBars.ListenerSettingsViewController.viewDidLoad,
    Registration.ListenerRegistrationViewController.docData, Document.string?, Document.strings?]

/-- A registration's document opens the settings screen; a genre list without repetitions is
shown whole. -/
theorem settingsTab_of_distinct {p : Profile} {username : String} {genreTags : List String}
    (hp : p.entry = .listener username genreTags) (hd : Distinct same genreTags) :
    settingsTab same p = some ⟨genreTags, genreTags, true⟩ := by
  have hsession : registrationSession mainStoryboard p =
      some (.listeners { guestInfo := p.docData }) := by
    have hsb : mainStoryboard.instantiates "ListenersTabBarController" .listenersTabBarController :=
      by decide
    simp [registrationSession, hp, hsb]
  have hadd : addAll same [] genreTags = genreTags := addAll_of_distinct hd
  have hsetup : setupTagTextField same { genreTags } = ⟨genreTags, genreTags, true⟩ := by
    rw [setupTagTextField, addTags_of_no_handlers _ rfl]
    simp [TagsScreen.textFieldEvents, hadd]
  rw [settingsTab, hsession]
  simp only [ListenersTabBarController.viewDidLoad, ListenerSettingsViewController.viewDidLoad,
    Profile.docData, hp, settings_of_docData, Option.map_some, hsetup]

/-! ## Every run -/

variable (same) in
/-- Every screen is in step, and what is being written was a list in step. -/
structure Screens.InStep (s : Screens) : Prop where
  registration : s.registration.InStep same
  settings : ∀ r ∈ s.settings, r.InStep same
  writing : ∀ p ∈ s.writing, ∃ username genreTags,
    p.entry = .listener username genreTags ∧ Distinct same genreTags

theorem inStep_start : start.InStep same :=
  ⟨⟨rfl, rfl, List.Pairwise.nil⟩, by simp [start], by simp [start]⟩

theorem Screens.InStep.screens {s : Screens} (h : s.InStep same) :
    ∀ screen ∈ s.all, screen.InStep same := by
  intro screen hscreen
  rcases List.mem_cons.mp hscreen with rfl | hscreen
  · exact h.registration
  · exact h.settings screen hscreen

/-- The profile of an accepted `createUser` has the genre list of a screen in step. -/
theorem inStep_createUserCompleted {email username : String} {succeeded : Bool} {s s' : Screens}
    (h : s.InStep same) (hs : step same email s (.createUserCompleted succeeded username) = some s') :
    s'.InStep same := by
  simp only [step] at hs
  split_ifs at hs
  · rcases Option.map_eq_some_iff.mp hs with ⟨_, -, rfl⟩
    refine ⟨h.registration, h.settings, fun p hp => ?_⟩
    rcases List.mem_append.mp hp with hp | hp
    · exact h.writing p hp
    · have hdist : Distinct same s.registration.genreTags := by
        rw [h.registration.mirror]
        exact h.registration.distinct
      obtain rfl := List.mem_singleton.mp hp
      exact ⟨username, s.registration.genreTags, rfl, hdist⟩
  · cases hs
    exact ⟨h.registration, h.settings, h.writing⟩

/-- The settings screen a written profile opens is in step. -/
theorem inStep_setDataCompleted {email : String} {succeeded : Bool} {i : Nat} {s s' : Screens}
    (h : s.InStep same) (hs : step same email s (.setDataCompleted succeeded i) = some s') :
    s'.InStep same := by
  rcases Option.bind_eq_some_iff.mp hs with ⟨p, hp, hs⟩
  have hwriting : ∀ p ∈ s.writing.eraseIdx i, ∃ username genreTags,
      p.entry = .listener username genreTags ∧ Distinct same genreTags :=
    fun p hp => h.writing p (List.mem_of_mem_eraseIdx hp)
  split_ifs at hs
  · rcases Option.map_eq_some_iff.mp hs with ⟨r, hr, rfl⟩
    rcases h.writing p (List.mem_of_getElem? hp) with ⟨username, genreTags, hentry, hd⟩
    rw [settingsTab_of_distinct hentry hd] at hr
    have hopened : r.InStep same := by
      rw [← Option.some.inj hr]
      exact ⟨rfl, rfl, hd⟩
    refine ⟨h.registration, fun x hx => ?_, hwriting⟩
    rcases List.mem_append.mp hx with hx | hx
    · exact h.settings x hx
    · rwa [List.mem_singleton.mp hx]
  · cases hs
    exact ⟨h.registration, h.settings, hwriting⟩

variable (hsame : Equivalence fun a b => same a b = true)
include hsame

/-- An event on a screen in step leads to the screen it says, again in step. -/
theorem event_inStep_of_eq {r r' : TagsScreen} {e : TagEvent} (h : r.InStep same)
    (he : r.event same e = some r') : r'.InStep same := by
  rcases event_inStep hsame h e with ⟨r'', he', h'⟩
  rw [he] at he'
  exact Option.some.inj he' ▸ h'

theorem inStep_step {email : String} {s s' : Screens} {a : Action} (h : s.InStep same)
    (hs : step same email s a = some s') : s'.InStep same := by
  cases a with
  | registration e =>
    rcases Option.map_eq_some_iff.mp hs with ⟨r, he, rfl⟩
    exact ⟨event_inStep_of_eq hsame h.registration he, h.settings, h.writing⟩
  | finishPressed =>
    cases hs
    exact ⟨h.registration, h.settings, h.writing⟩
  | createUserCompleted succeeded username => exact inStep_createUserCompleted h hs
  | setDataCompleted succeeded i => exact inStep_setDataCompleted h hs
  | settings i e =>
    rcases Option.bind_eq_some_iff.mp hs with ⟨r, hr, hs⟩
    rcases Option.map_eq_some_iff.mp hs with ⟨r', he, rfl⟩
    refine ⟨h.registration, fun x hx => ?_, h.writing⟩
    rcases List.mem_or_eq_of_mem_set hx with hx | rfl
    · exact h.settings x hx
    · exact event_inStep_of_eq hsame (h.settings r (List.mem_of_getElem? hr)) he

theorem inStep_run {email : String} {t : List Action} {s : Screens}
    (h : Runs.run (step same email) start t = some s) : s.InStep same :=
  Runs.invariant (fun _ _ _ => inStep_step hsame) inStep_start h

omit hsame

variable (same) in
/-- What a listener sees of the genre lists. -/
structure GenreTagsMirror (s : Screens) : Prop where
  mirror : ∀ screen ∈ s.all, screen.genreTags = screen.tags
  distinct : ∀ screen ∈ s.all, Distinct same screen.genreTags
  events : ∀ screen ∈ s.all, ∀ e, (screen.event same e).isSome
  opens : ∀ p ∈ s.writing, ∃ username genreTags,
    p.entry = .listener username genreTags ∧ settingsTab same p = some ⟨genreTags, genreTags, true⟩

/-- **Listener genres.** In every state of every run, on the registration screen and on every
settings screen opened on what was registered, the genre list is what the tag field shows, has no
repetitions, and no edit traps. -/
theorem listener_genres_mirror (hsame : Equivalence fun a b => same a b = true) {email : String}
    {t : List Action} {s : Screens} (h : Runs.run (step same email) start t = some s) :
    GenreTagsMirror same s := by
  have hin := inStep_run hsame h
  constructor
  · exact fun screen hscreen => (hin.screens screen hscreen).mirror
  · intro screen hscreen
    rw [(hin.screens screen hscreen).mirror]
    exact (hin.screens screen hscreen).distinct
  · intro screen hscreen e
    rcases event_inStep hsame (hin.screens screen hscreen) e with ⟨s', he, -⟩
    simp [he]
  · intro p hp
    rcases hin.writing p hp with ⟨username, genreTags, hentry, hd⟩
    exact ⟨username, genreTags, hentry, settingsTab_of_distinct hentry hd⟩

/-! ## A listener for the concrete runs -/

theorem equivalence_beq : Equivalence fun a b : String => (a == b) = true := equivalence_key id

/-- Three genres, one of them twice, one deleted, and again on the settings screen. -/
def fanEdits : List Action :=
  [.registration (.submitted "House"), .registration (.submitted " Techno "),
    .registration (.submitted "House"), .registration (.submitted "Dub"),
    .registration (.deleted 0), .finishPressed, .createUserCompleted true "fan",
    .setDataCompleted true 0, .settings 0 (.submitted "Garage"), .settings 0 (.deleted 1)]

def fanScreens : Screens where
  registration := ⟨["Techno", "Dub"], ["Techno", "Dub"], true⟩
  settings := [⟨["Techno", "Garage"], ["Techno", "Garage"], true⟩]

theorem run_fanEdits :
    Runs.run (step (· == ·) "fan@waxxy.live") start fanEdits = some fanScreens := by
  rfl

theorem listener_genres_mirror_fanEdits : GenreTagsMirror (· == ·) fanScreens :=
  listener_genres_mirror equivalence_beq run_fanEdits

end WaxxyLive.Tags
