import WaxxyLive.HostsCollection
import WaxxyLive.LoginOrder

/-!
# Sessions opened by registration and by login

The writers and the readers of a profile do not agree. A listener's profile is
written to `listeners` and looked up in `guests`, and its tab bar is asked for
under an identifier that is not in the storyboard. A host's registration hands
its tab bar no `Host`, and a listener's login hands its tab bar no `guestInfo`.
-/

namespace WaxxyLive.Sessions

open Firestore CoreData Registration Streaming TabBars Login Clients

/-! ## A listener's login -/

/-- Pressing login with the profile's account and the query answered first finds its document,
fills the `Listener` with it and presents the listener's tab bar. -/
def LogsIn (db : Database) (p : Press) (c : Container) (profile : Profile) (username : String)
    (genreTags : List String) : Prop :=
  (∃ id, query db p = [⟨id, profile.docData⟩]) ∧
    ∃ s, Runs.run (Login.step mainStoryboard (acceptedOn db p)) (didPressBaseLoginButton p c)
        [.query, .signIn, .mainQueue] = some s ∧
      s.trapped = false ∧
      ∃ tab listener, s.presented = some (.listeners tab) ∧ tab.listener = some listener ∧
        listener.username = some username ∧ listener.email = some profile.email ∧
        listener.topGenres = some genreTags

/-- No document below `guests` is ever written. -/
theorem guests_lookup {t : List Action} {w : World} (h : Runs.run Clients.step {} t = some w)
    (id : String) : (w.db.collection ["guests"]).lookup id = none := by
  have hget : w.db.get ⟨["guests"], id⟩ = none := by
    by_contra hne
    obtain ⟨data, hdata⟩ := Option.ne_none_iff_exists'.mp hne
    obtain ⟨e, he, -⟩ := (refines_run h).entry_of_doc hdata
    have href : document e.profile.entry.role.collection e.profile.entry.username = _ :=
      (refines_run h).placed _ _ he
    cases hrole : e.profile.entry.role with
    | host | listener =>
      rw [hrole] at href
      have hhead := document_parent_head href
      simp at hhead
  exact hget

theorem query_listener {t : List Action} {w : World} (h : Runs.run Clients.step {} t = some w)
    {p : Press} (hp : p.isHost = false) : query w.db p = [] := by
  rw [query, queriedCollection, if_neg (by simp [hp]), List.eq_nil_iff_forall_not_mem]
  rintro ⟨id, data⟩ hd
  have hlookup := (Collection.mem_whereField.mp hd).1
  rw [guests_lookup h] at hlookup
  cases hlookup

/-- Nothing waits to be presented for a listener, and nothing has been. -/
structure NothingToPresent (s : State) : Prop where
  isHost : s.isHost = false
  block : s.blockScheduled = false
  presented : s.presented = none

theorem listenerTabBar_not_instantiated :
    mainStoryboard.instantiates (tabBarScene false).1 (tabBarScene false).2 = false := by
  decide

theorem nothingToPresent_step {o : Outcomes} {s s' : State} {e : Event} (h : NothingToPresent s)
    (hs : Login.step mainStoryboard o s e = some s') : NothingToPresent s' := by
  obtain ⟨hi, hb, hp⟩ := h
  cases e with
  | query =>
    obtain ⟨-, rfl⟩ := step_query.mp hs
    unfold queryCompletion
    split <;> exact ⟨hi, hb, hp⟩
  | signIn =>
    obtain ⟨-, rfl⟩ := step_signIn.mp hs
    rw [signInCompletion, hi, listenerTabBar_not_instantiated]
    simp only [Bool.false_eq_true, if_false]
    split <;> exact ⟨rfl, hb, hp⟩
  | mainQueue =>
    obtain ⟨⟨-, hblock⟩, -⟩ := step_mainQueue.mp hs
    simp [hb] at hblock

/-- Whatever the order of the callbacks, a listener's login presents nothing. -/
theorem listener_login_presents_nothing {o : Outcomes} {p : Press} {c : Container}
    (hp : p.isHost = false) {t : List Event} {s : State}
    (h : Runs.run (Login.step mainStoryboard o) (didPressBaseLoginButton p c) t = some s) :
    s.presented = none := by
  have hinit : NothingToPresent (didPressBaseLoginButton p c) := by
    rw [didPressBaseLoginButton, if_neg (by simp [hp])]
    exact ⟨rfl, rfl, rfl⟩
  exact (Runs.invariant (fun _ _ _ => nothingToPresent_step) hinit h).presented

/-- **Listener login.** However a listener's registration completed, and whatever was registered
since, the login with its account never gets to the listener's tab bar. -/
theorem listener_cannot_log_in {t : List Action} {w : World}
    (h : Runs.run Clients.step {} t = some w) :
    ∀ r ∈ registrations t, ∀ username genreTags,
      r.profile.entry = .listener username genreTags →
      ∀ p : Press, p.isHost = false → p.emailText = r.profile.email →
        ∀ c, ¬ LogsIn w.db p c r.profile username genreTags := by
  rintro r - username genreTags - p hp - c ⟨⟨id, hq⟩, -⟩
  rw [query_listener h hp] at hq
  cases hq

/-! ## A listener for the concrete runs -/

def fanProfile : Profile := ⟨"fan@waxxy.live", .listener "fan" ["House", "Techno"]⟩

def fanReference : DocumentReference := ⟨["listeners"], "fan"⟩

def fanPress : Press := ⟨0, "fan@waxxy.live", "secret"⟩

def fanWorld : World where
  accounts := (∅ : Accounts).insert "fan@waxxy.live" "secret"
  db := Database.setData ∅ fanReference fanProfile.docData

theorem run_fanProfile :
    Runs.run Clients.step {} (register "secret" fanProfile fanReference) = some fanWorld := rfl

theorem listener_cannot_log_in_fanPress :
    ¬ LogsIn fanWorld.db fanPress {} fanProfile "fan" ["House", "Techno"] :=
  listener_cannot_log_in run_fanProfile ⟨fanReference, fanProfile⟩
    (by simp [register, registrations]) "fan" ["House", "Techno"] rfl fanPress rfl rfl {}

theorem registered_listener_not_found :
    ¬ ∀ (t : List Action) (w : World), Runs.run Clients.step {} t = some w →
      ∀ r ∈ registrations t, ∀ username genreTags,
        r.profile.entry = .listener username genreTags →
        ∀ p : Press, p.isHost = false → p.emailText = r.profile.email →
          ∀ c, LogsIn w.db p c r.profile username genreTags := by
  intro h
  obtain ⟨⟨id, hq⟩, -⟩ := h _ _ run_fanProfile ⟨fanReference, fanProfile⟩
    (by simp [register, registrations]) "fan" ["House", "Techno"] rfl fanPress rfl rfl {}
  rw [query_listener run_fanProfile rfl] at hq
  cases hq

/-! ## Registration against login -/

/-- The host is the profile's. -/
def HoldsHost (email : String) (texts : HostTexts) (host : Option Host) : Prop :=
  ∃ h, host = some h ∧ h.username = some texts.username ∧ h.region = some texts.region ∧
    h.hostType = some texts.hostType ∧ h.email = some email ∧
    h.topGenres = some (Separated.components ',' texts.topGenres)

/-- The screens of the session show the profile's data: every tab of a host holds it and streams
under its username, and the settings screen of a listener shows it. -/
def ShowsProfile (p : Profile) : TabBarController → Prop
  | .host tab => ∃ texts, p.entry = .host texts ∧ HoldsHost p.email texts tab.host ∧
      (∀ t ∈ tab.viewWillAppear.all, HoldsHost p.email texts t.host) ∧
      createStreamTarget tab.viewWillAppear.streamTab.host = some texts.username
  | .listeners tab => ∃ username genreTags, p.entry = .listener username genreTags ∧
      ListenerSettingsViewController.viewDidLoad tab.viewDidLoad.settingsTab.guestInfo =
        some ⟨username, genreTags⟩

/-- Registration opens a session, the login presented one, and both show the profile. -/
def SameSessions (sb : Storyboard) (profile : Profile) (s : State) : Prop :=
  ∃ registered loggedIn, registrationSession sb profile = some registered ∧
    s.presented = some loggedIn ∧ ShowsProfile profile registered ∧ ShowsProfile profile loggedIn

theorem registrationSession_host {sb : Storyboard} {p : Profile} {texts : HostTexts}
    {tab : TabBarController} (hp : p.entry = .host texts)
    (h : registrationSession sb p = some tab) : tab = .host {} := by
  simp only [registrationSession, hp, Option.ite_none_right_eq_some, Option.some.injEq] at h
  exact h.2.symm

/-- The session a listener's registration opens shows the profile. -/
theorem showsProfile_registered_listener {sb : Storyboard} {p : Profile} {username : String}
    {genreTags : List String} {tab : TabBarController} (hp : p.entry = .listener username genreTags)
    (h : registrationSession sb p = some tab) : ShowsProfile p tab := by
  simp only [registrationSession, hp, Option.ite_none_right_eq_some, Option.some.injEq] at h
  obtain ⟨-, rfl⟩ := h
  refine ⟨username, genreTags, hp, ?_⟩
  simp [ListenersTabBarController.viewDidLoad, ListenerSettingsViewController.viewDidLoad,
    Profile.docData, hp, ListenerRegistrationViewController.docData, Document.string?,
    Document.strings?]

/-- The session of a host's login whose query was answered in time shows the profile. -/
theorem showsProfile_loggedIn_host {profile : Profile} {texts : HostTexts} {p : Press}
    {data : Document} (hentry : profile.entry = .host texts) (hp : p.isHost = true)
    (hd : hostInfo? data = some (hostInfo profile.email texts)) :
    ShowsProfile profile (handedOver p data true) := by
  rw [handedOver, if_pos hp]
  have hholds : HoldsHost profile.email texts (some (fillHost data {})) :=
    ⟨_, rfl, by simp [fillHost, hd, Host.fill, hostInfo]⟩
  refine ⟨texts, hentry, hholds, ?_, ?_⟩
  · simpa [HostTabBarController.viewWillAppear, HostTabs.all] using hholds
  · simp [HostTabBarController.viewWillAppear, createStreamTarget, fillHost, hd, Host.fill, hostInfo]

theorem presented_handedOver {sb : Storyboard} {o : Outcomes} {p : Press} {c : Container}
    {data : Document} {rest : List Document} {t : List Event} {s : State} {tab : TabBarController}
    (ho : o.query = .documents (data :: rest))
    (h : Runs.run (Login.step sb o) (didPressBaseLoginButton p c) t = some s)
    (htab : s.presented = some tab) : ∃ filled, tab = handedOver p data filled := by
  have hp := (progress_run ho h).presented
  rw [htab] at hp
  split_ifs at hp
  exact ⟨_, Option.some.inj hp⟩

/-- **Sessions.** For every account of either role, whatever the storyboard, the document and the
order of the login's callbacks, the two sessions do not show the same profile. -/
theorem sessions_differ {sb : Storyboard} {profile : Profile} {o : Outcomes} {p : Press}
    {c : Container} {data : Document} {rest : List Document} {t : List Event} {s : State}
    (hrole : p.isHost = (profile.entry.role == .host)) (ho : o.query = .documents (data :: rest))
    (h : Runs.run (Login.step sb o) (didPressBaseLoginButton p c) t = some s) :
    ¬ SameSessions sb profile s := by
  rintro ⟨registered, loggedIn, hreg, hpres, hshowsReg, hshowsLog⟩
  cases hentry : profile.entry with
  | host texts =>
    -- registration presents the tab bar as instantiated, without a host
    obtain rfl := registrationSession_host hentry hreg
    obtain ⟨texts', -, ⟨host, hhost, -⟩, -⟩ := hshowsReg
    cases hhost
  | listener username genreTags =>
    -- login hands over the listener only, so the settings screen casts an absent username
    obtain ⟨filled, rfl⟩ := presented_handedOver ho h hpres
    have hp : p.isHost = false := by
      rw [hrole, hentry]
      rfl
    rw [handedOver, if_neg (by simp [hp])] at hshowsLog
    obtain ⟨username', genreTags', -, hload⟩ := hshowsLog
    cases hload

/-- The document of `djProfile` found, and the password accepted. -/
def djOutcomes : Outcomes := ⟨.documents [djProfile.docData], true⟩

theorem sessions_differ_djProfile :
    ¬ SameSessions mainStoryboard djProfile
      { coreData := ({} : Container).insertHost.1.modifyHost 0 (fillHost djProfile.docData)
        isHost := true, host := some 0, listener := none, queryOutstanding := false
        signInOutstanding := false
        presented := some (handedOver djPress djProfile.docData true) } :=
  sessions_differ (show djPress.isHost = (djProfile.entry.role == .host) from rfl)
    (show djOutcomes.query = _ from rfl)
    (show Runs.run (Login.step mainStoryboard djOutcomes) (didPressBaseLoginButton djPress {})
      [.query, .signIn, .mainQueue] = some _ from rfl)

theorem registered_host_without_profile :
    ¬ ∀ (profile : Profile) (p : Press) (c : Container) (s : State),
      p.isHost = (profile.entry.role == .host) →
      Runs.run (Login.step mainStoryboard ⟨.documents [profile.docData], true⟩)
        (didPressBaseLoginButton p c) [.query, .signIn, .mainQueue] = some s →
      SameSessions mainStoryboard profile s := by
  intro h
  obtain ⟨registered, -, hreg, -, hshows, -⟩ := h djProfile djPress {} _ rfl rfl
  obtain rfl := registrationSession_host rfl hreg
  obtain ⟨texts, -, ⟨host, hhost, -⟩, -⟩ := hshows
  cases hhost

end WaxxyLive.Sessions
