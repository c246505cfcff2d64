import WaxxyLive.Registration
import WaxxyLive.Streaming

/-!
# Storyboard scenes and the two tab bar controllers

A session is the tab bar controller that login or registration presents. The
host's hands `host` to its five tabs in `viewWillAppear`; the listener's hands
`guestInfo` and `listener` to its three tabs in `viewDidLoad`.
-/

namespace WaxxyLive.TabBars

open Firestore CoreData

/-! ## Main.storyboard -/

/-- The custom classes of the scenes. -/
inductive ControllerClass where
  | loginViewController
  | commonRegistrationViewController
  | hostRegistrationViewController
  | listenerRegistrationViewController
  | hostTabBarController
  | listenersTabBarController
  | mainListenerTabBarController
  | homeViewController
  | hostBrowseViewController
  | hostProfileViewController
  | hostSideProfileViewController
  | hostStreamingViewController
  | muxViewController
  | schedulingViewController
  | listenerSettingsViewController
  deriving DecidableEq, Repr

abbrev Storyboard := List (String × ControllerClass)

/-- The storyboard identifiers of `Main.storyboard` with the class of their scene. -/
def mainStoryboard : Storyboard :=
  [("LoginViewController", .loginViewController),
    ("HostTabBarController", .hostTabBarController),
    ("HostProfileViewController", .hostProfileViewController),
    ("ListenersTabBarController", .listenersTabBarController),
    ("ListenerSettingsViewController", .listenerSettingsViewController),
    ("CommonRegistrationViewController", .commonRegistrationViewController),
    ("ListenerRegistrationViewController", .listenerRegistrationViewController),
    ("HostRegistrationViewController", .hostRegistrationViewController),
    ("MuxViewController", .muxViewController),
    ("HostStreamingViewController", .hostStreamingViewController),
    ("SchedulingViewController", .schedulingViewController),
    ("HostBrowseViewController", .hostBrowseViewController),
    ("MainListenerTabBarController", .mainListenerTabBarController),
    ("hostTabBar", .hostTabBarController),
    ("HomeViewController", .homeViewController),
    ("HostSideProfileViewController", .hostSideProfileViewController)]

/-- `sb.instantiateViewController(withIdentifier:) as! C`: an unknown
identifier raises, and a scene of another class fails the cast. -/
def Storyboard.instantiates (sb : Storyboard) (identifier : String) (c : ControllerClass) : Bool :=
  sb.lookup identifier = some c

/-! ## The host's tab bar -/

structure HostTabBarController where
  djInfo : Document := ∅
  host : Option Host := none

/-- What each tab of the host is handed. -/
structure HostTab where
  djInfo : Document
  host : Option Host

structure HostTabs where
  homeTab : HostTab
  hostBrowse : HostTab
  streamTab : HostTab
  profileTab : HostTab
  scheduleTab : HostTab

def HostTabBarController.viewWillAppear (c : HostTabBarController) : HostTabs where
  homeTab := ⟨c.djInfo, c.host⟩
  hostBrowse := ⟨c.djInfo, c.host⟩
  streamTab := ⟨c.djInfo, c.host⟩
  profileTab := ⟨c.djInfo, c.host⟩
  scheduleTab := ⟨c.djInfo, c.host⟩

def HostTabs.all (tabs : HostTabs) : List HostTab :=
  [tabs.homeTab, tabs.hostBrowse, tabs.streamTab, tabs.profileTab, tabs.scheduleTab]

/-- `HostSideProfileViewController.viewWillAppear`: the genre list after it, which is left
alone without a host; `none` is the trap of `hostInfo.topGenres!`. -/
def HostSideProfileViewController.viewWillAppear (host : Option Host) (genreTags : List String) :
    Option (List String) :=
  match host with
  | none => some genreTags
  | some hostInfo => hostInfo.topGenres

/-! ## The listener's tab bar -/

structure ListenersTabBarController where
  guestInfo : Document := ∅
  listener : Option Listener := none

structure ListenerTab where
  guestInfo : Document
  listener : Option Listener

structure ListenerTabs where
  homeTab : ListenerTab
  browseTab : ListenerTab
  settingsTab : ListenerTab

def ListenersTabBarController.viewDidLoad (c : ListenersTabBarController) : ListenerTabs where
  homeTab := ⟨c.guestInfo, c.listener⟩
  browseTab := ⟨c.guestInfo, c.listener⟩
  settingsTab := ⟨c.guestInfo, c.listener⟩

/-- What `ListenerSettingsViewController` shows. -/
structure Settings where
  usernameLabel : String
  genreTags : List String
  deriving DecidableEq, Repr

/-- `ListenerSettingsViewController.viewDidLoad`; `none` is the trap of one of its
two forced casts. -/
def ListenerSettingsViewController.viewDidLoad (guestInfo : Document) : Option Settings := do
  let usernameLabel ← guestInfo.string? "username"
  let genreTags ← guestInfo.strings? "topGenres"
  return { usernameLabel, genreTags }

inductive TabBarController where
  | host (c : HostTabBarController)
  | listeners (c : ListenersTabBarController)

/-! ## The session registration opens -/

/-- The presentation in the completion of the profile write: the host's tab
bar is presented as instantiated, the listener's is handed the document. -/
def registrationSession (sb : Storyboard) (p : Registration.Profile) : Option TabBarController :=
  match p.entry with
  | .host _ => if (sb.lookup "hostTabBar").isSome then some (.host {}) else none
  | .listener _ _ =>
    if sb.instantiates "ListenersTabBarController" .listenersTabBarController then
      some (.listeners { guestInfo := p.docData })
    else none

end WaxxyLive.TabBars
