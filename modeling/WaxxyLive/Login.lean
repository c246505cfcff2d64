import WaxxyLive.TabBars

/-!
# Login

`LoginViewController.didPressBaseLoginButton` inserts an object into the view
context, starts the Firestore query that fills it and, side by side, the Auth
sign-in; the sign-in completion instantiates the tab bar controller and
schedules a main-queue block that hands the object over and presents it. The
three callbacks run in any order the two requests allow.
-/

namespace WaxxyLive.Login

open Firestore CoreData TabBars

/-- What a press of the login button reads off the screen. -/
structure Press where
  selectedSegmentIndex : Nat
  emailText : String
  passwordText : String

def Press.isHost (p : Press) : Bool := p.selectedSegmentIndex == 1

/-- What `getDocuments` hands to its completion. -/
inductive QueryResult where
  | error
  | documents (docs : List Document)

/-- How the two requests of one press end. -/
structure Outcomes where
  query : QueryResult
  accepted : Bool

/-- A login attempt. `host` and `listener` are the captured variables: places in the view
context. `blockScheduled` is the main-queue block waiting to present. -/
structure State where
  coreData : Container
  isHost : Bool
  host : Option Nat
  listener : Option Nat
  queryOutstanding : Bool := true
  signInOutstanding : Bool := true
  blockScheduled : Bool := false
  trapped : Bool := false
  presented : Option TabBarController := none

def didPressBaseLoginButton (p : Press) (c : Container) : State :=
  if p.isHost then
    { coreData := c.insertHost.1, isHost := true, host := some c.insertHost.2, listener := none }
  else
    { coreData := c.insertListener.1, isHost := false, host := none,
      listener := some c.insertListener.2 }

/-- The collection the query of a role reads. -/
def queriedCollection (isHost : Bool) : List String := if isHost then ["hosts"] else ["guests"]

/-- `whereField("email", isEqualTo: emailTextField.text!)` -/
def query (db : Database) (p : Press) : List ((_ : String) × Document) :=
  (db.collection (queriedCollection p.isHost)).whereField "email" p.emailText

/-! ## The callbacks -/

def fillHost (hostInfo : Document) (host : Host) : Host :=
  match hostInfo? hostInfo with
  | some info => host.fill info
  | none => host

def fillListener (listenerInfo : Document) (listener : Listener) : Listener :=
  match listenerInfo? listenerInfo with
  | some info => listener.fill info
  | none => listener

/-- Write the document into the object the press inserted. -/
def State.fill (s : State) (data : Document) : Container :=
  match s.host, s.listener with
  | some ref, _ => s.coreData.modifyHost ref (fillHost data)
  | none, some ref => s.coreData.modifyListener ref (fillListener data)
  | none, none => s.coreData

/-- The query completion; `querySnap!.documents.first!` traps on an empty result. -/
def queryCompletion (r : QueryResult) (s : State) : State :=
  match r with
  | .error => { s with queryOutstanding := false }
  | .documents [] => { s with queryOutstanding := false, trapped := true }
  | .documents (data :: _) => { s with queryOutstanding := false, coreData := s.fill data }

/-- The identifier and class `signIn` instantiates for a role. -/
def tabBarScene (isHost : Bool) : String × ControllerClass :=
  if isHost then ("hostTabBar", .hostTabBarController)
  else ("listenerTabBar", .listenersTabBarController)

/-- The sign-in completion. -/
def signInCompletion (sb : Storyboard) (accepted : Bool) (s : State) : State :=
  if accepted then
    if sb.instantiates (tabBarScene s.isHost).1 (tabBarScene s.isHost).2 then
      { s with signInOutstanding := false, blockScheduled := true }
    else { s with signInOutstanding := false, trapped := true }
  else { s with signInOutstanding := false }

/-- The controller the main-queue block presents, with the object as it is at that moment. -/
def State.tabBar (s : State) : TabBarController :=
  if s.isHost then .host { host := s.host.bind fun ref => s.coreData.viewContext.hosts[ref]? }
  else .listeners
    { listener := s.listener.bind fun ref => s.coreData.viewContext.listeners[ref]? }

inductive Event where
  | query
  | signIn
  | mainQueue
  deriving DecidableEq, Repr

/-- Run one callback that is due; a trap ends the attempt. -/
def step (sb : Storyboard) (o : Outcomes) (s : State) : Event → Option State
  | .query =>
    if s.trapped = false ∧ s.queryOutstanding then some (queryCompletion o.query s) else none
  | .signIn =>
    if s.trapped = false ∧ s.signInOutstanding then some (signInCompletion sb o.accepted s)
    else none
  | .mainQueue =>
    if s.trapped = false ∧ s.blockScheduled then
      some { s with blockScheduled := false, presented := some s.tabBar }
    else none

/-! ## What each callback does -/

section Inversion

variable {sb : Storyboard} {o : Outcomes} {s s' : State}

theorem step_query : step sb o s .query = some s' ↔
    (s.trapped = false ∧ s.queryOutstanding) ∧ s' = queryCompletion o.query s := by
  simp [step, @eq_comm _ s']

theorem step_signIn : step sb o s .signIn = some s' ↔
    (s.trapped = false ∧ s.signInOutstanding) ∧ s' = signInCompletion sb o.accepted s := by
  simp [step, @eq_comm _ s']

theorem step_mainQueue : step sb o s .mainQueue = some s' ↔
    (s.trapped = false ∧ s.blockScheduled) ∧
      s' = { s with blockScheduled := false, presented := some s.tabBar } := by
  simp [step, @eq_comm _ s']

variable (sb s)

/-- The sign-in completion leaves the object and what is presented alone. -/
theorem signInCompletion_tabBar (accepted : Bool) :
    (signInCompletion sb accepted s).tabBar = s.tabBar ∧
      (signInCompletion sb accepted s).presented = s.presented := by
  unfold signInCompletion
  split_ifs <;> exact ⟨rfl, rfl⟩

theorem signInCompletion_queryOutstanding (accepted : Bool) :
    (signInCompletion sb accepted s).queryOutstanding = s.queryOutstanding := by
  unfold signInCompletion
  split_ifs <;> rfl

end Inversion

end WaxxyLive.Login
