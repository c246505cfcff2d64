import WaxxyLive.Lib.Runs
import WaxxyLive.TabBars
import WaxxyLive.Emails

/-!
# The registration wizard

`CommonRegistrationViewController` asks for email, password, confirmation and
role; its Next button hands email and password to the finishing screen of the
role, whose Finish button asks Auth for the account. A run interleaves the
wizard of one device with everything else that happens at the two servers.
Finishing screens are numbered as they are opened: one that was left lives on
in the completion of its `createUser` call. The tab bar that covers a finishing
screen once its profile is written is left out, so it can still be pressed.
-/

namespace WaxxyLive.Wizard

open Firestore Registration TabBars Clients

/-! ## The common screen -/

/-- The segments of the segmented control, by their titles in `Main.storyboard`. -/
inductive Segment where
  | listenerSignUp
  | hostSignUp
  deriving DecidableEq, Repr

def Segment.index : Segment → Int
  | .listenerSignUp => 0
  | .hostSignUp => 1

def Segment.role : Segment → Role
  | .listenerSignUp => .listener
  | .hostSignUp => .host

/-- The texts of the three fields and the selected segment, as shown. -/
structure CommonRegistrationViewController where
  usernameTextField : String := ""
  passwordTextField : String := ""
  confirmPasswordTextField : String := ""
  segment : Segment := .listenerSignUp
  deriving DecidableEq, Repr

/-- What a `HostRegistrationViewController` or a `ListenerRegistrationViewController` is handed. -/
structure FinishingScreen where
  role : Role
  email : String
  password : String
  deriving DecidableEq, Repr

namespace CommonRegistrationViewController

def selectedSegmentIndex (c : CommonRegistrationViewController) : Int := c.segment.index

/-- `none` is the trap of the instantiation or its forced cast. -/
def presentListenerRegistration (sb : Storyboard) (emailText passwordText : String) :
    Option FinishingScreen :=
  if sb.instantiates "ListenerRegistrationViewController" .listenerRegistrationViewController then
    some { role := .listener, email := emailText, password := passwordText }
  else none

def presentHostRegistration (sb : Storyboard) (emailText passwordText : String) :
    Option FinishingScreen :=
  if sb.instantiates "HostRegistrationViewController" .hostRegistrationViewController then
    some { role := .host, email := emailText, password := passwordText }
  else none

/-- The screen presented, `some none` when a field is empty; the outer `none` is a trap. -/
def nextButtonPressed (sb : Storyboard) (c : CommonRegistrationViewController) :
    Option (Option FinishingScreen) :=
  if c.usernameTextField = "" ∨ c.passwordTextField = "" ∨ c.confirmPasswordTextField = "" then
    some none
  else if c.selectedSegmentIndex = 0 then
    (presentListenerRegistration sb c.usernameTextField c.passwordTextField).map some
  else
    (presentHostRegistration sb c.usernameTextField c.passwordTextField).map some

def Filled (c : CommonRegistrationViewController) : Prop :=
  c.usernameTextField ≠ "" ∧ c.passwordTextField ≠ "" ∧ c.confirmPasswordTextField ≠ ""
  deriving Decidable

/-- The finishing screen for what the common screen shows. -/
def finishing (c : CommonRegistrationViewController) : FinishingScreen :=
  ⟨c.segment.role, c.usernameTextField, c.passwordTextField⟩

theorem nextButtonPressed_mainStoryboard (c : CommonRegistrationViewController) :
    c.nextButtonPressed mainStoryboard = some (if c.Filled then some c.finishing else none) := by
  have hlistener : mainStoryboard.instantiates "ListenerRegistrationViewController"
    .listenerRegistrationViewController = true := by decide
  have hhost : mainStoryboard.instantiates "HostRegistrationViewController"
    .hostRegistrationViewController = true := by decide
  by_cases hf : c.Filled
  · obtain ⟨hemail, hpassword, hconfirm⟩ := hf
    cases hseg : c.segment <;>
      simp [nextButtonPressed, hemail, hpassword, hconfirm, selectedSegmentIndex, hseg,
        Segment.index, presentListenerRegistration, presentHostRegistration, hlistener, hhost,
        Filled, finishing, Segment.role]
  · have hempty : c.usernameTextField = "" ∨ c.passwordTextField = "" ∨
        c.confirmPasswordTextField = "" := by
      simp only [Filled, ne_eq] at hf
      tauto
    simp [nextButtonPressed, hempty, hf]

end CommonRegistrationViewController

/-! ## The screens of a device and the servers -/

structure State where
  /-- The common screen, if the login screen has opened it. -/
  common : Option CommonRegistrationViewController := none
  /-- The finishing screens, in the order they were opened. -/
  screens : List FinishingScreen := []
  /-- The number of the finishing screen in front of the common screen. -/
  front : Option ℕ := none
  world : World := {}

namespace State

/-- The common screen, when no finishing screen covers it. -/
def shown (s : State) : Option CommonRegistrationViewController :=
  if s.front = none then s.common else none

def edit (s : State) (f : CommonRegistrationViewController → CommonRegistrationViewController) :
    Option State :=
  s.shown.map fun c => { s with common := some (f c) }

def present (s : State) (screen : FinishingScreen) : State :=
  { s with screens := s.screens ++ [screen], front := some s.screens.length }

/-- A call to one of the servers, or an answer of theirs. -/
def remote (s : State) (a : Clients.Action) : Option State :=
  (Clients.step s.world a).map fun world => { s with world }

end State

inductive Action where
  | nativeRegistrationPressed
  | usernameEdited (text : String)
  | passwordEdited (text : String)
  | confirmPasswordEdited (text : String)
  | registrationModeChanged (segment : Segment)
  | nextButtonPressed
  | backPressed
  | finishPressed
  | createUserCompleted (number : ℕ) (entry : Entry)
  | elsewhere (a : Clients.Action)

/-- One action; `none` where it cannot happen. -/
def step (s : State) : Action → Option State
  | .nativeRegistrationPressed =>
    if s.common = none then some { s with common := some {} } else none
  | .usernameEdited text => s.edit fun c => { c with usernameTextField := text }
  | .passwordEdited text => s.edit fun c => { c with passwordTextField := text }
  | .confirmPasswordEdited text => s.edit fun c => { c with confirmPasswordTextField := text }
  | .registrationModeChanged segment => s.edit fun c => { c with segment }
  | .nextButtonPressed => do
    let c ← s.shown
    let opened ← c.nextButtonPressed mainStoryboard
    return opened.elim s s.present
  | .backPressed =>
    -- both finishing screens and the common screen dismiss themselves
    if s.front.isSome then some { s with front := none }
    else if s.common.isSome then some { s with common := none }
    else none
  | .finishPressed => do
    let number ← s.front
    let screen ← s.screens[number]?
    s.remote (.finishTapped screen.role screen.email screen.password)
  | .createUserCompleted number entry => do
    let screen ← s.screens[number]?
    if entry.role = screen.role then
      s.remote (.createUserCompleted screen.password ⟨screen.email, entry⟩)
    else none
  | .elsewhere a => s.remote a

/-! ## What is seen of a run -/

inductive Event where
  /-- A finishing screen opens, with this on the common screen. -/
  | opened (c : CommonRegistrationViewController)
  /-- An action of the wizard, the finishing screen whose code it ran, and the servers around it. -/
  | served (number : Option ℕ) (before after : World)

/-- The finishing screen whose button or completion an action runs. -/
def finisher (s : State) : Action → Option ℕ
  | .finishPressed => s.front
  | .createUserCompleted number _ => some number
  | _ => none

def observe (s : State) (a : Action) : List Event :=
  match step s a, a with
  | none, _ | some _, .elsewhere _ => []
  | some s', a =>
    (if s.screens.length < s'.screens.length then s.shown.toList.map .opened else []) ++
      [.served (finisher s a) s.world s'.world]

/-- The events of a run of the wizard, the servers being in the state `w` at its start. -/
def events (w : World) (t : List Action) : List Event :=
  Runs.observed step observe { world := w } t

/-- What the common screen showed at each Next press that opened a finishing screen. -/
def openings (log : List Event) : List CommonRegistrationViewController :=
  log.filterMap fun
    | .opened c => some c
    | .served _ _ _ => none

section Kept

-- equality of Swift strings, which is canonical equivalence
variable (same : String → String → Bool)

/-- Every `createUser` call that the wizard sends carries what was typed and confirmed at the Next
press that opened the screen it is sent from. Every account that it makes is made with these texts;
the one call then sent is a `setData` for a document in the collection of the role selected at that
press, and its answer leaves the profile there. -/
structure Kept (log : List Event) : Prop where
  created : ∀ sender before after role email password, .served sender before after ∈ log →
    .createUser role email password ∈ after.calls - before.calls →
    ∃ number c, sender = some number ∧ (openings log)[number]? = some c ∧
      role = c.segment.role ∧ email = c.usernameTextField ∧ password = c.passwordTextField ∧
      same password c.confirmPasswordTextField ∧ c.Filled
  written : ∀ sender before after, .served sender before after ∈ log →
    after.accounts ≠ before.accounts →
    ∃ number c p id, sender = some number ∧ (openings log)[number]? = some c ∧
      after.accounts = before.accounts.insert c.usernameTextField c.passwordTextField ∧
      after.calls = .setData p ⟨c.segment.role.collection, id⟩ ::ₘ before.calls.erase
        (.createUser c.segment.role c.usernameTextField c.passwordTextField) ∧
      p.email = c.usernameTextField ∧
      ∀ world world', Clients.step world
          (.setDataCompleted p ⟨c.segment.role.collection, id⟩) = some world' →
        world'.db.get ⟨c.segment.role.collection, id⟩ = some p.docData

/-- A Next press that opens a screen finds the password confirmed, and the username of a profile
is one path segment. -/
def Confirms (s : State) : Action → Prop
  | .nextButtonPressed => ∀ c, s.shown = some c → c.Filled →
      same c.passwordTextField c.confirmPasswordTextField
  | .createUserCompleted _ entry => ∃ id, resourcePath entry.username = some [id]
  | _ => True

end Kept

/-! ## What each action does -/

section Inversion

variable {s s' : State} {a : Action} {c : CommonRegistrationViewController} {number : ℕ}
  {e : Event} {entry : Entry}

theorem edit_eq_some {f : CommonRegistrationViewController → CommonRegistrationViewController} :
    s.edit f = some s' ↔ ∃ c, s.shown = some c ∧ s' = { s with common := some (f c) } := by
  simp [State.edit, @eq_comm _ s']

theorem remote_eq_some {b : Clients.Action} : s.remote b = some s' ↔
    ∃ world, Clients.step s.world b = some world ∧ s' = { s with world } := by
  simp [State.remote, @eq_comm _ s']

theorem step_nextButtonPressed : step s .nextButtonPressed = some s' ↔
    ∃ c, s.shown = some c ∧ s' = if c.Filled then s.present c.finishing else s := by
  simp only [step, Option.bind_eq_bind, Option.bind_eq_some_iff,
    CommonRegistrationViewController.nextButtonPressed_mainStoryboard]
  refine exists_congr fun c => and_congr_right fun _ => ?_
  by_cases hf : c.Filled <;> simp [hf, @eq_comm _ s']

theorem step_finishPressed : step s .finishPressed = some s' ↔
    ∃ number screen, s.front = some number ∧ s.screens[number]? = some screen ∧
      s' = { s with
        world := s.world.issue (.createUser screen.role screen.email screen.password) } := by
  simp [step, Option.bind_eq_some_iff, remote_eq_some, step_finishTapped]

theorem step_createUserCompleted : step s (.createUserCompleted number entry) = some s' ↔
    ∃ screen, s.screens[number]? = some screen ∧ entry.role = screen.role ∧
      ∃ world, Clients.step s.world
          (.createUserCompleted screen.password ⟨screen.email, entry⟩) = some world ∧
        s' = { s with world } := by
  simp [step, Option.bind_eq_some_iff, remote_eq_some]

/-- A step stays on the device and opens nothing, opens the finishing screen of what is shown, is
the call of the screen in front, the completion of a screen's call, or happens elsewhere. -/
theorem step_cases (hs : step s a = some s') :
    (s'.screens = s.screens ∧ s'.world = s.world ∧ (∀ b, a ≠ .elsewhere b)) ∨
      (∃ c, a = .nextButtonPressed ∧ s.shown = some c ∧ c.Filled ∧ s' = s.present c.finishing) ∨
      (∃ number screen, a = .finishPressed ∧ s.front = some number ∧
        s.screens[number]? = some screen ∧ s' = { s with
          world := s.world.issue (.createUser screen.role screen.email screen.password) }) ∨
      (∃ number entry screen world, a = .createUserCompleted number entry ∧
        s.screens[number]? = some screen ∧ entry.role = screen.role ∧
        Clients.step s.world (.createUserCompleted screen.password ⟨screen.email, entry⟩) =
          some world ∧ s' = { s with world }) ∨
      ∃ b, a = .elsewhere b ∧ s'.screens = s.screens := by
  cases a with
  | nativeRegistrationPressed =>
    simp only [step] at hs
    split_ifs at hs
    obtain rfl := Option.some.inj hs
    exact .inl ⟨rfl, rfl, by simp⟩
  | usernameEdited text | passwordEdited text | confirmPasswordEdited text
  | registrationModeChanged segment =>
    obtain ⟨c, -, rfl⟩ := edit_eq_some.mp hs
    exact .inl ⟨rfl, rfl, by simp⟩
  | nextButtonPressed =>
    obtain ⟨c, hc, rfl⟩ := step_nextButtonPressed.mp hs
    by_cases hf : c.Filled
    · exact .inr (.inl ⟨c, rfl, hc, hf, if_pos hf⟩)
    · rw [if_neg hf]
      exact .inl ⟨rfl, rfl, by simp⟩
  | backPressed =>
    simp only [step] at hs
    split_ifs at hs <;>
    · obtain rfl := Option.some.inj hs
      exact .inl ⟨rfl, rfl, by simp⟩
  | finishPressed =>
    obtain ⟨number, screen, hfront, hscreen, rfl⟩ := step_finishPressed.mp hs
    exact .inr (.inr (.inl ⟨number, screen, rfl, hfront, hscreen, rfl⟩))
  | createUserCompleted number entry =>
    obtain ⟨screen, hscreen, hrole, world, hworld, rfl⟩ := step_createUserCompleted.mp hs
    exact .inr (.inr (.inr (.inl ⟨number, entry, screen, world, rfl, hscreen, hrole, hworld, rfl⟩)))
  | elsewhere b =>
    obtain ⟨world, -, rfl⟩ := remote_eq_some.mp hs
    exact .inr (.inr (.inr (.inr ⟨b, rfl, rfl⟩)))

theorem observe_eq (hs : step s a = some s') (ha : ∀ b, a ≠ .elsewhere b) : observe s a =
    (if s.screens.length < s'.screens.length then s.shown.toList.map .opened else []) ++
      [.served (finisher s a) s.world s'.world] := by
  cases a with
  | elsewhere b => exact absurd rfl (ha b)
  | _ => simp only [observe, hs]

theorem observe_elsewhere (b : Clients.Action) : observe s (.elsewhere b) = [] := by
  cases hs : step s (.elsewhere b) <;> simp [observe, hs]

/-- A finishing screen is opened by a Next press alone. -/
theorem observe_present (hs : step s .nextButtonPressed = some (s.present c.finishing))
    (hc : s.shown = some c) : observe s .nextButtonPressed =
      [.opened c, .served none s.world s.world] := by
  rw [observe_eq hs (by simp)]
  simp [State.present, hc, finisher]

theorem observe_stay (hs : step s a = some s') (ha : ∀ b, a ≠ .elsewhere b)
    (hscreens : s'.screens = s.screens) :
    observe s a = [.served (finisher s a) s.world s'.world] := by
  rw [observe_eq hs ha]
  simp [hscreens]

/-- What is seen of a step is seen of an enabled one. -/
theorem exists_step (hmem : e ∈ observe s a) : ∃ s', step s a = some s' := by
  cases hs : step s a with
  | none => simp [observe, hs] at hmem
  | some s' => exact ⟨s', rfl⟩

theorem opened_mem_observe (hmem : .opened c ∈ observe s a) :
    a = .nextButtonPressed ∧ s.shown = some c ∧ c.Filled := by
  obtain ⟨s', hs⟩ := exists_step hmem
  rcases step_cases hs with ⟨hscreens, -, ha⟩ | ⟨c', rfl, hc', hf, rfl⟩ |
    ⟨number, screen, rfl, -, -, rfl⟩ | ⟨number, entry, screen, world, rfl, -, -, -, rfl⟩ |
    ⟨b, rfl, -⟩
  · simp [observe_stay hs ha hscreens] at hmem
  · rw [observe_present hs hc'] at hmem
    obtain rfl : c = c' := by simpa using hmem
    exact ⟨rfl, hc', hf⟩
  · simp [observe_stay hs (by simp) rfl] at hmem
  · simp [observe_stay hs (by simp) rfl] at hmem
  · simp [observe_elsewhere] at hmem

theorem served_mem_observe {sender : Option ℕ} {before after : World}
    (hs : step s a = some s') : .served sender before after ∈ observe s a ↔
      (∀ b, a ≠ .elsewhere b) ∧ sender = finisher s a ∧ before = s.world ∧ after = s'.world := by
  by_cases ha : ∀ b, a ≠ .elsewhere b
  · rw [observe_eq hs ha]
    split_ifs <;> simp [ha]
  · obtain ⟨b, rfl⟩ : ∃ b, a = .elsewhere b := by simpa using ha
    simp [observe_elsewhere]

theorem step_screens (hs : step s a = some s') :
    s'.screens = s.screens ++
      (openings (observe s a)).map CommonRegistrationViewController.finishing := by
  rcases step_cases hs with ⟨hscreens, -, ha⟩ | ⟨c, rfl, hc, -, rfl⟩ |
    ⟨number, screen, rfl, -, -, rfl⟩ | ⟨number, entry, screen, world, rfl, -, -, -, rfl⟩ |
    ⟨b, rfl, hscreens⟩
  · simp [observe_stay hs ha hscreens, hscreens, openings]
  · simp [observe_present hs hc, State.present, openings]
  · simp [observe_stay hs (by simp) rfl, openings]
  · simp [observe_stay hs (by simp) rfl, openings]
  · simp [observe_elsewhere, hscreens, openings]

end Inversion

/-! ## What is handed over -/

section Handed

variable {w : World} {s s' : State} {a : Action} {t : List Action} {log : List Event}
  {c : CommonRegistrationViewController} {number : ℕ}

theorem mem_openings : c ∈ openings log ↔ .opened c ∈ log := by
  simp only [openings, List.mem_filterMap]
  constructor
  · rintro ⟨e, he, hc⟩
    cases e <;> simp_all
  · intro h
    exact ⟨.opened c, h, rfl⟩

theorem openings_append (log log' : List Event) :
    openings (log ++ log') = openings log ++ openings log' :=
  List.filterMap_append

theorem openings_getElem?_append {log' : List Event} (hc : (openings log)[number]? = some c) :
    (openings (log ++ log'))[number]? = some c := by
  obtain ⟨hlt, -⟩ := List.getElem?_eq_some_iff.mp hc
  rw [openings_append, List.getElem?_append_left hlt, hc]

/-- The screens opened so far carry what was typed. -/
structure Handed (log : List Event) (s : State) : Prop where
  screens : s.screens = (openings log).map CommonRegistrationViewController.finishing
  filled : ∀ c ∈ openings log, c.Filled

theorem Handed.opening (h : Handed log s) {screen : FinishingScreen}
    (hscreen : s.screens[number]? = some screen) :
    ∃ c, (openings log)[number]? = some c ∧ c.Filled ∧ screen = c.finishing := by
  rw [h.screens, List.getElem?_map] at hscreen
  obtain ⟨c, hc, rfl⟩ := Option.map_eq_some_iff.mp hscreen
  exact ⟨c, hc, h.filled c (List.mem_of_getElem? hc), rfl⟩

theorem handed_step (h : Handed log s) (hs : step s a = some s') :
    Handed (log ++ observe s a) s' := by
  have hopenings := openings_append log (observe s a)
  constructor
  · rw [step_screens hs, h.screens, hopenings, List.map_append]
  · intro c hc
    rw [hopenings] at hc
    rcases List.mem_append.mp hc with hc | hc
    · exact h.filled c hc
    · exact (opened_mem_observe (mem_openings.mp hc)).2.2

/-- In every run email, password and role reach the screens as they were at the Next press. -/
theorem handed_run (h : Runs.run step { world := w } t = some s) : Handed (events w t) s := by
  refine Runs.run_induction (P := fun t s => Handed (events w t) s) ?_ ?_ h
  · exact ⟨rfl, by simp [events, Runs.observed, openings]⟩
  · intro t s a s' ht hhanded hs
    rw [events, Runs.observed_concat ht]
    exact handed_step hhanded hs

end Handed

/-! ## What is sent and written -/

section Sent

variable {same : String → String → Bool} {w : World} {s s' : State} {a : Action}
  {t : List Action} {log : List Event} {c : CommonRegistrationViewController} {number : ℕ}
  {p : Profile} {world world' : World}

/-- The wizard sends `createUser` on a Finish press alone, for the screen in front. -/
theorem sent_createUser {role : Role} {email password : String} (hs : step s a = some s')
    (ha : ∀ b, a ≠ .elsewhere b)
    (hsent : .createUser role email password ∈ s'.world.calls - s.world.calls) :
    ∃ number, finisher s a = some number ∧ s.screens[number]? = some ⟨role, email, password⟩ := by
  rw [Multiset.mem_sub] at hsent
  rcases step_cases hs with ⟨-, hworld, -⟩ | ⟨c, rfl, -, -, rfl⟩ |
    ⟨number, screen, rfl, hfront, hscreen, rfl⟩ |
    ⟨number, entry, screen, world, rfl, -, -, hworld, rfl⟩ | ⟨b, rfl, -⟩
  · rw [hworld] at hsent
    exact absurd hsent (lt_irrefl _)
  · exact absurd hsent (lt_irrefl _)
  · by_cases hcall : Call.createUser role email password =
        .createUser screen.role screen.email screen.password
    · obtain ⟨rfl, rfl, rfl⟩ := Call.createUser.inj hcall
      exact ⟨number, hfront, hscreen⟩
    · simp only [World.issue, Multiset.count_cons_of_ne hcall] at hsent
      exact absurd hsent (lt_irrefl _)
  · -- the completion takes a call off and sends at most a `setData`
    obtain ⟨-, -, rfl⟩ := Clients.step_createUserCompleted.mp hworld
    refine absurd hsent (not_lt.mpr ?_)
    have hle := Multiset.count_le_of_le (Call.createUser role email password)
      (Multiset.erase_le (Call.createUser entry.role screen.email screen.password) s.world.calls)
    rw [World.createUserCompletion]
    split
    · simpa [World.issue] using hle
    · exact hle
  · exact absurd rfl (ha b)

/-- The wizard makes an account in the completion of a screen's call alone; what is then sent is a
`setData` at the reference of the profile, if it has one. -/
theorem made_account (hs : step s a = some s') (ha : ∀ b, a ≠ .elsewhere b)
    (hmade : s'.world.accounts ≠ s.world.accounts) :
    ∃ number entry screen, a = .createUserCompleted number entry ∧
      s.screens[number]? = some screen ∧ entry.role = screen.role ∧
      s'.world.accounts = s.world.accounts.insert screen.email screen.password ∧
      s'.world.calls =
        (⟨screen.email, entry⟩ : Profile).reference.elim
          (s.world.calls.erase (.createUser entry.role screen.email screen.password))
          fun ref => .setData ⟨screen.email, entry⟩ ref ::ₘ
            s.world.calls.erase (.createUser entry.role screen.email screen.password) := by
  rcases step_cases hs with ⟨-, hworld, -⟩ | ⟨c, rfl, -, -, rfl⟩ |
    ⟨number, screen, rfl, -, -, rfl⟩ |
    ⟨number, entry, screen, world, rfl, hscreen, hrole, hworld, rfl⟩ | ⟨b, rfl, -⟩
  · exact absurd (congrArg World.accounts hworld) hmade
  · exact absurd rfl hmade
  · exact absurd rfl hmade
  · obtain ⟨-, -, rfl⟩ := Clients.step_createUserCompleted.mp hworld
    refine ⟨number, entry, screen, rfl, hscreen, hrole, ?_, ?_⟩
    · rw [World.createUserCompletion]
      split <;> rfl
    · cases href : (⟨screen.email, entry⟩ : Profile).reference <;>
        simp [World.createUserCompletion, href, World.issue]
  · exact absurd rfl (ha b)

/-- The answer of the `setData` call leaves the profile in the database. -/
theorem setData_answered {ref : DocumentReference}
    (h : Clients.step world (.setDataCompleted p ref) = some world') :
    world'.db.get ref = some p.docData := by
  obtain ⟨-, rfl⟩ := Clients.step_setDataCompleted.mp h
  simp

end Sent

/-! ## Runs in which every password is confirmed -/

section Confirmed

variable {same : String → String → Bool} {w : World} {s s' : State} {a : Action}
  {t : List Action} {log : List Event} {c : CommonRegistrationViewController} {number : ℕ}

theorem opening_confirmed (hC : Runs.Along step (Confirms same) { world := w } t)
    (hc : c ∈ openings (events w t)) :
    same c.passwordTextField c.confirmPasswordTextField := by
  obtain ⟨s, a, hCa, hmem⟩ := Runs.mem_observed_along hC (mem_openings.mp hc)
  obtain ⟨rfl, hshown, hf⟩ := opened_mem_observe hmem
  exact hCa c hshown hf

/-- One step, when all that was opened before it was confirmed. -/
theorem kept_step (h : Kept same log) (hhanded : Handed log s) (hs : step s a = some s')
    (hopened : ∀ c ∈ openings log, same c.passwordTextField c.confirmPasswordTextField)
    (hC : Confirms same s a) : Kept same (log ++ observe s a) := by
  constructor
  · intro sender before after role email password hmem hsent
    rcases List.mem_append.mp hmem with hmem | hmem
    · obtain ⟨number, c, rfl, hc, hcall⟩ :=
        h.created sender before after role email password hmem hsent
      exact ⟨number, c, rfl, openings_getElem?_append hc, hcall⟩
    · obtain ⟨ha, rfl, rfl, rfl⟩ := (served_mem_observe hs).mp hmem
      obtain ⟨number, hnumber, hscreen⟩ := sent_createUser hs ha hsent
      obtain ⟨c, hc, hf, hfields⟩ := hhanded.opening hscreen
      obtain ⟨rfl, rfl, rfl⟩ := FinishingScreen.mk.inj hfields
      exact ⟨number, c, hnumber, openings_getElem?_append hc, rfl, rfl, rfl,
        hopened c (List.mem_of_getElem? hc), hf⟩
  · intro sender before after hmem hmade
    rcases List.mem_append.mp hmem with hmem | hmem
    · obtain ⟨number, c, p, id, rfl, hc, hcall⟩ := h.written sender before after hmem hmade
      exact ⟨number, c, p, id, rfl, openings_getElem?_append hc, hcall⟩
    · obtain ⟨ha, rfl, rfl, rfl⟩ := (served_mem_observe hs).mp hmem
      obtain ⟨number, entry, screen, rfl, hscreen, hrole, haccounts, hcalls⟩ :=
        made_account hs ha hmade
      obtain ⟨c, hc, -, rfl⟩ := hhanded.opening hscreen
      obtain ⟨id, hid⟩ := hC
      have href : (⟨c.finishing.email, entry⟩ : Profile).reference =
          some ⟨c.segment.role.collection, id⟩ := by
        rw [show c.segment.role = entry.role from hrole.symm]
        exact Profile.reference_in_collection_iff.mpr hid
      rw [href, hrole] at hcalls
      exact ⟨number, c, ⟨c.finishing.email, entry⟩, id, rfl, openings_getElem?_append hc, haccounts,
        hcalls, rfl, fun world world' => setData_answered⟩

/-- Next and Finish in a row send `createUser` with what the common screen shows. -/
theorem run_next_finish (h : Runs.run step { world := w } t = some s)
    (hshown : s.shown = some c) (hf : c.Filled) :
    (∃ s', Runs.run step { world := w } (t ++ [Action.nextButtonPressed, .finishPressed]) =
      some s') ∧
      events w (t ++ [Action.nextButtonPressed, .finishPressed]) = events w t ++
        [.opened c, .served none s.world s.world,
          .served (some (openings (events w t)).length) s.world (s.world.issue
            (.createUser c.segment.role c.usernameTextField c.passwordTextField))] := by
  have hlength : (openings (events w t)).length = s.screens.length := by
    rw [(handed_run h).screens, List.length_map]
  have hnext : step s .nextButtonPressed = some (s.present c.finishing) :=
    step_nextButtonPressed.mpr ⟨c, hshown, by simp [hf]⟩
  have hscreen : (s.present c.finishing).screens[s.screens.length]? = some c.finishing := by
    simp [State.present]
  have hfinish := step_finishPressed.mpr ⟨s.screens.length, c.finishing, rfl, hscreen, rfl⟩
  constructor
  · refine Option.isSome_iff_exists.mp ?_
    rw [Runs.run_append, h, Option.bind_some, Runs.run_cons, hnext, Option.bind_some,
      Runs.run_cons, hfinish]
    rfl
  · rw [events, Runs.observed_append h, hlength, Runs.observed, hnext, Option.elim_some,
      Runs.observed, hfinish, Option.elim_some, observe_present hnext hshown,
      observe_stay hfinish (by simp) rfl]
    rfl

/-- After a Next press that finds the password not confirmed, Finish asks for an account of it. -/
theorem unconfirmed_breaks (h : Runs.run step { world := w } t = some s)
    (hshown : s.shown = some c) (hf : c.Filled)
    (hnot : ¬ same c.passwordTextField c.confirmPasswordTextField) :
    ∃ s', Runs.run step { world := w } (t ++ [Action.nextButtonPressed, .finishPressed]) =
        some s' ∧
      ¬ Kept same (events w (t ++ [Action.nextButtonPressed, .finishPressed])) := by
  obtain ⟨⟨s', hrun⟩, hlog⟩ := run_next_finish h hshown hf
  refine ⟨s', hrun, fun hkept => ?_⟩
  rw [hlog] at hkept
  obtain ⟨number, c', hnumber, hc', -, -, -, hconfirmed, -⟩ :=
    hkept.created (some (openings (events w t)).length) s.world (s.world.issue
      (.createUser c.segment.role c.usernameTextField c.passwordTextField)) c.segment.role
      c.usernameTextField c.passwordTextField (by simp)
      (by simp [Multiset.mem_sub, World.issue])
  obtain rfl := Option.some.inj hnumber
  obtain rfl : c = c' := by simpa [openings] using hc'
  exact hnot hconfirmed

/-- A username of several segments, or of none, keeps the profile out of the collection. -/
theorem misplaced_breaks {entry : Entry} (h : Runs.run step { world := w } t = some s)
    (hs : step s (.createUserCompleted number entry) = some s')
    (hnot : ¬ ∃ id, resourcePath entry.username = some [id]) :
    ¬ Kept same (events w (t ++ [Action.createUserCompleted number entry])) := by
  intro hkept
  have hlog : events w (t ++ [Action.createUserCompleted number entry]) =
      events w t ++ [.served (some number) s.world s'.world] := by
    obtain ⟨screen, -, -, world, -, rfl⟩ := step_createUserCompleted.mp hs
    rw [events, Runs.observed_concat h, observe_stay hs (by simp) rfl]
    rfl
  obtain ⟨screen, hscreen, hrole, world, hworld, rfl⟩ := step_createUserCompleted.mp hs
  have hmade : world.accounts ≠ s.world.accounts := by
    obtain ⟨-, hfresh, rfl⟩ := Clients.step_createUserCompleted.mp hworld
    intro hsame
    rw [createUserCompletion_accounts] at hsame
    have hmem : screen.email ∈ s.world.accounts.insert screen.email screen.password := by simp
    exact hfresh (hsame.subst (motive := (screen.email ∈ ·)) hmem)
  obtain ⟨number', entry', screen', ha, hscreen', -, -, hcalls⟩ :=
    made_account hs (by simp) hmade
  obtain ⟨rfl, rfl⟩ := Action.createUserCompleted.inj ha
  obtain rfl : screen = screen' := Option.some.inj (hscreen.symm.trans hscreen')
  rw [hlog] at hkept
  obtain ⟨number', c, p, id, hnumber, hc, -, hwritten, -⟩ :=
    hkept.written (some number) s.world world (by simp) hmade
  obtain rfl := Option.some.inj hnumber
  obtain ⟨c', hc', -, rfl⟩ := (handed_run h).opening hscreen
  obtain rfl : c' = c := by
    rw [openings_append, List.getElem?_append_left (List.getElem?_eq_some_iff.mp hc').1] at hc
    exact Option.some.inj (hc'.symm.trans hc)
  rw [hwritten, hrole] at hcalls
  cases href : (⟨c'.finishing.email, entry⟩ : Profile).reference with
  | none =>
    rw [href] at hcalls
    have hcard := congrArg Multiset.card hcalls
    simp [CommonRegistrationViewController.finishing] at hcard
  | some ref =>
    rw [href] at hcalls
    obtain ⟨-, rfl⟩ := Call.setData.inj ((Multiset.cons_inj_left _).mp hcalls)
    rw [show c'.segment.role = entry.role from hrole.symm] at href
    exact hnot ⟨id, Profile.reference_in_collection_iff.mp href⟩

/-- A step that is not as `Confirms` asks breaks the property, at once or with one Finish press. -/
theorem exists_break (h : Runs.run step { world := w } t = some s)
    (hs : step s a = some s') (hnot : ¬ Confirms same s a) :
    ∃ u s'', Runs.run step { world := w } (t ++ a :: u) = some s'' ∧
      ¬ Kept same (events w (t ++ a :: u)) := by
  cases a with
  | nextButtonPressed =>
    simp only [Confirms, not_forall] at hnot
    obtain ⟨c, hshown, hf, hnot⟩ := hnot
    exact ⟨[.finishPressed], unconfirmed_breaks h hshown hf hnot⟩
  | createUserCompleted number entry =>
    exact ⟨[], s', by simp [Runs.run_append, h, hs], misplaced_breaks h hs hnot⟩
  | _ => exact absurd trivial hnot

/-! A host fills in the common screen, goes on and finishes. -/

def djSignUp (confirmation : String) : List Action :=
  [.nativeRegistrationPressed, .usernameEdited "dj@waxxy.live", .passwordEdited "secret",
    .confirmPasswordEdited confirmation, .registrationModeChanged .hostSignUp, .nextButtonPressed,
    .finishPressed]

def djScreens (confirmation : String) (world : World) : State where
  common := some ⟨"dj@waxxy.live", "secret", confirmation, .hostSignUp⟩
  screens := [⟨.host, "dj@waxxy.live", "secret"⟩]
  front := some 0
  world := world

/-- **Confirmed accounts.** In a run whose Next presses find the password confirmed and whose
usernames are one path segment, every account is asked for as typed and confirmed at the Next press
and its profile goes to the collection of the role selected there. -/
theorem accounts_as_confirmed (h : Runs.run step { world := w } t = some s)
    (hC : Runs.Along step (Confirms same) { world := w } t) : Kept same (events w t) := by
  refine Runs.run_induction (P := fun t _ =>
    Runs.Along step (Confirms same) { world := w } t → Kept same (events w t)) ?_ ?_ h hC
  · intro _
    constructor <;> simp [events, Runs.observed]
  · intro t s a s' ht ih hs hC
    have hprefix := Runs.along_of_isPrefix hC (List.prefix_append t [a])
    rw [events, Runs.observed_concat ht]
    exact kept_step (ih hprefix) (handed_run ht) hs (fun c => opening_confirmed hprefix)
      (Runs.along_iff_prefix.mp hC t a s (List.prefix_refl _) ht)

theorem accounts_as_confirmed_djSignUp : Kept (· == ·)
    (events {} (djSignUp "secret" ++ [.createUserCompleted 0 (.host djTexts)])) := by
  let w : World := { accounts := (∅ : Accounts).insert "dj@waxxy.live" "secret"
                     calls := {.setData djProfile djReference} }
  have hrun : Runs.run step { world := {} }
      (djSignUp "secret" ++ [.createUserCompleted 0 (.host djTexts)]) =
        some (djScreens "secret" w) := rfl
  refine accounts_as_confirmed hrun ?_
  refine Runs.along_cons trivial rfl ?_
  refine Runs.along_cons trivial rfl ?_
  refine Runs.along_cons trivial rfl ?_
  refine Runs.along_cons trivial rfl ?_
  refine Runs.along_cons trivial rfl ?_
  refine Runs.along_cons ?_ rfl ?_
  · intro c hc _
    obtain rfl := Option.some.inj hc
    rfl
  refine Runs.along_cons trivial rfl ?_
  exact Runs.along_cons ⟨"dj", by decide⟩ rfl trivial

/-- A password mistyped in the confirmation is asked for all the same. -/
theorem mistyped_password_accepted : ¬ ∀ (w : World) (t : List Action) (s : State),
    Runs.run step { world := w } t = some s → Kept (· == ·) (events w t) := by
  intro h
  have hrun : Runs.run step { world := {} } (djSignUp "sercet") = some (djScreens "sercet"
    { calls := {.createUser .host "dj@waxxy.live" "secret"} }) := rfl
  have hkept := h {} (djSignUp "sercet") _ hrun
  obtain ⟨number, c, hnumber, hc, -, -, -, hconfirmed, -⟩ := hkept.created (some 0) {}
    { calls := {.createUser .host "dj@waxxy.live" "secret"} } .host "dj@waxxy.live" "secret"
    (List.mem_of_getElem? (i := 7) rfl) (by decide)
  obtain rfl := Option.some.inj hnumber
  obtain rfl := Option.some.inj hc
  revert hconfirmed
  decide

end Confirmed

end WaxxyLive.Wizard
