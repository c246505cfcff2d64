import WaxxyLive.Lib.Runs
import WaxxyLive.Login

/-!
# What a login hands over, in every order of its callbacks

`progress_run` follows one attempt through any run of its callbacks: the object
in the tab bar is the filled one exactly when the query completion ran before
the presenting block. `attempt_grows` says what every attempt leaves in the
view context.
-/

namespace WaxxyLive.Login

open Firestore CoreData Registration TabBars Streaming Runs

variable {sb : Storyboard} {o : Outcomes} {p : Press} {c : Container}

/-! ## The object of an attempt -/

/-- The controller an attempt hands over, before (`false`) and after (`true`)
the query completion wrote `data` into its object. -/
def handedOver (p : Press) (data : Document) (filled : Bool) : TabBarController :=
  if p.isHost then .host { host := some (if filled then fillHost data {} else {}) }
  else .listeners { listener := some (if filled then fillListener data {} else {}) }

theorem didPress_tabBar (data : Document) :
    (didPressBaseLoginButton p c).tabBar = handedOver p data false := by
  unfold didPressBaseLoginButton handedOver State.tabBar
  split <;> simp [Container.insertHost, Container.insertListener]

/-- The captured variables: one object of the pressed role, never exchanged. -/
structure Captured (p : Press) (s : State) : Prop where
  isHost : s.isHost = p.isHost
  host : s.host.isSome = p.isHost
  listener : s.listener.isSome = !p.isHost

theorem captured_didPress : Captured p (didPressBaseLoginButton p c) := by
  unfold didPressBaseLoginButton
  split <;> constructor <;> simp_all

theorem captured_step {s s' : State} {e : Event} (h : Captured p s)
    (hs : step sb o s e = some s') : Captured p s' := by
  obtain ⟨hi, hh, hl⟩ := h
  cases e with
  | query =>
    obtain ⟨-, rfl⟩ := step_query.mp hs
    unfold queryCompletion
    split <;> exact ⟨hi, hh, hl⟩
  | signIn =>
    obtain ⟨-, rfl⟩ := step_signIn.mp hs
    unfold signInCompletion
    split_ifs <;> exact ⟨hi, hh, hl⟩
  | mainQueue =>
    obtain ⟨-, rfl⟩ := step_mainQueue.mp hs
    exact ⟨hi, hh, hl⟩

/-- The query completion fills the object the block will hand over. -/
theorem fill_tabBar {s : State} {data : Document} (hc : Captured p s)
    (h : s.tabBar = handedOver p data false) :
    ({ s with queryOutstanding := false, coreData := s.fill data } : State).tabBar =
      handedOver p data true := by
  obtain ⟨hi, hh, hl⟩ := hc
  cases hp : p.isHost
  · simp only [hp, Option.isSome_eq_false_iff, Option.isNone_iff_eq_none, Bool.not_false] at hi hh hl
    obtain ⟨ref, hl⟩ := Option.isSome_iff_exists.mp hl
    simp only [State.tabBar, handedOver, hi, hl, hp, Bool.false_eq_true, if_false,
      TabBarController.listeners.injEq, ListenersTabBarController.mk.injEq, Option.bind_some] at h
    simp [State.tabBar, handedOver, State.fill, Container.modifyListener, hi, hh, hl, hp, h.2]
  · simp only [hp, Bool.not_true, Option.isSome_eq_false_iff, Option.isNone_iff_eq_none] at hi hh hl
    obtain ⟨ref, hh⟩ := Option.isSome_iff_exists.mp hh
    simp only [State.tabBar, handedOver, hi, hh, hp, if_true, TabBarController.host.injEq,
      HostTabBarController.mk.injEq, Option.bind_some] at h
    simp [State.tabBar, handedOver, State.fill, Container.modifyHost, hi, hh, hp, h.2]

/-! ## Following the callbacks -/

/-- The callbacks that ran before the presenting block. -/
def beforeBlock (t : List Event) : List Event := t.takeWhile (· ≠ .mainQueue)

theorem beforeBlock_append_of_mem {t : List Event} (h : .mainQueue ∈ t) (u : List Event) :
    beforeBlock (t ++ u) = beforeBlock t := by
  induction t with
  | nil => simp at h
  | cons e t ih =>
    cases e with
    | mainQueue => rfl
    | query | signIn =>
      have ht : .mainQueue ∈ t := by simpa using h
      simpa [beforeBlock] using ih ht

theorem beforeBlock_of_notMem {t : List Event} (h : .mainQueue ∉ t) :
    beforeBlock (t ++ [.mainQueue]) = t := by
  have ht : ∀ e ∈ t, e ≠ .mainQueue := fun e he heq => h (heq ▸ he)
  rw [beforeBlock, List.takeWhile_append_of_pos (by simpa using ht)]
  simp

/-- Where an attempt whose query finds `data` stands after the callbacks `t`. -/
structure Progress (p : Press) (data : Document) (t : List Event) (s : State) : Prop where
  captured : Captured p s
  query : s.queryOutstanding = true → .query ∉ t
  signIn : s.signInOutstanding = true → s.blockScheduled = false ∧ .mainQueue ∉ t
  block : s.blockScheduled = true → .mainQueue ∉ t
  tabBar : s.tabBar = handedOver p data (.query ∈ t)
  presented : s.presented =
    if .mainQueue ∈ t then some (handedOver p data (.query ∈ beforeBlock t)) else none

theorem progress_didPress (data : Document) :
    Progress p data [] (didPressBaseLoginButton p c) where
  captured := captured_didPress
  query := by simp
  signIn := by unfold didPressBaseLoginButton; split <;> simp
  block := by simp
  tabBar := by simpa using didPress_tabBar data
  presented := by unfold didPressBaseLoginButton; split <;> simp

theorem progress_step {data : Document} {rest : List Document} {t : List Event} {s s' : State}
    {e : Event} (ho : o.query = .documents (data :: rest)) (h : Progress p data t s)
    (hs : step sb o s e = some s') : Progress p data (t ++ [e]) s' := by
  have hc' := captured_step h.captured hs
  cases e with
  | query =>
    obtain ⟨⟨-, hq⟩, rfl⟩ := step_query.mp hs
    have ht : .query ∉ t := h.query hq
    rw [ho] at hc' ⊢
    refine ⟨hc', by simp [queryCompletion], by simpa [queryCompletion] using h.signIn,
      by simpa [queryCompletion] using h.block, ?_, ?_⟩
    · simpa [queryCompletion] using fill_tabBar h.captured (by simpa [ht] using h.tabBar)
    · by_cases hm : Event.mainQueue ∈ t
      · simpa [queryCompletion, hm, beforeBlock_append_of_mem] using h.presented
      · simpa [queryCompletion, hm] using h.presented
  | signIn =>
    obtain ⟨⟨-, hsign⟩, rfl⟩ := step_signIn.mp hs
    obtain ⟨hb, hm⟩ := h.signIn hsign
    obtain ⟨htab, hpres⟩ := signInCompletion_tabBar sb s o.accepted
    refine ⟨hc', ?_, ?_, by simp [hm], ?_, ?_⟩
    · rw [signInCompletion_queryOutstanding]
      simpa using h.query
    · unfold signInCompletion
      split_ifs <;> simp
    · simpa [htab] using h.tabBar
    · simpa [hpres, hm] using h.presented
  | mainQueue =>
    obtain ⟨⟨-, hblock⟩, rfl⟩ := step_mainQueue.mp hs
    have hm := h.block hblock
    refine ⟨hc', by simpa using h.query, ?_, by simp, h.tabBar.trans (by simp), ?_⟩
    · intro hsign
      simp [(h.signIn hsign).1] at hblock
    · simpa [beforeBlock_of_notMem hm] using h.tabBar

theorem progress_run {data : Document} {rest : List Document} {t : List Event} {s : State}
    (ho : o.query = .documents (data :: rest))
    (h : run (step sb o) (didPressBaseLoginButton p c) t = some s) : Progress p data t s :=
  run_induction (progress_didPress data) (fun _ _ _ _ _ hp hs => progress_step ho hp hs) h

/-! ## What the presented controller carries -/

/-- The document decodes as a profile of the role. -/
def WellFormed (isHost : Bool) (data : Document) : Prop :=
  if isHost then (hostInfo? data).isSome else (listenerInfo? data).isSome

/-- The object in the controller has every field of the document. -/
def CarriesProfile (data : Document) : TabBarController → Prop
  | .host tab => ∃ host, tab.host = some host ∧
      host.username = data.string? "username" ∧ host.region = data.string? "region" ∧
      host.hostType = data.string? "hostType" ∧ host.email = data.string? "email" ∧
      host.topGenres = (data.string? "topGenres").map (Separated.components ',')
  | .listeners tab => ∃ listener, tab.listener = some listener ∧
      listener.username = data.string? "username" ∧ listener.email = data.string? "email" ∧
      listener.topGenres = data.strings? "topGenres"

/-- The profile tab does not trap, a stream is published under a username, and
the stop button does not trap and retracts it. -/
def MeetsNoNil : TabBarController → Prop
  | .host tab =>
    (∀ genreTags, HostSideProfileViewController.viewWillAppear tab.host genreTags ≠ none) ∧
      ∃ username, createStreamTarget tab.host = some username ∧
        stopTarget tab.host = some (some username)
  | .listeners _ => True

theorem carriesProfile_handedOver {data : Document} (hd : WellFormed p.isHost data)
    (filled : Bool) : CarriesProfile data (handedOver p data filled) ↔ filled = true := by
  cases hp : p.isHost with
  | false =>
    obtain ⟨info, hi⟩ := Option.isSome_iff_exists.mp (by simpa [WellFormed, hp] using hd)
    obtain ⟨hu, hg, he⟩ := listenerInfo?_eq_some_iff.mp hi
    cases filled <;>
      simp [CarriesProfile, handedOver, hp, fillListener, hi, Listener.fill, hu, hg, he]
  | true =>
    obtain ⟨info, hi⟩ := Option.isSome_iff_exists.mp (by simpa [WellFormed, hp] using hd)
    obtain ⟨hu, hr, hg, ht, he⟩ := hostInfo?_eq_some_iff.mp hi
    cases filled <;>
      simp [CarriesProfile, handedOver, hp, fillHost, hi, Host.fill, hu, hr, hg, ht, he]

theorem meetsNoNil_handedOver {data : Document} (hd : WellFormed p.isHost data) :
    MeetsNoNil (handedOver p data true) := by
  cases hp : p.isHost with
  | false => simp [handedOver, hp, MeetsNoNil]
  | true =>
    obtain ⟨info, hi⟩ := Option.isSome_iff_exists.mp (by simpa [WellFormed, hp] using hd)
    simp [handedOver, hp, MeetsNoNil, fillHost, hi, Host.fill, createStreamTarget, stopTarget,
      HostSideProfileViewController.viewWillAppear]

/-- The outcome of a press whose password is accepted, with the query answered from `db`. -/
def acceptedOn (db : Database) (p : Press) : Outcomes :=
  ⟨.documents ((query db p).map Sigma.snd), true⟩

/-- **Login order.** When the email matches a well-formed profile and the password is accepted,
the presented controller carries the whole profile exactly when the query
completion ran before the presenting block. -/
theorem presented_carries_iff {db : Database} {id : String} {data : Document} {t : List Event}
    {s : State} {tab : TabBarController} (hq : (query db p).head? = some ⟨id, data⟩)
    (hd : WellFormed p.isHost data)
    (h : run (step sb (acceptedOn db p)) (didPressBaseLoginButton p c) t = some s)
    (htab : s.presented = some tab) :
    (CarriesProfile data tab ∧ MeetsNoNil tab) ↔ .query ∈ beforeBlock t := by
  obtain ⟨rest, hrest⟩ := List.head?_eq_some_iff.mp hq
  have ho : (acceptedOn db p).query = .documents (data :: rest.map Sigma.snd) := by
    simp [acceptedOn, hrest]
  have hp := (progress_run ho h).presented
  rw [htab] at hp
  split_ifs at hp with hm
  obtain rfl : tab = _ := Option.some.inj hp
  rw [carriesProfile_handedOver hd]
  by_cases hb : Event.query ∈ beforeBlock t
  · simp [hb, meetsNoNil_handedOver hd]
  · simp [hb]

/-- The host `djProfile` pressing login. -/
def djPress : Press := ⟨1, "dj@waxxy.live", "secret"⟩

theorem djPress_wellFormed : WellFormed djPress.isHost djProfile.docData := by
  simp only [WellFormed, djPress, Press.isHost]
  rfl

theorem presented_carries_djPress :
    (CarriesProfile djProfile.docData (handedOver djPress djProfile.docData true) ∧
      MeetsNoNil (handedOver djPress djProfile.docData true)) ↔
      Event.query ∈ beforeBlock [.query, .signIn, .mainQueue] :=
  presented_carries_iff (show (query djStore djPress).head? = some ⟨"dj", _⟩ from rfl)
    djPress_wellFormed
    (show run (step mainStoryboard (acceptedOn djStore djPress))
      (didPressBaseLoginButton djPress {}) [.query, .signIn, .mainQueue] = some _ from rfl) rfl

/-- The sign-in answered before the query: the host's screens are presented with a blank host. -/
theorem login_order_matters :
    ¬ ∀ (db : Database) (p : Press) (c : Container) (id : String) (data : Document)
        (t : List Event) (s : State) (tab : TabBarController),
      (query db p).head? = some ⟨id, data⟩ → WellFormed p.isHost data →
      run (step mainStoryboard (acceptedOn db p)) (didPressBaseLoginButton p c) t = some s →
      s.presented = some tab → CarriesProfile data tab ∧ MeetsNoNil tab := by
  intro h
  have hblank := (h djStore djPress {} "dj" djProfile.docData [.signIn, .mainQueue] _ _ rfl
    djPress_wellFormed rfl rfl).2
  exact hblank.1 [] rfl

/-! ## What an attempt leaves behind -/

/-- The login cannot succeed: no well-formed document is found, or Auth rejects the credentials. -/
def CannotSucceed (p : Press) (o : Outcomes) : Prop :=
  o.accepted = false ∨
    ∀ data rest, o.query = .documents (data :: rest) → ¬ WellFormed p.isHost data

/-- No object of `a` is absent from `b`, which it grew from. -/
def NoNewObject (a b : Context) : Prop :=
  a.hosts.length ≤ b.hosts.length ∧ a.listeners.length ≤ b.listeners.length

/-- No trap, no presentation, no object that was not there before the press at `c`, and none
that a later save would persist. -/
def LeavesEverything (c : Container) (s : State) : Prop :=
  s.trapped = false ∧ s.presented = none ∧ NoNewObject s.coreData.viewContext c.viewContext ∧
    NoNewObject s.coreData.saveContext.store c.saveContext.store

/-- The objects of a context, of both entities. -/
def objectCount (c : Container) : Nat :=
  c.viewContext.hosts.length + c.viewContext.listeners.length

theorem objectCount_didPress :
    objectCount (didPressBaseLoginButton p c).coreData = objectCount c + 1 := by
  unfold didPressBaseLoginButton objectCount
  split <;> simp [Container.insertHost, Container.insertListener] <;> omega

theorem objectCount_fill (s : State) (data : Document) :
    objectCount (s.fill data) = objectCount s.coreData := by
  unfold State.fill objectCount
  split <;> simp [Container.modifyHost, Container.modifyListener]

theorem objectCount_step {s s' : State} {e : Event} (hs : step sb o s e = some s') :
    objectCount s'.coreData = objectCount s.coreData := by
  cases e with
  | query =>
    obtain ⟨-, rfl⟩ := step_query.mp hs
    unfold queryCompletion
    split
    · rfl
    · rfl
    · exact objectCount_fill s _
  | signIn =>
    obtain ⟨-, rfl⟩ := step_signIn.mp hs
    unfold signInCompletion
    split_ifs <;> rfl
  | mainQueue =>
    obtain ⟨-, rfl⟩ := step_mainQueue.mp hs
    rfl

/-- Every attempt adds one object to the view context, whatever its callbacks do. -/
theorem attempt_grows {t : List Event} {s : State}
    (h : run (step sb o) (didPressBaseLoginButton p c) t = some s) :
    objectCount s.coreData = objectCount c + 1 :=
  invariant (I := fun s => objectCount s.coreData = objectCount c + 1)
    (fun _ _ _ hi hs => (objectCount_step hs).trans hi) objectCount_didPress h

/-- **Failed logins.** No failing attempt leaves everything as it was: the object inserted by the
press stays in the view context, and a later save persists it. -/
theorem failed_login_leaves_object {t : List Event} {s : State} (_hfail : CannotSucceed p o)
    (h : run (step sb o) (didPressBaseLoginButton p c) t = some s) : ¬ LeavesEverything c s := by
  rintro ⟨-, -, ⟨hh, hl⟩, -⟩
  have hgrown := attempt_grows h
  unfold objectCount at hgrown
  omega

/-- A rejected host login: the blank `Host` is left in the context. -/
theorem failed_login_leaves_object_rejected :
    ¬ LeavesEverything {} { didPressBaseLoginButton djPress {} with signInOutstanding := false } :=
  failed_login_leaves_object (.inl rfl) (show run (step mainStoryboard ⟨.error, false⟩)
    (didPressBaseLoginButton djPress {}) [.signIn] = some _ from rfl)

theorem failed_login_changes_context :
    ¬ ∀ (p : Press) (c : Container) (o : Outcomes) (t : List Event) (s : State),
      CannotSucceed p o →
      run (step mainStoryboard o) (didPressBaseLoginButton p c) t = some s →
      LeavesEverything c s := by
  intro h
  have hleft := h djPress {} ⟨.error, false⟩ [.signIn, .query] _ (.inl rfl) rfl
  exact absurd hleft.2.2.1.1 (by decide)

end WaxxyLive.Login
