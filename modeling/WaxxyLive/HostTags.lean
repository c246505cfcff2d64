import WaxxyLive.ListenerTags

/-!
# The host's own profile screen

`viewDidLoad` fills the tag field from a genre list that `viewWillAppear` has
yet to read from the host, and every later `viewWillAppear` reads it again.
`hostStep_inStep` says when the list and the field still agree.
-/

namespace WaxxyLive.Tags

open CoreData Registration

variable (same : String → String → Bool)

/-- `HostSideProfileViewController.viewDidLoad` -/
def HostSideProfileViewController.viewDidLoad : TagsScreen := setupTagTextField same {}

/-- `viewWillAppear` on the screen; `none` is the trap on a host without genres. -/
def HostSideProfileViewController.viewWillAppear (host : Option Host) (s : TagsScreen) :
    Option TagsScreen :=
  (TabBars.HostSideProfileViewController.viewWillAppear host s.genreTags).map fun genreTags =>
    { s with genreTags }

inductive HostEvent where
  | viewWillAppear
  | tag (e : TagEvent)
  deriving DecidableEq, Repr

def hostStep (host : Host) (s : TagsScreen) : HostEvent → Option TagsScreen
  | .viewWillAppear => HostSideProfileViewController.viewWillAppear (some host) s
  | .tag e => s.event same e

/-- The screen of a host loaded, shown for the first time, and then the events `t`. -/
def hostRun (host : Host) (t : List HostEvent) : Option TagsScreen :=
  Runs.run (hostStep same host) (HostSideProfileViewController.viewDidLoad same)
    (.viewWillAppear :: t)

/-- The genre list and the tag field through a run: both start as the host's genres, they agree
in every state, showing the screen again changes neither, and nothing traps. -/
structure GenresInStep (host : Host) (t : List HostEvent) : Prop where
  starts : ∃ s, hostRun same host [] = some s ∧
    host.topGenres = some s.genreTags ∧ host.topGenres = some s.tags
  mirror : ∀ u s, u <+: t → hostRun same host u = some s → s.genreTags = s.tags
  survives : ∀ u s s', u ++ [.viewWillAppear] <+: t → hostRun same host u = some s →
    hostRun same host (u ++ [.viewWillAppear]) = some s' → s' = s
  runs : (hostRun same host t).isSome

/-- The screen is only ever shown with an empty tag field. -/
def ShownEmpty (s : TagsScreen) (e : HostEvent) : Prop := e = .viewWillAppear → s.tags = []

variable {same}

theorem hostStep_viewWillAppear {host : Host} {genres : List String}
    (hg : host.topGenres = some genres) (s : TagsScreen) :
    hostStep same host s .viewWillAppear = some { s with genreTags := genres } := by
  simp [hostStep, HostSideProfileViewController.viewWillAppear,
    TabBars.HostSideProfileViewController.viewWillAppear, hg]

theorem hostRun_nil {host : Host} {genres : List String} (hg : host.topGenres = some genres) :
    hostRun same host [] = some ⟨[], genres, true⟩ := by
  rw [hostRun, Runs.run_cons, hostStep_viewWillAppear hg]
  rfl

theorem hostRun_concat (host : Host) (u : List HostEvent) (e : HostEvent) :
    hostRun same host (u ++ [e]) = (hostRun same host u).bind fun s => hostStep same host s e := by
  rw [hostRun, ← List.cons_append, Runs.run_append]
  simp [hostRun]

/-- A host without genres whose screen is shown with an empty field keeps the lists in step. -/
theorem hostStep_inStep (hsame : Equivalence fun a b => same a b = true) {host : Host}
    (hg : host.topGenres = some []) (s : TagsScreen) (e : HostEvent) (hC : ShownEmpty s e)
    (h : s.InStep same) : ∃ s', hostStep same host s e = some s' ∧ s'.InStep same := by
  cases e with
  | viewWillAppear =>
    have htags : s.tags = [] := hC rfl
    exact ⟨_, hostStep_viewWillAppear hg s, h.handlers, htags.symm, h.distinct⟩
  | tag e => exact event_inStep hsame h e

/-- A run in step is one of a host without genres, as the field starts empty, and finds the field
empty whenever the screen is shown, as the list is empty right after. -/
theorem GenresInStep.shownEmpty {host : Host} {t : List HostEvent} (h : GenresInStep same host t) :
    host.topGenres = some [] ∧
      Runs.Along (hostStep same host) ShownEmpty (HostSideProfileViewController.viewDidLoad same)
        (.viewWillAppear :: t) := by
  rcases h.starts with ⟨s, hs, hgenres, htags⟩
  rw [hostRun_nil hgenres] at hs
  have hempty : s.tags = [] := by rw [← Option.some.inj hs]
  have hg : host.topGenres = some [] := by rw [htags, hempty]
  refine ⟨hg, Runs.along_iff_prefix.mpr ?_⟩
  rintro u e s hu hs rfl
  cases u with
  | nil =>
    obtain rfl := Option.some.inj hs
    rfl
  | cons e u =>
    obtain ⟨rfl, hpre⟩ := List.cons_prefix_cons.mp hu
    have hnext : hostRun same host (u ++ [.viewWillAppear]) = some { s with genreTags := [] } := by
      have hs' : hostRun same host u = some s := hs
      rw [hostRun_concat, hs', Option.bind_some, hostStep_viewWillAppear hg]
    exact (h.mirror _ _ hpre hnext).symm

/-- **Host genres.** The genre list and the tag field stay in step exactly in the runs of a host
without genres that never show the screen while tags are in the field. -/
theorem genres_in_step_iff (hsame : Equivalence fun a b => same a b = true) (host : Host)
    (t : List HostEvent) :
    GenresInStep same host t ↔ host.topGenres = some [] ∧
      Runs.Along (hostStep same host) ShownEmpty (HostSideProfileViewController.viewDidLoad same)
        (.viewWillAppear :: t) := by
  constructor
  · exact GenresInStep.shownEmpty
  · rintro ⟨hg, hC⟩
    have hinit : (HostSideProfileViewController.viewDidLoad same).InStep same :=
      ⟨rfl, rfl, List.Pairwise.nil⟩
    have hrun : ∀ u, u <+: t → ∃ s, hostRun same host u = some s ∧ s.InStep same := fun u hu =>
      Runs.progress_along (hostStep_inStep hsame hg)
        (Runs.along_of_isPrefix hC (List.cons_prefix_cons.mpr ⟨rfl, hu⟩)) hinit
    have hmirror : ∀ u s, u <+: t → hostRun same host u = some s → s.genreTags = s.tags := by
      intro u s hu hs
      rcases hrun u hu with ⟨s', hs', hin⟩
      obtain rfl : s' = s := Option.some.inj (hs'.symm.trans hs)
      exact hin.mirror
    constructor
    · exact ⟨_, hostRun_nil hg, hg, hg⟩
    · exact hmirror
    · intro u s s' hu hs hs'
      have htags : s.tags = [] := Runs.along_iff_prefix.mp hC (.viewWillAppear :: u) _ s
        (List.cons_prefix_cons.mpr ⟨rfl, hu⟩) hs rfl
      have hgenres : s.genreTags = [] :=
        (hmirror u s ((List.prefix_append u _).trans hu) hs).trans htags
      rw [hostRun_concat, hs, Option.bind_some, hostStep_viewWillAppear hg, ← hgenres] at hs'
      exact (Option.some.inj hs').symm
    · rcases hrun t List.prefix_rfl with ⟨s, hs, -⟩
      simp [hs]

/-- An edited and emptied field, shown again. -/
theorem genres_in_step_emptied :
    GenresInStep (· == ·) { topGenres := some [] }
      [.tag (.submitted "House"), .tag (.deleted 0), .viewWillAppear] := by
  refine (genres_in_step_iff equivalence_beq _ _).mpr ⟨rfl, ?_⟩
  refine Runs.along_cons (fun _ => rfl) rfl ?_
  refine Runs.along_cons nofun rfl ?_
  refine Runs.along_cons nofun rfl ?_
  exact Runs.along_cons (fun _ => rfl) rfl trivial

def djHost : Host := Host.fill {} ⟨"dj", "Detroit", "House,Techno", "DJ", "dj@waxxy.live"⟩

/-- Right after the screen is first shown, a host's genres are in the list and not in the field. -/
theorem djHost_genres_not_in_field :
    hostRun (· == ·) djHost [] = some ⟨[], ["House", "Techno"], true⟩ ∧
      ¬ GenresInStep (· == ·) djHost [] := by
  have hrun : hostRun (· == ·) djHost [] = some ⟨[], ["House", "Techno"], true⟩ := by decide
  refine ⟨hrun, fun h => ?_⟩
  have hmirror := h.mirror [] _ List.prefix_rfl hrun
  cases hmirror

-- the missing tag is typed in again and deleted
example : hostRun (· == ·) { topGenres := some ["House"] }
    [.tag (.submitted "House"), .tag (.deleted 0)] = none := by decide

end WaxxyLive.Tags
