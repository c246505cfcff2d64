import WaxxyLive.HostsCollection

/-!
# Finish presses on one registration screen

The actions of one screen, from a state with no call outstanding in which the
account and the profile of its email are both there or both missing. `Phase`
says how far the screen has come; an account without a profile is left behind
exactly when a `setData` fails, or the username addresses no document of the
role's collection, and no later press repairs it.
-/

namespace WaxxyLive.Clients

open Firestore Registration

variable (role : Role) (email : String)

/-- The presses of the screen and the answers to its calls. -/
def OfScreen : Action → Prop
  | .finishTapped r e _ => r = role ∧ e = email
  | .createUserCompleted _ p => p.entry.role = role ∧ p.email = email
  | .setDataCompleted _ _ | .failed _ => True
  | .mergeCompleted _ _ | .updateCompleted _ | .opened _ | .loggedIn _ | .streamCreated _ _
  | .stopPressed _ => False

/-- A profile document of the role has the email. -/
def HasProfile (w : World) : Prop :=
  ∃ id data, (w.db.collection role.collection).lookup id = some data ∧
    data.string? "email" = some email

/-- The account is there if and only if a profile is. -/
def Consistent (w : World) : Prop := email ∈ w.accounts ↔ HasProfile role email w

/-- The answer does not leave the account without a profile. -/
def Keeps : Action → Prop
  | .createUserCompleted _ p => ∃ id, p.reference = some ⟨role.collection, id⟩
  | .failed (.setData _ _) => False
  | _ => True

/-- Only `createUser` calls of the screen. -/
def OnlyCreates (calls : Multiset Call) : Prop :=
  ∀ call ∈ calls, ∃ password, call = .createUser role email password

/-- How far the screen has come: no account, a profile write outstanding, the profile written,
or an account without one. -/
inductive Phase where
  | idle
  | writing (p : Profile) (ref : DocumentReference)
  | written (p : Profile) (ref : DocumentReference)
  | lost

/-- The screen's profile and where its write goes. -/
structure Places (p : Profile) (ref : DocumentReference) : Prop where
  role : p.entry.role = role
  email : p.email = email
  reference : p.reference = some ref

structure Opened (w₀ w : World) : Prop where
  before : email ∉ w₀.accounts
  now : email ∈ w.accounts

def Phase.Holds (w₀ w : World) : Phase → Prop
  | .idle => OnlyCreates role email w.calls ∧ w.accounts = w₀.accounts ∧ w.db = w₀.db
  | .writing p ref =>
    (∃ rest, w.calls = .setData p ref ::ₘ rest ∧ OnlyCreates role email rest) ∧
      Opened email w₀ w ∧ w.db = w₀.db ∧ Places role email p ref
  | .written p ref =>
    OnlyCreates role email w.calls ∧ Opened email w₀ w ∧
      w.db = w₀.db.setData ref p.docData ∧ Places role email p ref
  | .lost => OnlyCreates role email w.calls ∧ Opened email w₀ w ∧ w.db = w₀.db

/-- The phases only runs of answers that keep reach. -/
def Phase.Kept : Phase → Prop
  | .idle => True
  | .writing _ ref | .written _ ref => ref.parent = role.collection
  | .lost => False

variable {role email} {w₀ w w' : World} {t : List Action}

theorem OnlyCreates.cons {calls : Multiset Call} (h : OnlyCreates role email calls)
    (password : String) : OnlyCreates role email (.createUser role email password ::ₘ calls) := by
  intro call hc
  rcases Multiset.mem_cons.mp hc with rfl | hc
  · exact ⟨password, rfl⟩
  · exact h call hc

theorem OnlyCreates.erase {calls : Multiset Call} (h : OnlyCreates role email calls)
    (call : Call) : OnlyCreates role email (calls.erase call) :=
  fun c hc => h c (Multiset.mem_of_mem_erase hc)

theorem OnlyCreates.setData_notMem {calls : Multiset Call} (h : OnlyCreates role email calls)
    (p : Profile) (ref : DocumentReference) : .setData p ref ∉ calls := by
  intro hc
  obtain ⟨password, hc⟩ := h _ hc
  cases hc

/-- Once there is an account, no `createUser` of the screen is accepted. -/
theorem not_createUserCompleted {password : String} {p : Profile} (hp : p.email = email)
    (hacc : email ∈ w.accounts) : step w (.createUserCompleted password p) ≠ some w' := by
  intro hs
  obtain ⟨-, hnew, -⟩ := step_createUserCompleted.mp hs
  exact hnew (hp ▸ hacc)

/-! ## One step of each phase -/

/-- The phase after an action, which is kept when the phase before was and the action keeps. -/
def Advances (role : Role) (email : String) (w₀ w' : World) (phase : Phase) (a : Action) : Prop :=
  ∃ phase' : Phase, phase'.Holds role email w₀ w' ∧ (phase'.Kept role ↔ phase.Kept role ∧ Keeps role a)

theorem idle_step {a : Action} (h : Phase.idle.Holds role email w₀ w) (ha : OfScreen role email a)
    (hs : step w a = some w') : Advances role email w₀ w' .idle a := by
  obtain ⟨hcalls, hacc, hdb⟩ := h
  cases a with
  | finishTapped r e password =>
    obtain ⟨rfl, rfl⟩ := ha
    obtain rfl := step_finishTapped.mp hs
    exact ⟨.idle, ⟨hcalls.cons password, hacc, hdb⟩, by simp [Phase.Kept, Keeps]⟩
  | createUserCompleted password p =>
    obtain ⟨rfl, rfl⟩ := ha
    obtain ⟨-, hnew, rfl⟩ := step_createUserCompleted.mp hs
    rw [hacc] at hnew
    have hopened : p.email ∈ AList.insert p.email password w.accounts :=
      (AList.mem_insert _).mpr (.inl rfl)
    unfold World.createUserCompletion
    split
    case h_1 ref href =>
      refine ⟨.writing p ref, ⟨⟨_, rfl, hcalls.erase _⟩, ⟨hnew, hopened⟩, hdb, ⟨rfl, rfl, href⟩⟩, ?_⟩
      obtain ⟨parent, id⟩ := ref
      simp [Phase.Kept, Keeps, href]
    case h_2 href =>
      exact ⟨.lost, ⟨hcalls.erase _, ⟨hnew, hopened⟩, hdb⟩, by simp [Phase.Kept, Keeps, href]⟩
  | setDataCompleted p ref =>
    exact absurd (step_setDataCompleted.mp hs).1 (hcalls.setData_notMem p ref)
  | failed call =>
    obtain ⟨hc, rfl⟩ := step_failed.mp hs
    obtain ⟨password, rfl⟩ := hcalls call hc
    exact ⟨.idle, ⟨hcalls.erase _, hacc, hdb⟩, by simp [Phase.Kept, Keeps]⟩
  | _ => exact ha.elim

theorem writing_step {a : Action} {p : Profile} {ref : DocumentReference}
    (h : (Phase.writing p ref).Holds role email w₀ w) (ha : OfScreen role email a)
    (hs : step w a = some w') : Advances role email w₀ w' (.writing p ref) a := by
  obtain ⟨⟨rest, hrest, hcalls⟩, hopened, hdb, hplaces⟩ := h
  cases a with
  | finishTapped r e password =>
    obtain ⟨rfl, rfl⟩ := ha
    obtain rfl := step_finishTapped.mp hs
    refine ⟨.writing p ref, ⟨⟨_, ?_, hcalls.cons password⟩, ⟨hopened.before, hopened.now⟩, hdb,
      hplaces⟩, by simp [Phase.Kept, Keeps]⟩
    rw [World.issue, hrest]
    exact Multiset.cons_swap _ _ _
  | createUserCompleted password p' => exact absurd hs (not_createUserCompleted ha.2 hopened.now)
  | setDataCompleted p' ref' =>
    obtain ⟨hc, rfl⟩ := step_setDataCompleted.mp hs
    rw [hrest] at hc
    obtain ⟨rfl, rfl⟩ : p' = p ∧ ref' = ref := by
      simpa [hcalls.setData_notMem p' ref'] using hc
    refine ⟨.written p' ref', ⟨?_, ⟨hopened.before, hopened.now⟩, by rw [← hdb], hplaces⟩,
      by simp [Phase.Kept, Keeps]⟩
    simpa [hrest] using hcalls
  | failed call =>
    obtain ⟨hc, rfl⟩ := step_failed.mp hs
    rw [hrest] at hc
    rcases Multiset.mem_cons.mp hc with rfl | hc
    · refine ⟨.lost, ⟨?_, ⟨hopened.before, hopened.now⟩, hdb⟩, by simp [Phase.Kept, Keeps]⟩
      simpa [hrest] using hcalls
    · obtain ⟨password, rfl⟩ := hcalls call hc
      refine ⟨.writing p ref, ⟨⟨rest.erase (.createUser role email password), ?_, hcalls.erase _⟩,
        ⟨hopened.before, hopened.now⟩, hdb, hplaces⟩, by simp [Phase.Kept, Keeps]⟩
      simp [hrest]
  | _ => exact ha.elim

/-- With the account there and no profile write outstanding, calls can only fail. -/
theorem settled_step {a : Action} (hcalls : OnlyCreates role email w.calls)
    (hnow : email ∈ w.accounts) (ha : OfScreen role email a) (hs : step w a = some w') :
    OnlyCreates role email w'.calls ∧ w'.accounts = w.accounts ∧ w'.db = w.db ∧ Keeps role a := by
  cases a with
  | finishTapped r e password =>
    obtain ⟨rfl, rfl⟩ := ha
    obtain rfl := step_finishTapped.mp hs
    exact ⟨hcalls.cons password, rfl, rfl, trivial⟩
  | createUserCompleted password p => exact absurd hs (not_createUserCompleted ha.2 hnow)
  | setDataCompleted p ref =>
    exact absurd (step_setDataCompleted.mp hs).1 (hcalls.setData_notMem p ref)
  | failed call =>
    obtain ⟨hc, rfl⟩ := step_failed.mp hs
    obtain ⟨password, rfl⟩ := hcalls call hc
    exact ⟨hcalls.erase _, rfl, rfl, trivial⟩
  | _ => exact ha.elim

theorem phase_step {phase : Phase} {a : Action} (h : phase.Holds role email w₀ w)
    (ha : OfScreen role email a) (hs : step w a = some w') :
    Advances role email w₀ w' phase a := by
  cases phase with
  | idle => exact idle_step h ha hs
  | writing p ref => exact writing_step h ha hs
  | written p ref =>
    obtain ⟨hcalls, ⟨hbefore, hnow⟩, hdb, hplaces⟩ := h
    obtain ⟨hcalls', hacc, hdb', hkeeps⟩ := settled_step hcalls hnow ha hs
    exact ⟨.written p ref, ⟨hcalls', ⟨hbefore, hacc ▸ hnow⟩, hdb'.trans hdb, hplaces⟩,
      by simp [hkeeps]⟩
  | lost =>
    obtain ⟨hcalls, ⟨hbefore, hnow⟩, hdb⟩ := h
    obtain ⟨hcalls', hacc, hdb', hkeeps⟩ := settled_step hcalls hnow ha hs
    exact ⟨.lost, ⟨hcalls', ⟨hbefore, hacc ▸ hnow⟩, hdb'.trans hdb⟩, by simp [hkeeps]⟩

/-! ## Runs of the screen -/

theorem phase_run (hcalls : w₀.calls = 0) (h : Runs.run step w₀ t = some w)
    (ht : ∀ a ∈ t, OfScreen role email a) :
    ∃ phase : Phase, phase.Holds role email w₀ w ∧
      (phase.Kept role ↔ ∀ a ∈ t, Keeps role a) := by
  refine Runs.run_induction (P := fun t w => (∀ a ∈ t, OfScreen role email a) →
    ∃ phase : Phase, phase.Holds role email w₀ w ∧
      (phase.Kept role ↔ ∀ a ∈ t, Keeps role a)) ?_ ?_ h ht
  · exact fun _ => ⟨.idle, ⟨by simp [OnlyCreates, hcalls], rfl, rfl⟩, by simp [Phase.Kept]⟩
  · intro t w a w' _ ih hs ht
    obtain ⟨phase, hphase, hkept⟩ := ih fun b hb => ht b (by simp [hb])
    obtain ⟨phase', hphase', hkept'⟩ := phase_step hphase (ht a (by simp)) hs
    refine ⟨phase', hphase', ?_⟩
    rw [hkept', hkept]
    simp [or_imp, forall_and]

/-! ## States with no call outstanding -/

theorem docData_email (p : Profile) : p.docData.string? "email" = some p.email := by
  obtain ⟨email, texts | ⟨username, genreTags⟩⟩ := p
  · simp [Profile.docData, Document.string?]
  · simp [Profile.docData, ListenerRegistrationViewController.docData, Document.string?]

theorem hasProfile_setData_iff {p : Profile} {ref : DocumentReference} (hp : p.email = email)
    (hnone : ¬ HasProfile role email w) (hdb : w'.db = w.db.setData ref p.docData) :
    HasProfile role email w' ↔ ref.parent = role.collection := by
  unfold HasProfile at hnone ⊢
  rw [hdb, Database.collection_setData]
  constructor
  · intro h
    by_contra hne
    rw [if_neg (Ne.symm hne)] at h
    exact hnone h
  · intro hparent
    rw [if_pos hparent.symm]
    exact ⟨ref.id, p.docData, AList.lookup_insert _, hp ▸ docData_email p⟩

theorem hasProfile_of_db_eq (hdb : w'.db = w.db) :
    HasProfile role email w' ↔ HasProfile role email w := by
  rw [HasProfile, HasProfile, hdb]

theorem consistent_iff_kept {phase : Phase} (h₀ : Consistent role email w₀) (hq : w.calls = 0)
    (h : phase.Holds role email w₀ w) : Consistent role email w ↔ phase.Kept role := by
  cases phase with
  | idle =>
    obtain ⟨-, hacc, hdb⟩ := h
    simpa [Phase.Kept, Consistent, hacc, hasProfile_of_db_eq hdb] using h₀
  | writing p ref =>
    obtain ⟨⟨rest, hrest, -⟩, -⟩ := h
    simp [hq] at hrest
  | written p ref =>
    obtain ⟨-, hopened, hdb, hplaces⟩ := h
    have hnone : ¬ HasProfile role email w₀ := fun hp => hopened.before (h₀.mpr hp)
    simp [Consistent, Phase.Kept, hopened.now, hasProfile_setData_iff hplaces.email hnone hdb]
  | lost =>
    obtain ⟨-, hopened, hdb⟩ := h
    have hnone : ¬ HasProfile role email w₀ := fun hp => hopened.before (h₀.mpr hp)
    simp [Consistent, Phase.Kept, hopened.now, hasProfile_of_db_eq hdb, hnone]

/-- A further attempt whose calls succeed where they can: only `createUser` with an email that
has an account cannot. -/
def retry (w : World) (password : String) (p : Profile) (ref : DocumentReference) : List Action :=
  if p.email ∈ w.accounts then
    [.finishTapped p.entry.role p.email password,
      .failed (.createUser p.entry.role p.email password)]
  else register password p ref

theorem run_retry (w : World) (password : String) {p : Profile} {ref : DocumentReference}
    (href : p.reference = some ref) :
    Runs.run step w (retry w password p ref) = some (if p.email ∈ w.accounts then w else
      { w with accounts := w.accounts.insert p.email password
               db := w.db.setData ref p.docData }) := by
  unfold retry
  split
  case isTrue => simp [step, World.answered, World.issue]
  case isFalse hnew =>
    simp [register, step, World.answered, World.issue, Accounts.createUser, hnew,
      World.createUserCompletion, href]

/-- With no call outstanding, the account is there if and only if the profile is, and a further
attempt ends with both. -/
structure NoHalfMade (role : Role) (email : String) (w : World) : Prop where
  consistent : Consistent role email w
  retried : ∀ password p id, p.entry.role = role → p.email = email →
    p.reference = some ⟨role.collection, id⟩ →
    ∃ w', Runs.run step w (retry w password p ⟨role.collection, id⟩) = some w' ∧
      email ∈ w'.accounts ∧ HasProfile role email w'

theorem noHalfMade_iff_consistent : NoHalfMade role email w ↔ Consistent role email w := by
  refine ⟨NoHalfMade.consistent, fun h => ⟨h, ?_⟩⟩
  rintro password p id - rfl href
  refine ⟨_, run_retry w password href, ?_⟩
  split
  case isTrue hacc => exact ⟨hacc, h.mp hacc⟩
  case isFalse hnew =>
    exact ⟨(AList.mem_insert _).mpr (.inl rfl),
      (hasProfile_setData_iff rfl (fun hp => hnew (h.mpr hp)) rfl).mpr rfl⟩

/-- **Half-made accounts.** With no call outstanding, none is left behind exactly when no `setData`
of the screen failed and the accepted username addressed a document of the role's collection. -/
theorem noHalfMade_iff (hcalls : w₀.calls = 0) (h₀ : Consistent role email w₀)
    (h : Runs.run step w₀ t = some w) (ht : ∀ a ∈ t, OfScreen role email a) (hq : w.calls = 0) :
    NoHalfMade role email w ↔ ∀ a ∈ t, Keeps role a := by
  obtain ⟨phase, hphase, hkept⟩ := phase_run hcalls h ht
  rw [noHalfMade_iff_consistent, consistent_iff_kept h₀ hq hphase, hkept]

theorem consistent_init (role : Role) (email : String) : Consistent role email {} := by
  simp [Consistent, HasProfile, Database.collection]

theorem noHalfMade_djProfile :
    NoHalfMade .host "dj@waxxy.live"
      { accounts := (∅ : Accounts).insert "dj@waxxy.live" "secret", db := djStore } ↔
    ∀ a ∈ register "secret" djProfile djReference, Keeps .host a :=
  noHalfMade_iff rfl (consistent_init _ _) rfl
    (by simp [register, OfScreen, djProfile, Entry.role]) rfl

/-- The profile write fails after the account was made. -/
theorem setData_failure_half_made :
    ¬ ∀ (role : Role) (email : String) (t : List Action) (w : World),
      Runs.run step {} t = some w → (∀ a ∈ t, OfScreen role email a) → w.calls = 0 →
      NoHalfMade role email w := by
  intro h
  let t : List Action := [.finishTapped .host "dj@waxxy.live" "secret",
    .createUserCompleted "secret" djProfile, .failed (.setData djProfile djReference)]
  let w : World := { accounts := (∅ : Accounts).insert "dj@waxxy.live" "secret" }
  have hhalf := (h .host "dj@waxxy.live" t w rfl
    (by simp [t, OfScreen, djProfile, Entry.role]) rfl).consistent
  obtain ⟨id, data, hd, -⟩ := hhalf.mp (by decide)
  simp [w, Database.collection] at hd

end WaxxyLive.Clients
