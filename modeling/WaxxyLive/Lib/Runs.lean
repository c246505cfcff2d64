import Mathlib.Data.List.Induction

/-!
# Runs of a partial step function

A system is a function `step : σ → α → Option σ` from a state and an action to
the next state, `none` where the action is not enabled. `run` folds it over a
list of actions, oldest first. The rules below carry a property along a run:

* `run_induction`: a relation between the actions taken so far and the state
  reached, kept by appending one enabled action;
* `invariant`, `invariant_along`: a state property kept by every step, or by
  every step that meets a condition on the state before it;
* `progress_along`: a state property under which every such step is enabled;
* `observed_concat`, `mem_observed_along`: what is observed of the steps of a run;
* `progress_observed`: a run to its end, with what is observed of it;
* `simulation`: a total abstract machine follows a run, taking for each action
  the abstract events it stands for.
-/

namespace Runs

variable {σ τ α β : Type*}

/-- Take the actions in order; `none` as soon as one of them is not enabled. -/
def run (step : σ → α → Option σ) : σ → List α → Option σ
  | s, [] => some s
  | s, a :: t => (step s a).bind fun s' => run step s' t

variable {step : σ → α → Option σ}

@[simp] theorem run_nil (s : σ) : run step s [] = some s := rfl

@[simp] theorem run_cons (s : σ) (a : α) (t : List α) :
    run step s (a :: t) = (step s a).bind fun s' => run step s' t := rfl

theorem run_append (s : σ) (t u : List α) :
    run step s (t ++ u) = (run step s t).bind fun s' => run step s' u := by
  induction t generalizing s with
  | nil => rfl
  | cons a t ih =>
    cases h : step s a with
    | none => simp [h]
    | some s' => simp [h, ih s']

theorem run_concat {s s'' : σ} {t : List α} {a : α} (h : run step s (t ++ [a]) = some s'') :
    ∃ s', run step s t = some s' ∧ step s' a = some s'' := by
  rw [run_append] at h
  obtain ⟨s', hs', h⟩ := Option.bind_eq_some_iff.mp h
  refine ⟨s', hs', ?_⟩
  simpa using h

/-- A relation between the actions taken and the state reached holds along a
run when it holds at its start and one more enabled action keeps it. -/
theorem run_induction {s₀ : σ} {P : List α → σ → Prop} (hinit : P [] s₀)
    (hstep : ∀ t s a s', run step s₀ t = some s → P t s → step s a = some s' → P (t ++ [a]) s') :
    ∀ {t s}, run step s₀ t = some s → P t s := by
  intro t
  induction t using List.reverseRecOn with
  | nil =>
    intro s h
    obtain rfl : s₀ = s := by simpa using h
    exact hinit
  | append_singleton t a ih =>
    intro s h
    obtain ⟨s', hs', ha⟩ := run_concat h
    exact hstep t s' a s hs' (ih hs') ha

/-- A state property that every step keeps holds after every run. -/
theorem invariant {I : σ → Prop} (hstep : ∀ s a s', I s → step s a = some s' → I s')
    {s₀ s : σ} {t : List α} (h₀ : I s₀) (h : run step s₀ t = some s) : I s :=
  run_induction (P := fun _ s => I s) h₀ (fun _ s a s' _ hi hs => hstep s a s' hi hs) h

/-! ## Runs whose steps meet a condition -/

/-- Every action of the run meets `C` in the state it is taken in. -/
def Along (step : σ → α → Option σ) (C : σ → α → Prop) : σ → List α → Prop
  | _, [] => True
  | s, a :: t => C s a ∧ ∀ s', step s a = some s' → Along step C s' t

theorem along_cons {C : σ → α → Prop} {s s' : σ} {a : α} {t : List α} (hC : C s a)
    (hs : step s a = some s') (ht : Along step C s' t) : Along step C s (a :: t) :=
  ⟨hC, fun _ h => Option.some.inj (hs.symm.trans h) ▸ ht⟩

/-- A state property kept by every step that meets `C` holds after every run
whose steps all meet it. -/
theorem invariant_along {C : σ → α → Prop} {I : σ → Prop}
    (hstep : ∀ s a s', C s a → I s → step s a = some s' → I s')
    {s₀ s : σ} {t : List α} (hC : Along step C s₀ t) (h₀ : I s₀)
    (h : run step s₀ t = some s) : I s := by
  induction t generalizing s₀ with
  | nil =>
    obtain rfl : s₀ = s := by simpa using h
    exact h₀
  | cons a t ih =>
    obtain ⟨s', hs', ht⟩ := Option.bind_eq_some_iff.mp h
    exact ih (hC.2 s' hs') (hstep s₀ a s' hC.1 h₀ hs') ht

/-- When, besides, every such step is enabled, the run gets to its end. -/
theorem progress_along {C : σ → α → Prop} {I : σ → Prop}
    (hstep : ∀ s a, C s a → I s → ∃ s', step s a = some s' ∧ I s') {s₀ : σ} {t : List α}
    (hC : Along step C s₀ t) (h₀ : I s₀) : ∃ s, run step s₀ t = some s ∧ I s := by
  induction t generalizing s₀ with
  | nil => exact ⟨s₀, rfl, h₀⟩
  | cons a t ih =>
    rcases hstep s₀ a hC.1 h₀ with ⟨s', hs', hi⟩
    rcases ih (hC.2 s' hs') hi with ⟨s, hs, hi'⟩
    exact ⟨s, by simp [hs', hs], hi'⟩

theorem along_iff_prefix {C : σ → α → Prop} {s₀ : σ} {t : List α} :
    Along step C s₀ t ↔
      ∀ u a s, u ++ [a] <+: t → run step s₀ u = some s → C s a := by
  induction t generalizing s₀ with
  | nil => simp [Along]
  | cons b t ih =>
    constructor
    · rintro ⟨hb, ht⟩ u a s hu hs
      cases u with
      | nil =>
        obtain ⟨rfl, -⟩ : a = b ∧ [] <+: t := by simpa using hu
        obtain rfl : s₀ = s := by simpa using hs
        exact hb
      | cons c u =>
        obtain ⟨rfl, hpre⟩ := List.cons_prefix_cons.mp hu
        rcases Option.bind_eq_some_iff.mp hs with ⟨s', hs', hs⟩
        exact ih.mp (ht s' hs') u a s hpre hs
    · intro h
      refine ⟨h [] b s₀ (by simp) rfl, fun s' hs' => ih.mpr ?_⟩
      intro u a s hu hs
      exact h (b :: u) a s (List.cons_prefix_cons.mpr ⟨rfl, hu⟩) (by simp [hs', hs])

theorem along_of_isPrefix {C : σ → α → Prop} {s₀ : σ} {t u : List α} (h : Along step C s₀ t)
    (hu : u <+: t) : Along step C s₀ u :=
  along_iff_prefix.mpr fun v a s hv hs => along_iff_prefix.mp h v a s (hv.trans hu) hs

/-! ## Observations -/

/-- What `obs` shows of each action in the state it is taken in, in order. -/
def observed (step : σ → α → Option σ) (obs : σ → α → List β) : σ → List α → List β
  | _, [] => []
  | s, a :: t => obs s a ++ (step s a).elim [] fun s' => observed step obs s' t

variable {obs : σ → α → List β}

theorem observed_append {s s' : σ} {t u : List α} (h : run step s t = some s') :
    observed step obs s (t ++ u) = observed step obs s t ++ observed step obs s' u := by
  induction t generalizing s with
  | nil =>
    obtain rfl : s = s' := by simpa using h
    rfl
  | cons a t ih =>
    obtain ⟨r, hr, ht⟩ := Option.bind_eq_some_iff.mp h
    simp [observed, hr, ih ht]

theorem observed_concat {s s' : σ} {t : List α} (h : run step s t = some s') (a : α) :
    observed step obs s (t ++ [a]) = observed step obs s t ++ obs s' a := by
  rw [observed_append h]
  cases hs : step s' a <;> simp [observed, hs]

/-- What is observed in a run whose steps all meet `C` is observed at a step that meets it. -/
theorem mem_observed_along {C : σ → α → Prop} {s₀ : σ} {t : List α} {b : β}
    (hC : Along step C s₀ t) (hb : b ∈ observed step obs s₀ t) : ∃ s a, C s a ∧ b ∈ obs s a := by
  induction t generalizing s₀ with
  | nil => simp [observed] at hb
  | cons a t ih =>
    rcases List.mem_append.mp hb with hb | hb
    · exact ⟨s₀, a, hC.1, hb⟩
    · cases hs : step s₀ a with
      | none => simp [hs] at hb
      | some s' =>
        rw [hs] at hb
        exact ih (hC.2 s' hs) hb

/-- Forward simulation: `R` relates the state to an abstract state, and each
enabled action is matched by the abstract events `obs` reads off it. -/
theorem simulation {exec : τ → β → τ} {obs : α → List β} {R : σ → τ → Prop}
    (hstep : ∀ s a s' d, R s d → step s a = some s' → R s' ((obs a).foldl exec d))
    {s₀ s : σ} {d₀ : τ} {t : List α} (h₀ : R s₀ d₀) (h : run step s₀ t = some s) :
    R s ((t.flatMap obs).foldl exec d₀) :=
  run_induction (P := fun t s => R s ((t.flatMap obs).foldl exec d₀)) h₀
    (fun t s a s' _ hR hs => by simpa [List.flatMap_append] using hstep s a s' _ hR hs) h

end Runs
