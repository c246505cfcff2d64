import Mathlib.Order.Bounds.Basic
import Mathlib.Data.List.Find

/-!
# Rounding a request up to a supported value

`cascade` takes the first of the supported values, in ascending order, that is
not below the request, and a default when there is none. `Chosen` says what
such a choice should be; `chosen_cascade_iff` says when the cascade makes it.
-/

namespace Cascade

variable {α : Type*} [LinearOrder α]

def cascade (supported : List α) (default request : α) : α :=
  (supported.find? (request ≤ ·)).getD default

/-- The supported values not below the request. -/
def NotBelow (supported : List α) (request : α) : Set α := {r | r ∈ supported ∧ request ≤ r}

/-- The least supported value not below the request, or the largest one when the request exceeds
them all. -/
def Chosen (supported : List α) (request r : α) : Prop :=
  IsLeast (NotBelow supported request) r ∨
    (∀ s ∈ supported, s < request) ∧ IsGreatest {s | s ∈ supported} r

variable {supported : List α} {default request : α}

theorem cascade_cons (r : α) :
    cascade (r :: supported) default request =
      if request ≤ r then r else cascade supported default request := by
  by_cases h : request ≤ r <;> simp [cascade, h]

/-- In ascending order the first supported value not below the request is the least. -/
theorem isLeast_cascade (hasc : supported.Pairwise (· < ·)) (h : ∃ r ∈ supported, request ≤ r) :
    IsLeast (NotBelow supported request) (cascade supported default request) := by
  induction supported with
  | nil => simp at h
  | cons r supported ih =>
    rcases List.pairwise_cons.mp hasc with ⟨hr, hrest⟩
    rw [cascade_cons]
    split_ifs with hle
    · refine ⟨⟨by simp, hle⟩, fun s hs => ?_⟩
      rcases List.mem_cons.mp hs.1 with rfl | hmem
      · exact le_rfl
      · exact (hr s hmem).le
    · have hsome : ∃ s ∈ supported, request ≤ s := by
        rcases h with ⟨s, hs, hreq⟩
        rcases List.mem_cons.mp hs with rfl | hs
        · exact absurd hreq hle
        · exact ⟨s, hs, hreq⟩
      rcases ih hrest hsome with ⟨⟨hmem, hreq⟩, hleast⟩
      refine ⟨⟨by simp [hmem], hreq⟩, fun s hs => ?_⟩
      rcases List.mem_cons.mp hs.1 with rfl | hmem'
      · exact absurd hs.2 hle
      · exact hleast ⟨hmem', hs.2⟩

theorem cascade_eq_default (h : ∀ r ∈ supported, r < request) :
    cascade supported default request = default := by
  have hnone : supported.find? (request ≤ ·) = none := by
    rw [List.find?_eq_none]
    intro r hr
    simpa using h r hr
  simp [cascade, hnone]

/-- The cascade makes the choice it should exactly when a supported value is not below the request
or its default is the largest one. -/
theorem chosen_cascade_iff (hasc : supported.Pairwise (· < ·)) :
    Chosen supported request (cascade supported default request) ↔
      (∃ r ∈ supported, request ≤ r) ∨ IsGreatest {s | s ∈ supported} default := by
  by_cases h : ∃ r ∈ supported, request ≤ r
  · exact iff_of_true (.inl (isLeast_cascade hasc h)) (.inl h)
  · have habove : ∀ r ∈ supported, r < request := by simpa using h
    rw [cascade_eq_default habove]
    constructor
    · rintro (hleast | hgreatest)
      · exact .inl ⟨default, hleast.1⟩
      · exact .inr hgreatest.2
    · rintro (hsome | hgreatest)
      · exact absurd hsome h
      · exact .inr ⟨habove, hgreatest⟩

/-- Up to the largest supported value the cascade is monotone. -/
theorem cascade_mono {request' : α} (hasc : supported.Pairwise (· < ·))
    (hle : request ≤ request') (h : ∃ r ∈ supported, request' ≤ r) :
    cascade supported default request ≤ cascade supported default request' := by
  have hleast' : IsLeast (NotBelow supported request') (cascade supported default request') :=
    isLeast_cascade hasc h
  have hsome : ∃ r ∈ supported, request ≤ r := by
    rcases h with ⟨r, hr, hreq⟩
    exact ⟨r, hr, hle.trans hreq⟩
  exact (isLeast_cascade hasc hsome).2 ⟨hleast'.1.1, hle.trans hleast'.1.2⟩

end Cascade
