import Mathlib.Logic.Function.Basic
import Mathlib.Data.List.Induction
import WaxxyLive.Lib.WriteLog

/-!
# Registries

A registry holds an entry at some of its keys. `register` overwrites the entry
at a key with a profile and no attachment, `attach` and `detach` set and clear
the attachment of an entry that is there, and no event removes an entry. So the
profile at a key is that of the last registration there.
-/

namespace Registry

variable {κ π ς : Type*}

structure Entry (π ς : Type*) where
  profile : π
  attachment : Option ς

inductive Event (κ π ς : Type*) where
  | register (k : κ) (profile : π)
  | attach (k : κ) (attachment : ς)
  | detach (k : κ)

abbrev Directory (κ π ς : Type*) := κ → Option (Entry π ς)

variable [DecidableEq κ]

def exec (d : Directory κ π ς) : Event κ π ς → Directory κ π ς
  | .register k profile => Function.update d k (some ⟨profile, none⟩)
  | .attach k a => Function.update d k ((d k).map fun e => { e with attachment := some a })
  | .detach k => Function.update d k ((d k).map fun e => { e with attachment := none })

/-- The registry after a list of events, oldest first. -/
def directory (es : List (Event κ π ς)) : Directory κ π ς := es.foldl exec fun _ => none

/-- No event removes an entry. -/
theorem exec_isSome {d : Directory κ π ς} {e : Event κ π ς} {k : κ} (h : (d k).isSome) :
    (exec d e k).isSome := by
  cases e with
  | register k' p | attach k' a | detach k' =>
    by_cases hk : k = k'
    · subst hk
      simp [exec, h]
    · simpa [exec, Function.update_of_ne hk] using h

/-- A registration: the key and the profile written there. -/
structure Write (κ π : Type*) where
  key : κ
  profile : π
  deriving DecidableEq

omit [DecidableEq κ] in
/-- The registrations of a list of events, in order. -/
def writes (es : List (Event κ π ς)) : List (Write κ π) :=
  es.filterMap fun
    | .register k p => some ⟨k, p⟩
    | .attach _ _ | .detach _ => none

/-- The profile at a key is that of the last registration there. -/
theorem directory_profile (es : List (Event κ π ς)) (k : κ) :
    (directory es k).map (fun e => ⟨k, e.profile⟩) =
      WriteLog.lastWrite Write.key (writes es) k := by
  induction es using List.reverseRecOn with
  | nil => rfl
  | append_singleton es e ih =>
    have hfold : directory (es ++ [e]) = exec (directory es) e := by simp [directory]
    rw [hfold]
    cases e with
    | register k' p =>
      by_cases hk : k = k'
      · subst hk
        simp [exec, writes]
      · simpa [exec, writes, Function.update_of_ne hk, Ne.symm hk] using ih
    | attach k' a | detach k' =>
      by_cases hk : k = k'
      · subst hk
        simpa [exec, writes, Function.comp_def] using ih
      · simpa [exec, writes, Function.update_of_ne hk] using ih

end Registry
