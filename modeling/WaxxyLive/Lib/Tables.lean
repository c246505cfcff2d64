import Mathlib.Data.List.Basic
import Mathlib.Data.List.Perm.Basic

/-!
# Tables whose entries are named by their place

A table grows at its end and an entry is changed in place, so a name stays
good. `filterMap_modify_perm` says what a change does to a reading of all
entries.
-/

namespace Tables

variable {α β : Type*} {l : List α} {i : Nat} {a : α} {f : α → α} {g : α → Option β}

/-- Changing the entry that was just added. -/
theorem modify_concat (l : List α) (a : α) (f : α → α) :
    (l ++ [a]).modify l.length f = l ++ [f a] := by
  induction l with
  | nil => rfl
  | cons b l ih => simpa using ih

/-- A change that gives an entry without a reading the reading `b` adds `b`. -/
theorem filterMap_modify_perm {b : β} (h : l[i]? = some a) (ha : g a = none)
    (hb : g (f a) = some b) : ((l.modify i f).filterMap g).Perm (b :: l.filterMap g) := by
  induction l generalizing i with
  | nil => simp at h
  | cons c l ih =>
    cases i with
    | zero =>
      obtain rfl : c = a := by simpa using h
      simp [ha, hb]
    | succ i =>
      have hperm := ih (show l[i]? = some a by simpa using h)
      rw [List.modify_succ_cons]
      cases hc : g c with
      | none => simpa [hc] using hperm
      | some d =>
        rw [List.filterMap_cons_some hc, List.filterMap_cons_some hc]
        exact (hperm.cons d).trans (List.Perm.swap b d _)

/-- A change that leaves an entry without a reading leaves the readings as they are. -/
theorem filterMap_modify_of_none (h : l[i]? = some a) (ha : g a = none) (hb : g (f a) = none) :
    (l.modify i f).filterMap g = l.filterMap g := by
  induction l generalizing i with
  | nil => simp at h
  | cons c l ih =>
    cases i with
    | zero =>
      obtain rfl : c = a := by simpa using h
      simp [ha, hb]
    | succ i =>
      have heq := ih (show l[i]? = some a by simpa using h)
      rw [List.modify_succ_cons]
      cases hc : g c with
      | none => simpa [hc] using heq
      | some d => rw [List.filterMap_cons_some hc, List.filterMap_cons_some hc, heq]

end Tables
