import Mathlib.Data.List.Basic
import Mathlib.Data.List.Infix

/-!
# Lists that keep the first of equals

`add` appends an element unless an equal one is there, `addAll` a whole list,
with respect to a test `same` that need not be equality. `addAll_eq` says what
is appended; from the empty list it is the elements in order of first
occurrence, `List.eraseDupsBy`.
-/

namespace FirstSeen

variable {α : Type*} (same : α → α → Bool)

def add (l : List α) (a : α) : List α := if l.any (same · a) then l else l ++ [a]

def addAll (l as : List α) : List α := as.foldl (add same) l

/-- No element equals a later one. -/
def Distinct (l : List α) : Prop := l.Pairwise fun a b => same a b = false

variable {same}

/-- Equality of a key is an equivalence. -/
theorem equivalence_key {β : Type*} [BEq β] [LawfulBEq β] (key : α → β) :
    Equivalence fun a b => (key a == key b) = true where
  refl a := beq_self_eq_true (key a)
  symm h := by simpa using (beq_iff_eq.mp h).symm
  trans h h' := by simpa using (beq_iff_eq.mp h).trans (beq_iff_eq.mp h')

theorem same_comm (h : Equivalence fun a b => same a b = true) (a b : α) : same a b = same b a := by
  have hiff : same a b = true ↔ same b a = true := ⟨h.symm, h.symm⟩
  exact Bool.eq_iff_iff.mpr hiff

theorem add_of_seen {l : List α} {a : α} (h : ∃ b ∈ l, same b a) : add same l a = l := by
  have hany : l.any (same · a) = true := List.any_eq_true.mpr h
  simp [add, hany]

theorem add_of_unseen {l : List α} {a : α} (h : ∀ b ∈ l, same b a = false) :
    add same l a = l ++ [a] := by
  have hany : l.any (same · a) = false := by simpa using h
  simp [add, hany]

variable (same) in
/-- Either an equal element is there or none is. -/
theorem seen_or_unseen (l : List α) (a : α) :
    (∃ b ∈ l, same b a) ∨ ∀ b ∈ l, same b a = false := by
  by_cases h : ∃ b ∈ l, same b a
  · exact .inl h
  · right
    intro b hb
    by_contra hs
    exact h ⟨b, hb, by simpa using hs⟩

@[simp] theorem addAll_nil (l : List α) : addAll same l [] = l := rfl

@[simp] theorem addAll_cons (l : List α) (a : α) (as : List α) :
    addAll same l (a :: as) = addAll same (add same l a) as := rfl

theorem addAll_append (l as bs : List α) :
    addAll same l (as ++ bs) = addAll same (addAll same l as) bs :=
  List.foldl_append

/-! ## What is there stays where it is -/

theorem prefix_add (l : List α) (a : α) : l <+: add same l a := by
  rcases seen_or_unseen same l a with h | h
  · rw [add_of_seen h]
  · rw [add_of_unseen h]
    exact List.prefix_append l [a]

theorem prefix_addAll (l as : List α) : l <+: addAll same l as := by
  induction as generalizing l with
  | nil => exact List.prefix_rfl
  | cons a as ih => exact (prefix_add l a).trans (ih (add same l a))

/-- Elements equal to some that are there add nothing. -/
theorem addAll_of_seen {l as : List α} (h : ∀ a ∈ as, ∃ b ∈ l, same b a) :
    addAll same l as = l := by
  induction as with
  | nil => rfl
  | cons a as ih =>
    rw [addAll_cons, add_of_seen (h a (by simp))]
    exact ih fun b hb => h b (by simp [hb])

theorem seen_addAll (hrefl : ∀ a, same a a) {l as : List α} {a : α} (h : a ∈ as) :
    ∃ b ∈ addAll same l as, same b a := by
  induction as generalizing l with
  | nil => simp at h
  | cons c as ih =>
    rcases List.mem_cons.mp h with rfl | h
    · have hadd : ∃ b ∈ add same l a, same b a := by
        rcases seen_or_unseen same l a with hs | hs
        · rwa [add_of_seen hs]
        · rw [add_of_unseen hs]
          exact ⟨a, by simp, hrefl a⟩
      rcases hadd with ⟨b, hb, hs⟩
      exact ⟨b, (prefix_addAll _ as).subset hb, hs⟩
    · exact ih h

theorem mem_addAll {l as : List α} {a : α} (h : a ∈ addAll same l as) : a ∈ l ∨ a ∈ as := by
  induction as generalizing l with
  | nil => exact .inl h
  | cons b as ih =>
    rcases ih h with h | h
    · rcases seen_or_unseen same l b with hs | hs
      · rw [add_of_seen hs] at h
        exact .inl h
      · rw [add_of_unseen hs] at h
        rcases List.mem_append.mp h with h | h
        · exact .inl h
        · exact .inr (List.mem_singleton.mp h ▸ List.mem_cons_self)
    · exact .inr (List.mem_cons_of_mem b h)

/-! ## No two equals -/

theorem distinct_add {l : List α} (h : Distinct same l) (a : α) : Distinct same (add same l a) := by
  rcases seen_or_unseen same l a with hs | hs
  · rwa [add_of_seen hs]
  · rw [add_of_unseen hs]
    exact List.pairwise_append.mpr ⟨h, List.pairwise_singleton _ a, by simpa using hs⟩

theorem distinct_addAll {l : List α} (h : Distinct same l) (as : List α) :
    Distinct same (addAll same l as) := by
  induction as generalizing l with
  | nil => exact h
  | cons a as ih => exact ih (distinct_add h a)

/-- Adding the elements of a list without equals to an empty one gives that list. -/
theorem addAll_of_distinct {l as : List α} (h : Distinct same (l ++ as)) :
    addAll same l as = l ++ as := by
  induction as generalizing l with
  | nil => simp
  | cons a as ih =>
    have hun : ∀ b ∈ l, same b a = false := fun b hb =>
      (List.pairwise_append.mp h).2.2 b hb a (by simp)
    rw [addAll_cons, add_of_unseen hun, ih (by simpa using h)]
    simp

/-! ## Order of first occurrence -/

/-- What a list adds: its elements that equal none there, in order of first occurrence. -/
theorem addAll_eq (hsymm : ∀ a b, same a b = same b a) (l as : List α) :
    addAll same l as = l ++ (as.filter fun a => !l.any (same · a)).eraseDupsBy same := by
  induction as generalizing l with
  | nil => simp
  | cons a as ih =>
    rw [addAll_cons, ih]
    rcases seen_or_unseen same l a with hs | hs
    · have hany : l.any (same · a) = true := List.any_eq_true.mpr hs
      rw [add_of_seen hs, List.filter_cons_of_neg (by simp [hany])]
    · have hany : l.any (same · a) = false := by simpa using hs
      have hfilter : (as.filter fun b => !(l ++ [a]).any (same · b)) =
          as.filter fun b => decide (same b a = false) && !l.any (same · b) := by
        apply List.filter_congr
        intro b _
        simp [hsymm b a, Bool.and_comm]
      rw [add_of_unseen hs, List.filter_cons_of_pos (by simp [hany]), List.eraseDupsBy_cons,
        List.filter_filter, hfilter, List.append_assoc, List.singleton_append]

end FirstSeen
