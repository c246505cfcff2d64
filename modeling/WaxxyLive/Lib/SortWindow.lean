import Mathlib.Data.List.Infix
import Mathlib.Data.List.Sort
import Mathlib.Order.Lattice

/-!
# A sorting window

Items pass through a window of `k` places. While it has room it only fills up;
after that every item that comes is sorted in and the first item leaves.
`Timely` says when this window is wide enough: what leaves it is then in order.
-/

namespace SortWindow

variable {α β : Type*} [LinearOrder β] {key : α → β}

/-- A function that sorts by `key`, whatever it does among items of one key. -/
structure Sorter (key : α → β) where
  sort : List α → List α
  perm : ∀ l, (sort l).Perm l
  sorted : ∀ l, (sort l).Pairwise (key · ≤ key ·)

/-- The sorter that keeps items of one key in the order in which they came. -/
def Sorter.insertion (key : α → β) : Sorter key where
  sort l := l.insertionSort (key · ≤ key ·)
  perm l := List.perm_insertionSort _ l
  sorted l := List.pairwise_insertionSort _ l

variable (S : Sorter key) {k : Nat} {xs out w : List α} {x : α}

/-- The window after one more item, and the item that leaves it. -/
def push (k : Nat) (w : List α) (x : α) : List α × Option α :=
  if w.length < k then (w ++ [x], none)
  else ((S.sort (w ++ [x])).tail, (S.sort (w ++ [x])).head?)

/-- No item comes more than `k` places after one that belongs behind it. -/
def Timely (key : α → β) (k : Nat) (xs : List α) : Prop :=
  ∀ p x, p ++ [x] <+: xs → ∀ y ∈ p.take (p.length - k), key y ≤ key x

/-- `xs` came; `out` has left the window and `w` is in it. -/
structure Passed (k : Nat) (xs out w : List α) : Prop where
  perm : (out ++ w).Perm xs
  length_out : out.length = xs.length - k

/-- What has left is in order and belongs before what is in the window. -/
structure Ordered (key : α → β) (out w : List α) : Prop where
  sorted : out.Pairwise (key · ≤ key ·)
  before : ∀ a ∈ out, ∀ b ∈ w, key a ≤ key b

theorem passed_nil : Passed k ([] : List α) [] [] :=
  ⟨List.Perm.refl _, by simp⟩

theorem ordered_nil : Ordered key [] [] :=
  ⟨List.Pairwise.nil, by simp⟩

theorem Passed.length_window (h : Passed k xs out w) : out.length + w.length = xs.length := by
  rw [← List.length_append]
  exact h.perm.length_eq

theorem sort_concat_ne_nil : S.sort (w ++ [x]) ≠ [] := by
  intro hnil
  have hlen := (S.perm (w ++ [x])).length_eq
  rw [hnil] at hlen
  simp at hlen

theorem Passed.push (h : Passed k xs out w) :
    Passed k (xs ++ [x]) (out ++ (push S k w x).2.toList) (push S k w x).1 := by
  have hlen := h.length_window
  have hout := h.length_out
  unfold SortWindow.push
  split
  · next hroom =>
    refine ⟨?_, ?_⟩
    · simpa using h.perm.append_right [x]
    · simp
      omega
  · next hfull =>
    obtain ⟨a, l, hal⟩ := List.exists_cons_of_ne_nil (sort_concat_ne_nil S (w := w) (x := x))
    have hperm : (a :: l).Perm (w ++ [x]) := hal ▸ S.perm (w ++ [x])
    simp only [hal, List.head?_cons, Option.toList_some, List.tail_cons]
    refine ⟨?_, ?_⟩
    · calc (out ++ [a] ++ l).Perm (out ++ (w ++ [x])) := by
            simpa using hperm.append_left out
        _ |>.Perm (xs ++ [x]) := by
            simpa using h.perm.append_right [x]
    · simp
      omega

/-- A timely item belongs behind everything that has left. -/
theorem Ordered.le_of_timely (ho : Ordered key out w) (h : Passed k xs out w)
    (hx : ∀ y ∈ xs.take (xs.length - k), key y ≤ key x) : ∀ a ∈ out, key a ≤ key x := by
  by_contra hnot
  push Not at hnot
  obtain ⟨a, ha, hlt⟩ := hnot
  have hlen := h.length_window
  have hout := h.length_out
  -- Nothing in the window is at or below `x`, so what is has left, without `a`.
  have hw : w.countP (fun y => decide (key y ≤ key x)) = 0 := by
    rw [List.countP_eq_zero]
    intro b hb
    simpa using lt_of_lt_of_le hlt (ho.before a ha b hb)
  have ho' : out.countP (fun y => decide (key y ≤ key x)) < out.length := by
    refine lt_of_le_of_ne List.countP_le_length fun heq => ?_
    have hax := List.countP_eq_length.mp heq a ha
    exact absurd (by simpa using hax) (not_le_of_gt hlt)
  have hxs : xs.countP (fun y => decide (key y ≤ key x)) < out.length := by
    rw [← h.perm.countP_eq, List.countP_append, hw]
    omega
  have htake : (xs.take (xs.length - k)).countP (fun y => decide (key y ≤ key x)) =
      xs.length - k := by
    rw [List.countP_eq_length.mpr fun y hy => by simpa using hx y hy, List.length_take]
    omega
  have hle : (xs.take (xs.length - k)).countP (fun y => decide (key y ≤ key x)) ≤
      xs.countP (fun y => decide (key y ≤ key x)) :=
    (List.take_sublist (xs.length - k) xs).countP_le
  omega

theorem Ordered.push (ho : Ordered key out w) (h : Passed k xs out w)
    (hx : ∀ y ∈ xs.take (xs.length - k), key y ≤ key x) :
    Ordered key (out ++ (push S k w x).2.toList) (push S k w x).1 := by
  have hlen := h.length_window
  have hout := h.length_out
  unfold SortWindow.push
  split
  · next hroom =>
    obtain rfl : out = [] := List.length_eq_zero_iff.mp (by omega)
    exact ⟨by simp, by simp⟩
  · next hfull =>
    have hle := ho.le_of_timely h hx
    obtain ⟨a, l, hal⟩ := List.exists_cons_of_ne_nil (sort_concat_ne_nil S (w := w) (x := x))
    have hperm : (a :: l).Perm (w ++ [x]) := hal ▸ S.perm (w ++ [x])
    have hsorted : (a :: l).Pairwise (key · ≤ key ·) := hal ▸ S.sorted (w ++ [x])
    have hbefore : ∀ b ∈ out, ∀ c ∈ a :: l, key b ≤ key c := by
      intro b hb c hc
      rcases List.mem_append.mp (hperm.mem_iff.mp hc) with hw | hxc
      · exact ho.before b hb c hw
      · obtain rfl : c = x := by simpa using hxc
        exact hle b hb
    simp only [hal, List.head?_cons, Option.toList_some, List.tail_cons]
    refine ⟨?_, ?_⟩
    · rw [List.pairwise_append]
      refine ⟨ho.sorted, by simp, fun b hb c hc => hbefore b hb c ?_⟩
      obtain rfl : c = a := by simpa using hc
      exact List.mem_cons_self
    · intro b hb c hc
      rcases List.mem_append.mp hb with hb | hb
      · exact hbefore b hb c (List.mem_cons_of_mem _ hc)
      · obtain rfl : b = a := by simpa using hb
        exact List.rel_of_pairwise_cons hsorted hc

theorem Timely.of_isPrefix {ys : List α} (h : Timely key k xs) (hp : ys <+: xs) :
    Timely key k ys :=
  fun p x hx => h p x (hx.trans hp)

theorem timely_iff : Timely key k xs ↔
    ∀ i, ∀ h : i < xs.length, ∀ y ∈ xs.take (i - k), key y ≤ key xs[i] := by
  constructor
  · intro ht i hi y hy
    refine ht (xs.take i) xs[i] ?_ y ?_
    · rw [List.take_concat_get' xs i hi]
      exact List.take_prefix (i + 1) xs
    · rw [List.take_take, List.length_take]
      convert hy using 2
      omega
  · rintro h p x ⟨rest, rfl⟩ y hy
    have hx := h p.length (by simp) y
    simp only [List.append_assoc] at hx ⊢
    rw [List.take_append_of_le_length (Nat.sub_le _ _)] at hx
    simpa using hx hy

end SortWindow
