import Mathlib.Data.List.Basic
import Mathlib.Tactic.Ring

/-!
# Naturals as bytes

`be w n` and `le w n` are the `w` bytes of `n`, most and least significant
first; `unbe` and `unle` read them back. `takeN` reads a given number of bytes
and fails when there are fewer.
-/

namespace Bytes

/-- The `w` bytes of `n`, most significant first; higher bits are dropped. -/
def be : Nat → Nat → List UInt8
  | 0, _ => []
  | w + 1, n => UInt8.ofNat (n / 256 ^ w) :: be w n

def unbe : List UInt8 → Nat
  | [] => 0
  | b :: bs => b.toNat * 256 ^ bs.length + unbe bs

/-- The `w` bytes of `n`, least significant first; higher bits are dropped. -/
def le : Nat → Nat → List UInt8
  | 0, _ => []
  | w + 1, n => UInt8.ofNat n :: le w (n / 256)

def unle : List UInt8 → Nat
  | [] => 0
  | b :: bs => b.toNat + 256 * unle bs

@[simp] theorem length_be (w n : Nat) : (be w n).length = w := by
  induction w with
  | zero => rfl
  | succ w ih => simp [be, ih]

@[simp] theorem length_le (w n : Nat) : (le w n).length = w := by
  induction w generalizing n with
  | zero => rfl
  | succ w ih => simp [le, ih]

theorem unbe_be (w n : Nat) : unbe (be w n) = n % 256 ^ w := by
  induction w with
  | zero => simp [be, unbe, Nat.mod_one]
  | succ w ih =>
    have hb : (UInt8.ofNat (n / 256 ^ w)).toNat = n / 256 ^ w % 256 := UInt8.toNat_ofNat'
    rw [be, unbe, length_be, ih, hb, Nat.mod_pow_succ]
    ring

theorem unbe_be_of_lt {w n : Nat} (h : n < 256 ^ w) : unbe (be w n) = n := by
  rw [unbe_be, Nat.mod_eq_of_lt h]

/-- What lies above the bytes does not show in them. -/
theorem be_add_mul (w k n : Nat) : be w (k * 256 ^ w + n) = be w n := by
  induction w generalizing k with
  | zero => rfl
  | succ w ih =>
    have hpos : 0 < 256 ^ w := Nat.pow_pos (by decide)
    have hk : k * 256 ^ (w + 1) + n = n + k * 256 * 256 ^ w := by ring
    have hdiv : (n + k * 256 * 256 ^ w) / 256 ^ w = n / 256 ^ w + k * 256 :=
      Nat.add_mul_div_right _ _ hpos
    have hbyte : UInt8.ofNat (n / 256 ^ w + k * 256) = UInt8.ofNat (n / 256 ^ w) := by
      apply UInt8.toNat_inj.mp
      simp only [UInt8.toNat_ofNat']
      omega
    rw [hk, be, be, hdiv, hbyte, Nat.add_comm n, ih]

theorem unbe_lt (bs : List UInt8) : unbe bs < 256 ^ bs.length := by
  induction bs with
  | nil => simp [unbe]
  | cons b bs ih =>
    have hb : b.toNat * 256 ^ bs.length ≤ 255 * 256 ^ bs.length :=
      Nat.mul_le_mul_right _ (Nat.le_of_lt_succ b.toNat_lt)
    rw [unbe, List.length_cons, pow_succ]
    omega

/-- Bytes are those of the number they are read as. -/
theorem be_unbe (bs : List UInt8) : be bs.length (unbe bs) = bs := by
  induction bs with
  | nil => rfl
  | cons b bs ih =>
    have hpos : 0 < 256 ^ bs.length := Nat.pow_pos (by decide)
    have hdiv : (b.toNat * 256 ^ bs.length + unbe bs) / 256 ^ bs.length = b.toNat := by
      rw [Nat.add_comm, Nat.add_mul_div_right _ _ hpos, Nat.div_eq_of_lt (unbe_lt bs),
        Nat.zero_add]
    rw [List.length_cons, be, unbe, hdiv, be_add_mul, ih, UInt8.ofNat_toNat]

theorem unle_le (w n : Nat) : unle (le w n) = n % 256 ^ w := by
  induction w generalizing n with
  | zero => simp [le, unle, Nat.mod_one]
  | succ w ih =>
    have hb : (UInt8.ofNat n).toNat = n % 256 := UInt8.toNat_ofNat'
    rw [le, unle, ih, hb, pow_succ', Nat.mod_mul]

/-! ## 32-bit words -/

@[simp] theorem ofNat_unbe_be (x : UInt32) : UInt32.ofNat (unbe (be 4 x.toNat)) = x := by
  rw [unbe_be_of_lt (by simpa using x.toNat_lt), UInt32.ofNat_toNat]

@[simp] theorem ofNat_unle_le (x : UInt32) : UInt32.ofNat (unle (le 4 x.toNat)) = x := by
  have hx : x.toNat < 256 ^ 4 := by simpa using x.toNat_lt
  rw [unle_le, Nat.mod_eq_of_lt hx, UInt32.ofNat_toNat]

/-! ## Reading -/

variable {α : Type*} {n : Nat} {l r bs : List α}

/-- The first `n` items and what follows them. -/
def takeN (n : Nat) (bs : List α) : Option (List α × List α) :=
  if n ≤ bs.length then some (bs.take n, bs.drop n) else none

theorem takeN_append (h : l.length = n) : takeN n (l ++ r) = some (l, r) := by
  subst h
  simp [takeN]

@[simp] theorem takeN_zero : takeN 0 bs = some ([], bs) := by
  simp [takeN]

theorem takeN_eq_some : takeN n bs = some (l, r) ↔ bs = l ++ r ∧ l.length = n := by
  constructor
  · intro h
    unfold takeN at h
    split at h
    · obtain ⟨rfl, rfl⟩ : bs.take n = l ∧ bs.drop n = r := by simpa using h
      simpa using ‹n ≤ bs.length›
    · simp at h
  · rintro ⟨rfl, h⟩
    exact takeN_append h

end Bytes
