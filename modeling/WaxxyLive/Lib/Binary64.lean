import Mathlib.Data.Nat.Log
import Mathlib.Tactic.Ring

/-!
# Integers as double precision numbers

A double is kept as its 64 bits: a sign, eleven bits of exponent and fifty-two
of fraction. `ofInt` gives the bits of an integer and `truncate` the integer
part of any number that has one. Integers below `2 ^ 53` come back unchanged.
-/

namespace Binary64

/-- The bits of `n`, exact below `2 ^ 53`. -/
def ofNat (n : Nat) : Nat :=
  if n = 0 then 0 else (n.log2 + 1023) * 2 ^ 52 + (n * 2 ^ (52 - n.log2) - 2 ^ 52)

def ofInt (n : Int) : UInt64 :=
  UInt64.ofNat ((if n < 0 then 2 ^ 63 else 0) + ofNat n.natAbs)

def exponent (bits : Nat) : Nat := bits / 2 ^ 52 % 2 ^ 11

/-- What stands before the point, the sign aside. -/
def magnitude (bits : Nat) : Nat :=
  if exponent bits < 1023 then 0
  else if exponent bits ≤ 1075 then (2 ^ 52 + bits % 2 ^ 52) / 2 ^ (1075 - exponent bits)
  else (2 ^ 52 + bits % 2 ^ 52) * 2 ^ (exponent bits - 1075)

/-- The number cut to an integer; infinities and what is no number have none. -/
def truncate (x : UInt64) : Option Int :=
  if exponent x.toNat = 2047 then none
  else some (if x.toNat < 2 ^ 63 then magnitude x.toNat else -magnitude x.toNat)

variable {n : Nat}

/-- The fields of a positive integer: its exponent, and a significand that
starts with the bit left out. -/
theorem ofNat_eq (hpos : n ≠ 0) (hn : n < 2 ^ 53) :
    ∃ k f, k ≤ 52 ∧ f < 2 ^ 52 ∧ ofNat n = (k + 1023) * 2 ^ 52 + f ∧
      2 ^ 52 + f = n * 2 ^ (52 - k) := by
  have hk : n.log2 ≤ 52 := by
    have hlog := (Nat.log2_lt hpos).mpr hn
    omega
  have hlow : 2 ^ 52 ≤ n * 2 ^ (52 - n.log2) := by
    calc 2 ^ 52 = 2 ^ n.log2 * 2 ^ (52 - n.log2) := by rw [← pow_add, Nat.add_sub_cancel' hk]
      _ ≤ n * 2 ^ (52 - n.log2) := Nat.mul_le_mul_right _ (Nat.log2_self_le hpos)
  have hhigh : n * 2 ^ (52 - n.log2) < 2 ^ 53 := by
    calc n * 2 ^ (52 - n.log2) < 2 ^ (n.log2 + 1) * 2 ^ (52 - n.log2) :=
          Nat.mul_lt_mul_of_pos_right Nat.lt_log2_self (Nat.pow_pos (by decide))
      _ = 2 ^ 53 := by rw [← pow_add]; congr 1; omega
  refine ⟨n.log2, n * 2 ^ (52 - n.log2) - 2 ^ 52, hk, by omega, ?_, by omega⟩
  rw [ofNat, if_neg hpos]

theorem ofNat_lt (hn : n < 2 ^ 53) : ofNat n < 2 ^ 63 := by
  by_cases hpos : n = 0
  · simp [hpos, ofNat]
  · obtain ⟨k, f, hk, hf, heq, -⟩ := ofNat_eq hpos hn
    rw [heq]
    omega

/-- No positive integer has small bits. -/
theorem le_ofNat (hpos : n ≠ 0) (hn : n < 2 ^ 53) : 1023 * 2 ^ 52 ≤ ofNat n := by
  obtain ⟨k, f, -, -, heq, -⟩ := ofNat_eq hpos hn
  rw [heq]
  omega

/-- The sign bit does not show in the fields. -/
theorem exponent_sign (s bits : Nat) : exponent (s * 2 ^ 63 + bits) = exponent bits := by
  unfold exponent
  omega

theorem magnitude_sign (s bits : Nat) : magnitude (s * 2 ^ 63 + bits) = magnitude bits := by
  have hfraction : (s * 2 ^ 63 + bits) % 2 ^ 52 = bits % 2 ^ 52 := by omega
  simp only [magnitude, exponent_sign, hfraction]

theorem exponent_ofNat (hn : n < 2 ^ 53) : exponent (ofNat n) < 2047 := by
  by_cases hpos : n = 0
  · simp [hpos, ofNat, exponent]
  · obtain ⟨k, f, hk, hf, heq, -⟩ := ofNat_eq hpos hn
    rw [heq, exponent]
    omega

theorem magnitude_ofNat (hn : n < 2 ^ 53) : magnitude (ofNat n) = n := by
  by_cases hpos : n = 0
  · subst hpos
    decide
  · obtain ⟨k, f, hk, hf, heq, hsig⟩ := ofNat_eq hpos hn
    have hexp : exponent (ofNat n) = k + 1023 := by
      rw [heq, exponent]
      omega
    have hfraction : ofNat n % 2 ^ 52 = f := by
      rw [heq]
      omega
    have hshift : 1075 - (k + 1023) = 52 - k := by omega
    rw [magnitude, hexp, hfraction, if_neg (by omega), if_pos (by omega), hsig, hshift]
    exact Nat.mul_div_cancel _ (Nat.pow_pos (by decide))

variable {m : Int}

theorem toNat_ofInt (hm : m.natAbs < 2 ^ 53) :
    (ofInt m).toNat = (if m < 0 then 1 else 0) * 2 ^ 63 + ofNat m.natAbs := by
  have hlt := ofNat_lt hm
  rw [ofInt, UInt64.toNat_ofNat']
  split <;> omega

/-- Integers are exact, and cutting them off changes nothing. -/
theorem truncate_ofInt (hm : m.natAbs < 2 ^ 53) : truncate (ofInt m) = some m := by
  have hlt := ofNat_lt hm
  have hexp := exponent_ofNat hm
  rw [truncate, toNat_ofInt hm, exponent_sign, magnitude_sign, magnitude_ofNat hm,
    if_neg (by omega)]
  by_cases hneg : m < 0
  · rw [if_pos hneg, if_neg (by omega)]
    congr 1
    omega
  · rw [if_neg hneg, if_pos (by omega)]
    congr 1
    omega

end Binary64
