import Mathlib.Algebra.Ring.Nat
import NodeFleet.Binary64

/-!
# Rounding depends on the value alone

The nearest magnitude of a ratio does not change when numerator and denominator are scaled, and a
magnitude is the nearest one of its own value. So whatever decimal is chosen for a magnitude, it
rounds back to it.
-/

namespace NodeFleet

theorem roundHalfEven_one (num : Nat) : roundHalfEven num 1 = num := by
  simp [roundHalfEven, Nat.mod_one]

theorem roundHalfEven_mul (num den : Nat) {factor : Nat} (h : 0 < factor) :
    roundHalfEven (num * factor) (den * factor) = roundHalfEven num den := by
  have hq : num * factor / (den * factor) = num / den := Nat.mul_div_mul_right _ _ h
  have hr : num * factor % (den * factor) = num % den * factor := Nat.mul_mod_mul_right _ _ _
  have hlow : 2 * (num % den * factor) < den * factor ↔ 2 * (num % den) < den := by
    rw [← Nat.mul_assoc]
    exact Nat.mul_lt_mul_right h
  have hhigh : den * factor < 2 * (num % den * factor) ↔ den < 2 * (num % den) := by
    rw [← Nat.mul_assoc]
    exact Nat.mul_lt_mul_right h
  simp only [roundHalfEven, hq, hr, hlow, hhigh]

/-- Powers as they are written elsewhere. -/
theorem pow_eq (base exponent : Nat) : Nat.pow base exponent = base ^ exponent := rfl

namespace Binary64

theorem steps_eq (magnitude : Nat) : steps magnitude =
    if magnitude < 2 ^ 52 then magnitude
    else (magnitude % 2 ^ 52 + 2 ^ 52) * 2 ^ (magnitude / 2 ^ 52 - 1) := by
  simp only [steps, pow_eq]

theorem nearest_eq (num den : Nat) : nearest num den =
    ((num * 2 ^ 1074 / den).log2 - 52) * 2 ^ 52 +
      roundHalfEven (num * 2 ^ 1074) (den * 2 ^ ((num * 2 ^ 1074 / den).log2 - 52)) := by
  simp only [nearest, pow_eq]

theorem nearest_mul (num den : Nat) {factor : Nat} (h : 0 < factor) :
    nearest (num * factor) (den * factor) = nearest num den := by
  rw [nearest_eq, nearest_eq]
  generalize 2 ^ 1074 = unit
  have hn : num * factor * unit = num * unit * factor := Nat.mul_right_comm _ _ _
  have hd (scale : Nat) : den * factor * 2 ^ scale = den * 2 ^ scale * factor :=
    Nat.mul_right_comm _ _ _
  have hq : num * unit * factor / (den * factor) = num * unit / den :=
    Nat.mul_div_mul_right _ _ h
  simp only [hn, hd, hq, roundHalfEven_mul _ _ h]

/-- Equal ratios have one nearest magnitude. -/
theorem nearest_eq_of_cross {a b c d : Nat} (hb : 0 < b) (hd : 0 < d) (h : a * d = c * b) :
    nearest a b = nearest c d := by
  calc
    nearest a b = nearest (a * d) (b * d) := (nearest_mul a b hd).symm
    _ = nearest (c * b) (d * b) := by rw [h, Nat.mul_comm b d]
    _ = nearest c d := nearest_mul c d hb

theorem nearest_zero {den : Nat} (h : 0 < den) : nearest 0 den = 0 := by
  rw [nearest_eq]
  generalize 2 ^ 1074 = unit
  simp [roundHalfEven, h]

/-- Below the first full binade the encoding is the number of steps; above it the encoding is a
scale and a significand of fifty-three bits, of which the highest is not written. -/
theorem nearest_steps (magnitude : Nat) : nearest (steps magnitude) (2 ^ 1074) = magnitude := by
  rw [nearest_eq]
  have hunit (n : Nat) : 0 < 2 ^ n := Nat.two_pow_pos n
  generalize hpow : 2 ^ 1074 = unit
  replace hunit : 0 < unit := hpow ▸ hunit 1074
  have hq : steps magnitude * unit / unit = steps magnitude := Nat.mul_div_cancel _ hunit
  have hround (scale : Nat) : roundHalfEven (steps magnitude * unit) (unit * 2 ^ scale) =
      roundHalfEven (steps magnitude) (2 ^ scale) := by
    rw [Nat.mul_comm unit (2 ^ scale)]
    exact roundHalfEven_mul _ _ hunit
  simp only [hq, hround]
  by_cases small : magnitude < 2 ^ 52
  · have hs : steps magnitude = magnitude := by rw [steps_eq, if_pos small]
    have hscale : magnitude.log2 - 52 = 0 := by
      rcases Nat.eq_zero_or_pos magnitude with rfl | pos
      · simp
      · have : magnitude.log2 < 52 := (Nat.log2_lt (by omega)).2 small
        omega
    simp [hs, hscale, roundHalfEven_one]
  · have hs : steps magnitude =
        (magnitude % 2 ^ 52 + 2 ^ 52) * 2 ^ (magnitude / 2 ^ 52 - 1) := by
      rw [steps_eq, if_neg small]
    have hlow : 2 ^ 52 ≤ magnitude % 2 ^ 52 + 2 ^ 52 := by omega
    have hhigh : magnitude % 2 ^ 52 + 2 ^ 52 < 2 ^ 53 := by omega
    have hlog : (steps magnitude).log2 = 52 + (magnitude / 2 ^ 52 - 1) := by
      rw [hs, Nat.log2_eq_iff (Nat.mul_ne_zero (by omega) (Nat.ne_of_gt (Nat.two_pow_pos _)))]
      constructor
      · rw [Nat.pow_add]
        exact Nat.mul_le_mul_right _ hlow
      · rw [Nat.add_right_comm, Nat.pow_add]
        exact Nat.mul_lt_mul_of_pos_right hhigh (Nat.two_pow_pos _)
    have hexact : roundHalfEven (steps magnitude) (2 ^ (magnitude / 2 ^ 52 - 1)) =
        magnitude % 2 ^ 52 + 2 ^ 52 := by
      have := roundHalfEven_mul (magnitude % 2 ^ 52 + 2 ^ 52) 1
        (Nat.two_pow_pos (magnitude / 2 ^ 52 - 1))
      rwa [Nat.one_mul, roundHalfEven_one, ← hs] at this
    rw [hlog, Nat.add_sub_cancel_left, hexact]
    omega

end Binary64

namespace Decimal

theorem toRatio_eq (d : Decimal) : d.toRatio =
    if 0 ≤ d.exponent then (d.digits * 10 ^ d.exponent.toNat, 1)
    else (d.digits, 10 ^ (-d.exponent).toNat) := by
  simp only [toRatio, pow_eq]

theorem toRatio_snd_pos (d : Decimal) : 0 < d.toRatio.2 := by
  rw [toRatio_eq]
  split
  · exact Nat.one_pos
  · exact Nat.pow_pos (by decide)

theorem nearest_shift (digits zeros : Nat) (exponent : Int) :
    Binary64.nearest (Decimal.mk (digits * 10 ^ zeros) exponent).toRatio.1
        (Decimal.mk (digits * 10 ^ zeros) exponent).toRatio.2 =
      Binary64.nearest (Decimal.mk digits (exponent + zeros)).toRatio.1
        (Decimal.mk digits (exponent + zeros)).toRatio.2 := by
  apply Binary64.nearest_eq_of_cross (toRatio_snd_pos _) (toRatio_snd_pos _)
  simp only [toRatio_eq]
  by_cases he : 0 ≤ exponent
  · have hz : 0 ≤ exponent + zeros := by omega
    have hexp : (exponent + zeros).toNat = zeros + exponent.toNat := by omega
    simp only [he, hz, if_true, hexp, Nat.pow_add, Nat.mul_one, Nat.mul_assoc]
  · by_cases hz : 0 ≤ exponent + zeros
    · have hexp : zeros = (exponent + zeros).toNat + (-exponent).toNat := by omega
      have hpow : (10 : Nat) ^ zeros = 10 ^ (exponent + zeros).toNat * 10 ^ (-exponent).toNat := by
        rw [← Nat.pow_add, ← hexp]
      simp only [he, hz, if_true, if_false, Nat.mul_one, hpow, Nat.mul_assoc]
    · have hexp : (-exponent).toNat = zeros + (-(exponent + zeros)).toNat := by omega
      simp only [he, hz, if_false, hexp, Nat.pow_add, Nat.mul_assoc]

end Decimal

namespace Binary64

/-- Zeros at the end of the digits may be traded for the exponent. -/
theorem isNearest_shift (magnitude digits zeros : Nat) (exponent : Int) :
    IsNearest magnitude ⟨digits * 10 ^ zeros, exponent⟩ ↔
      IsNearest magnitude ⟨digits, exponent + zeros⟩ := by
  unfold IsNearest
  rw [Decimal.nearest_shift]

theorem isNearest_of_first {magnitude : Nat} {near other d : Decimal}
    (h : (if IsNearest magnitude near then some near
      else if IsNearest magnitude other then some other else none) = some d) :
    IsNearest magnitude d := by
  split at h
  · rename_i hnear
    exact Option.some.inj h ▸ hnear
  · split at h
    · rename_i hother
      exact Option.some.inj h ▸ hother
    · cases h

theorem onGrid?_isNearest {magnitude : Nat} {exponent : Int} {d : Decimal}
    (h : onGrid? magnitude exponent = some d) : IsNearest magnitude d :=
  isNearest_of_first h

/-- The full expansion of a magnitude has its exact value. -/
theorem isNearest_expansion (magnitude : Nat) {k : Nat} (hk : k = 1074) :
    IsNearest magnitude ⟨steps magnitude * Nat.pow 5 k, -(k : Int)⟩ := by
  have hneg : ¬ 0 ≤ -(k : Int) := by omega
  have hpow : (10 : Nat) ^ k = 2 ^ k * 5 ^ k := Nat.mul_pow 2 5 k
  unfold IsNearest
  simp only [Decimal.toRatio_eq, hneg, if_false, Int.neg_neg, Int.toNat_natCast, hpow, pow_eq]
  rw [nearest_mul _ _ (Nat.pow_pos (by decide)), hk]
  exact nearest_steps magnitude

/-- The full expansion is chosen where no short decimal rounds to the magnitude. The exponent is kept as
a variable, so that nothing computes its powers. -/
theorem shortest_eq (magnitude : Nat) {k : Nat} (hk : k = 1074) : shortest magnitude =
    ((List.range 17).findSome? fun (n : Nat) =>
      onGrid? magnitude (leadingExponent magnitude - n)).getD
        ⟨steps magnitude * Nat.pow 5 k, -(k : Int)⟩ := by
  have hexponent : (-1074 : Int) = -(k : Int) := by omega
  rw [shortest, hexponent, ← hk]

/-- The decimal chosen for a magnitude rounds to it. -/
theorem isNearest_shortest (magnitude : Nat) : IsNearest magnitude (shortest magnitude) := by
  obtain ⟨k, hk⟩ : ∃ k, k = 1074 := ⟨_, rfl⟩
  rw [shortest_eq magnitude hk]
  cases h : (List.range 17).findSome? fun (n : Nat) =>
      onGrid? magnitude (leadingExponent magnitude - n) with
  | none => exact isNearest_expansion magnitude hk
  | some d =>
      obtain ⟨n, _, hn⟩ := List.exists_of_findSome?_eq_some h
      exact onGrid?_isNearest hn

theorem eq_zero_of_isNearest {magnitude : Nat} {d : Decimal} (h : IsNearest magnitude d)
    (hd : d.digits = 0) : magnitude = 0 := by
  have hz : d.toRatio.1 = 0 := by
    rw [Decimal.toRatio_eq]
    split <;> simp [hd]
  unfold IsNearest at h
  rw [hz, nearest_zero (Decimal.toRatio_snd_pos d)] at h
  exact h.symm

theorem shortest_digits_ne_zero {magnitude : Nat} (h : magnitude ≠ 0) :
    (shortest magnitude).digits ≠ 0 :=
  fun hd => h (eq_zero_of_isNearest (isNearest_shortest magnitude) hd)

end Binary64

end NodeFleet
