import Mathlib.Data.Int.Log
import Mathlib.Data.Nat.Sqrt
import Crawler.Proofs.Single

/-! The precision of operations on floats. Each of them stays within half a unit in the last place of
its exact result, and a few of them one after another stay within a few such parts, as long as the
values are far from both ends of the range. Where only the size of a result matters, a sum or a
difference is no larger than its operands together. -/
namespace Crawler.Number

open Float.Model (UnpackedFloat totalExponent)
open Float.Model.Format (binary64)
open Float.Model.UnpackedFloat (Sign Accuracy accuracyOfFraction sqrtCore roundWithAccuracy)

section Spans

def Spans (i j : ℤ) (q : ℚ) : Prop := 2 ^ i ≤ q ∧ q ≤ 2 ^ j

variable {i j k l : ℤ} {x y : ℚ}

theorem Spans.pos (spans : Spans i j x) : 0 < x := by
  have low : (0 : ℚ) < 2 ^ i := by positivity
  exact low.trans_le spans.1

theorem Spans.widen (spans : Spans i j x) (low : k ≤ i) (high : j ≤ l) : Spans k l x := by
  obtain ⟨least, most⟩ := spans
  refine ⟨?_, ?_⟩
  · exact (zpow_le_zpow_right₀ one_le_two low).trans least
  · exact most.trans (zpow_le_zpow_right₀ one_le_two high)

theorem Spans.mul (left : Spans i j x) (right : Spans k l y) : Spans (i + k) (j + l) (x * y) := by
  unfold Spans
  rw [zpow_add₀ two_ne_zero, zpow_add₀ two_ne_zero]
  exact ⟨mul_le_mul left.1 right.1 (by positivity) left.pos.le,
    mul_le_mul left.2 right.2 right.pos.le (by positivity)⟩

theorem Spans.div (left : Spans i j x) (right : Spans k l y) : Spans (i - l) (j - k) (x / y) := by
  unfold Spans
  rw [zpow_sub₀ two_ne_zero, zpow_sub₀ two_ne_zero]
  exact ⟨div_le_div₀ left.pos.le left.1 right.pos right.2,
    div_le_div₀ (by positivity) left.2 (by positivity) right.1⟩

theorem Spans.of_square (spans : Spans (2 * i) (2 * j) (x * x)) (pos : 0 < x) : Spans i j x := by
  have square (k : ℤ) : (2 : ℚ) ^ (2 * k) = 2 ^ k * 2 ^ k := by rw [two_mul, zpow_add₀ two_ne_zero]
  unfold Spans at spans
  rw [square, square] at spans
  exact ⟨(mul_self_le_mul_self_iff (by positivity) pos.le).mpr spans.1,
    (mul_self_le_mul_self_iff pos.le (by positivity)).mpr spans.2⟩

theorem spans_count {n b : ℕ} (some : 1 ≤ n) (most : n ≤ 2 ^ b) : Spans 0 b n := by
  refine ⟨?_, ?_⟩
  · exact_mod_cast some
  · exact_mod_cast most

theorem count_reads {n b : ℕ} (some : 1 ≤ n) (most : n ≤ 2 ^ b) (fits : b < 53) :
    ∃ N, Reads (ofInt n) N ∧ N.value = n ∧ Spans 0 b N.value := by
  have small : n < 2 ^ 53 := most.trans_lt (Nat.pow_lt_pow_right one_lt_two fits)
  obtain ⟨N, read, value⟩ := ofInt_reads some small
  exact ⟨N, read, value, value ▸ spans_count some most⟩

def Moderate (q : ℚ) : Prop := Spans (-500) 500 q

end Spans

section Near

def Near (times : ℕ) (x y : ℚ) : Prop :=
  x * (1 - 2 ^ (-53 : ℤ)) ^ times ≤ y ∧ y ≤ x * (1 + 2 ^ (-53 : ℤ)) ^ times

variable {j k : ℕ} {x y z c : ℚ}

theorem near_refl (x : ℚ) : Near 0 x x := by
  unfold Near
  rw [pow_zero, pow_zero, mul_one]
  exact ⟨le_rfl, le_rfl⟩

private theorem near_of_close (close : |x - y| ≤ x * 2 ^ (-53 : ℤ)) : Near 1 x y := by
  have error := abs_le.mp close
  unfold Near
  rw [pow_one, pow_one, mul_sub, mul_add, mul_one]
  exact ⟨by linarith, by linarith⟩

private theorem left_pos (k : ℕ) : (0 : ℚ) < (1 - 2 ^ (-53 : ℤ)) ^ k := by
  refine pow_pos ?_ k
  norm_num

theorem Near.trans (first : Near j x y) (second : Near k y z) : Near (j + k) x z := by
  refine ⟨?_, ?_⟩
  · rw [pow_add, ← mul_assoc]
    exact (mul_le_mul_of_nonneg_right first.1 (left_pos k).le).trans second.1
  · rw [pow_add, ← mul_assoc]
    exact second.2.trans (mul_le_mul_of_nonneg_right first.2 (by positivity))

theorem Near.mul (near : Near k x y) (pos : 0 < c) : Near k (x * c) (y * c) := by
  unfold Near
  rw [mul_right_comm x c, mul_right_comm x c]
  exact ⟨mul_le_mul_of_nonneg_right near.1 pos.le, mul_le_mul_of_nonneg_right near.2 pos.le⟩

theorem Near.div (near : Near k x y) (pos : 0 < c) : Near k (x / c) (y / c) := by
  rw [div_eq_mul_inv, div_eq_mul_inv]
  exact near.mul (inv_pos.mpr pos)

private theorem Near.pos (near : Near k x y) (pos : 0 < x) : 0 < y := by
  have low := mul_pos pos (left_pos k)
  exact low.trans_le near.1

theorem Near.square (near : Near k x y) (pos : 0 < x) : Near (k + k) (x * x) (y * y) := by
  have low := mul_pos pos (left_pos k)
  unfold Near
  rw [pow_add, pow_add, mul_mul_mul_comm x x, mul_mul_mul_comm x x]
  exact ⟨mul_self_le_mul_self low.le near.1, mul_self_le_mul_self (near.pos pos).le near.2⟩

/-- A few roundings leave more than half of a value, and less than twice as much. -/
theorem Near.factor_two (near : Near k x y) (pos : 0 < x) (few : k ≤ 4) : x / 2 ≤ y ∧ y ≤ x * 2 := by
  have low : (1 / 2 : ℚ) ≤ (1 - 2 ^ (-53 : ℤ)) ^ k :=
    le_trans (by norm_num) (pow_le_pow_of_le_one (by norm_num) (by norm_num) few)
  have high : (1 + 2 ^ (-53 : ℤ) : ℚ) ^ k ≤ 2 :=
    (pow_le_pow_right₀ (by norm_num) few).trans (by norm_num)
  have below : x * (1 / 2) ≤ y := (mul_le_mul_of_nonneg_left low pos.le).trans near.1
  have above : y ≤ x * 2 := near.2.trans (mul_le_mul_of_nonneg_left high pos.le)
  exact ⟨by linarith, above⟩

theorem Near.spans {i l : ℤ} (near : Near k x y) (spans : Spans i l x) (few : k ≤ 4) :
    Spans (i - 1) (l + 1) y := by
  obtain ⟨below, above⟩ := near.factor_two spans.pos few
  unfold Spans
  rw [zpow_sub_one₀ two_ne_zero, zpow_add_one₀ two_ne_zero]
  exact ⟨le_trans (by linarith [spans.1]) below, above.trans (by linarith [spans.2])⟩

theorem Near.floor {n : ℕ} {y : ℚ} (near : Near k n y) (few : k ≤ 4) (fits : n < 2 ^ 40) :
    ⌊y + 1 / 2⌋₊ = n := by
  have fits : (n : ℚ) < 1099511627776 := by exact_mod_cast fits
  have low : (1 - 2 ^ (-50 : ℤ) : ℚ) ≤ (1 - 2 ^ (-53 : ℤ)) ^ k :=
    le_trans (by norm_num) (pow_le_pow_of_le_one (by norm_num) (by norm_num) few)
  have high : (1 + 2 ^ (-53 : ℤ) : ℚ) ^ k ≤ 1 + 2 ^ (-50 : ℤ) :=
    (pow_le_pow_right₀ (by norm_num) few).trans (by norm_num)
  have least : (0 : ℚ) ≤ n := n.cast_nonneg
  obtain ⟨below, above⟩ := near
  have below : n * (1 - 2 ^ (-50 : ℤ)) ≤ y := (mul_le_mul_of_nonneg_left low least).trans below
  have above : y ≤ n * (1 + 2 ^ (-50 : ℤ)) := above.trans (mul_le_mul_of_nonneg_left high least)
  norm_num at below above
  rw [Nat.floor_eq_iff (by linarith)]
  constructor <;> linarith

end Near

section Close

variable {M : Magnitude binary64} {x : ℚ}

/-- There is a number of the format within half a unit in the last place of a value. -/
theorem exists_close (normal : 2 ^ (-1022 : ℤ) ≤ x) :
    ∃ N : Magnitude binary64, |x - N.value| ≤ x * 2 ^ (-53 : ℤ) := by
  have pos : 0 < x := lt_of_lt_of_le (by positivity) normal
  have least : -1022 ≤ Int.log 2 x := by
    rw [← Int.zpow_le_iff_le_log one_lt_two pos]
    exact_mod_cast normal
  obtain ⟨g, grid⟩ : ∃ g, Int.log 2 x = 52 + g := ⟨Int.log 2 x - 52, by omega⟩
  have unit : (0 : ℚ) < 2 ^ g := by positivity
  have scaled : (2 : ℚ) ^ (52 : ℤ) ≤ x / 2 ^ g := by
    rw [le_div_iff₀ unit, ← zpow_add₀ two_ne_zero, ← grid]
    exact_mod_cast Int.zpow_log_le_self one_lt_two pos
  have under : x / 2 ^ g < 2 ^ (53 : ℤ) := by
    rw [div_lt_iff₀ unit, ← zpow_add₀ two_ne_zero, (by omega : 53 + g = Int.log 2 x + 1)]
    exact_mod_cast Int.lt_zpow_succ_log_self one_lt_two x
  set r := ⌊x / 2 ^ g + 1 / 2⌋₊ with rounded
  have near : |x / 2 ^ g - r| ≤ 1 / 2 := by
    have floor := Nat.floor_le (by positivity : 0 ≤ x / 2 ^ g + 1 / 2)
    have top := Nat.lt_floor_add_one (x / 2 ^ g + 1 / 2)
    rw [abs_le]
    constructor <;> linarith
  obtain ⟨N, value⟩ : ∃ N : Magnitude binary64, N.value = r * 2 ^ g := by
    have fits : r ≤ 2 ^ 53 := by
      have floor : (r : ℚ) ≤ _ := Nat.floor_le (by positivity : 0 ≤ x / 2 ^ g + 1 / 2)
      have bound : (r : ℚ) < 2 ^ (53 : ℤ) + 1 := by linarith
      have bound : r < 2 ^ 53 + 1 := by exact_mod_cast bound
      omega
    rcases fits.lt_or_eq with fits | long
    · exact Magnitude.exists_value fits (by omega)
    · obtain ⟨N, value⟩ := Magnitude.exists_value (r := 2 ^ 52) (g := g + 1) (by decide) (by omega)
      refine ⟨N, value.trans ?_⟩
      rw [long, zpow_add_one₀ two_ne_zero]
      push_cast
      ring
  refine ⟨N, ?_⟩
  have apart : |x - N.value| = |x / 2 ^ g - r| * 2 ^ g := by
    rw [value, ← abs_of_pos unit, ← abs_mul, abs_of_pos unit, sub_mul, div_mul_cancel₀ x unit.ne']
  rw [apart]
  calc
    |x / 2 ^ g - r| * 2 ^ g ≤ 1 / 2 * 2 ^ g := by gcongr
    _ = 2 ^ (52 : ℤ) * 2 ^ (-53 : ℤ) * 2 ^ g := by norm_num
    _ ≤ x / 2 ^ g * 2 ^ (-53 : ℤ) * 2 ^ g := by gcongr
    _ = x * 2 ^ (-53 : ℤ) := by field_simp

private theorem near_of_nearest (nearest : M.Nearest x) (normal : 2 ^ (-1022 : ℤ) ≤ x) :
    Near 1 x M.value := by
  obtain ⟨N, close⟩ := exists_close normal
  exact near_of_close ((nearest N).trans close)

end Close

section Operations

variable {a b x : Float} {s t : Sign} {A B M : Magnitude binary64} {k : ℕ} {q : ℚ}

private theorem holds_of_spans {i j : ℤ} (read : x.toModel.unpack = M.kept s) (spans : Spans i j M.value)
    (most : j < 972) : Holds x s M := by
  have finite := zpow_lt_zpow_right₀ (one_lt_two (α := ℚ)) most
  exact holds_of_kept read spans.pos (spans.2.trans_lt finite)

/-- One more operation that rounds to the nearest. -/
theorem holds_near {P : Magnitude binary64} {y : ℚ} (read : x.toModel.unpack = P.kept s)
    (nearest : P.Nearest y) (near : Near k q y) (few : k ≤ 3) (moderate : Moderate q) :
    Holds x s P ∧ Near (k + 1) q P.value := by
  have spans := near.spans moderate (by omega)
  have near := near.trans (near_of_nearest nearest (spans.widen (by decide) le_rfl).1)
  have spans := near.spans moderate (by omega)
  exact ⟨holds_of_spans read spans (by decide), near⟩

theorem mul_near (left : Holds a s A) (right : Holds b t B) (near : Near k q (A.value * B.value))
    (few : k ≤ 3) (moderate : Moderate q) :
    ∃ P, Holds (a * b) (s * t) P ∧ Near (k + 1) q P.value := by
  obtain ⟨P, nearest, product⟩ := mul_kept left right
  exact ⟨P, holds_near product nearest near few moderate⟩

theorem div_near (left : Holds a s A) (right : Holds b t B) (near : Near k q (A.value / B.value))
    (few : k ≤ 3) (moderate : Moderate q) :
    ∃ P, Holds (a / b) (s * t) P ∧ Near (k + 1) q P.value := by
  obtain ⟨P, nearest, quotient⟩ := div_kept left right
  exact ⟨P, holds_near quotient nearest near few moderate⟩

end Operations

section Sqrt

private theorem unpack_sqrt (x : Float) : x.sqrt.toModel.unpack = UnpackedFloat.unpack binary64
    (UnpackedFloat.pack binary64 (UnpackedFloat.sqrt binary64 x.toModel.unpack)) := rfl

/-- A fraction that stands for what is cut off from a square root: nothing, less than a half or more. -/
theorem exists_rest (n : ℕ) : ∃ num, num < 4 ∧
    (if n - n.sqrt * n.sqrt = 0 then Accuracy.exact
      else .inexact (if n - n.sqrt * n.sqrt ≤ n.sqrt then .lt else .gt)) = accuracyOfFraction num 4 ∧
    |(n : ℚ) - (n.sqrt + num / (4 : ℕ)) * (n.sqrt + num / (4 : ℕ))| ≤ n.sqrt / 2 := by
  obtain ⟨rest, split⟩ := Nat.exists_eq_add_of_le n.sqrt_le
  have most : rest ≤ 2 * n.sqrt := by have := n.sqrt_le_add; omega
  have whole : (n : ℚ) = n.sqrt * n.sqrt + rest := by exact_mod_cast split
  have cut : n - n.sqrt * n.sqrt = rest := by omega
  rw [cut, whole]
  have least : (0 : ℚ) ≤ n.sqrt := Nat.cast_nonneg _
  by_cases none : rest = 0
  · refine ⟨0, by decide, if_pos none, ?_⟩
    rw [none]
    norm_num
    positivity
  rw [if_neg none]
  have one : (1 : ℚ) ≤ rest := by exact_mod_cast Nat.pos_of_ne_zero none
  by_cases half : rest ≤ n.sqrt
  · refine ⟨1, by decide, by rw [if_pos half]; rfl, ?_⟩
    have half : (rest : ℚ) ≤ n.sqrt := by exact_mod_cast half
    rw [abs_le]
    constructor <;> norm_num <;> nlinarith
  · refine ⟨3, by decide, by rw [if_neg half]; rfl, ?_⟩
    have half : (n.sqrt : ℚ) + 1 ≤ rest := by exact_mod_cast not_le.mp half
    have most : (rest : ℚ) ≤ 2 * n.sqrt := by exact_mod_cast most
    rw [abs_le]
    constructor <;> norm_num <;> nlinarith

/-- A square root is computed to so many bits that all of those that it is rounded to are known. -/
theorem exists_sqrtCore {m : ℕ} {e : ℤ} (some : m ≠ 0) (least : -1074 ≤ e) :
    ∃ root t accuracy, ∃ y : ℚ, sqrtCore binary64 m e = (root, t, accuracy) ∧
      Describes (.ofMantissaAndAccuracy root accuracy) (y / 2 ^ t) ∧
      t ≤ binary64.targetExponent (totalExponent root t) ∧ 0 < y ∧ Near 1 (m * 2 ^ e) (y * y) := by
  set t := min (e.ediv 2) (binary64.targetExponent ((totalExponent m e + 1).ediv 2)) with target
  have halved : t ≤ e / 2 := min_le_left _ _
  have above : t ≤ max ((m.log2 + 1 + e + 1) / 2 - 53) (-1074) := min_le_right _ _
  obtain ⟨k, shift⟩ := Int.eq_ofNat_of_zero_le (by omega : 0 ≤ e - 2 * t)
  set n := m <<< k with moved
  have long : 2 ^ 52 ≤ n.sqrt := by
    rw [Nat.le_sqrt, ← pow_add, ← Nat.le_log2 (by rw [moved, Nat.shiftLeft_eq]; positivity), moved,
      log2_shiftLeft some]
    omega
  obtain ⟨num, below, accuracy, close⟩ := exists_rest n
  have unit : (0 : ℚ) < 2 ^ t := by positivity
  have bits : (2 ^ 52 : ℚ) ≤ n.sqrt := by exact_mod_cast long
  refine ⟨n.sqrt, t, accuracyOfFraction num 4, (n.sqrt + num / (4 : ℕ)) * 2 ^ t, ?_, ?_,
    fine_of_long long t, by positivity, ?_⟩
  · rw [← accuracy]
    unfold sqrtCore
    dsimp only
    rw [← target, shift]
    rfl
  · rw [mul_div_cancel_right₀ _ unit.ne']
    exact describes_fraction _ below
  · have value : (m * 2 ^ e : ℚ) = n * (2 ^ t * 2 ^ t) := by
      have exponent : e = k + (t + t) := by omega
      rw [moved, Nat.shiftLeft_eq, exponent, zpow_add₀ two_ne_zero, zpow_add₀ two_ne_zero, zpow_natCast]
      push_cast
      ring
    rw [value, mul_mul_mul_comm]
    refine (near_of_close (close.trans ?_)).mul (mul_pos unit unit)
    have least : (n.sqrt * n.sqrt : ℚ) ≤ n := by exact_mod_cast n.sqrt_le
    norm_num
    nlinarith

theorem sqrt_near {x : Float} {X : Magnitude binary64} (read : Reads x X) (moderate : Moderate X.value) :
    ∃ P, Reads x.sqrt P ∧ Near 3 X.value (P.value * P.value) := by
  obtain ⟨some, read⟩ := read
  obtain ⟨root, t, accuracy, y, core, described, fine, pos, square⟩ := exists_sqrtCore some.ne' X.least
  obtain ⟨P, nearest, rounded⟩ := roundWithAccuracy_nearest described fine .positive
  have range : Spans (2 * -251) (2 * 251) (y * y) :=
    (square.spans moderate (by decide)).widen (by decide) (by decide)
  have spans := range.of_square pos
  have near := near_of_nearest nearest (spans.widen (by decide) le_rfl).1
  have kept : x.sqrt.toModel.unpack = P.kept .positive := by
    rw [← P.unpack_pack_kept, ← rounded, unpack_sqrt, read]
    unfold UnpackedFloat.sqrt
    dsimp only
    rw [core]
  have bounds := near.spans spans (by decide)
  exact ⟨P, holds_of_spans kept bounds (by decide), square.trans (near.square pos)⟩

end Sqrt

section Within

variable {x y : Float} {s t : Sign} {M N P : Magnitude binary64} {i j : ℤ}

def Within (i : ℤ) (x : Float) : Prop :=
  (∃ s, x.toModel.unpack = .zero s) ∨ ∃ s M, Holds x s M ∧ M.value ≤ 2 ^ i

theorem Within.mono (within : Within i x) (wider : i ≤ j) : Within j x := by
  refine within.imp_right ?_
  rintro ⟨s, M, holds, bound⟩
  exact ⟨s, M, holds, bound.trans (zpow_le_zpow_right₀ one_le_two wider)⟩

private theorem unpack_pack_zero (s : Sign) :
    UnpackedFloat.unpack binary64 (UnpackedFloat.pack binary64 (.zero s)) = .zero s := by
  cases s <;> rfl

private theorem within_of_kept {z : ℚ} (read : x.toModel.unpack = P.kept s) (nearest : P.Nearest z)
    (bound : z ≤ 2 ^ i) (least : -1074 ≤ i) (most : i ≤ 971) : Within i x := by
  obtain ⟨K, limit⟩ := Magnitude.exists_value (r := 1) (g := i) (by decide) least
  rw [Nat.cast_one, one_mul] at limit
  have bound : P.value ≤ 2 ^ i := limit ▸ Magnitude.le_of_nearest nearest (limit.symm ▸ bound)
  have small : P.value < 2 ^ (972 : ℤ) :=
    bound.trans_lt (zpow_lt_zpow_right₀ one_lt_two (by omega))
  rcases P.mantissa.eq_zero_or_pos with none | some
  · refine .inl ⟨s, read.trans ?_⟩
    rw [Magnitude.kept, if_neg (not_lt.mpr (Magnitude.exponent_le_of_lt small))]
    exact dif_pos none
  · have pos : 0 < P.value := by unfold Magnitude.value; positivity
    exact .inr ⟨s, P, holds_of_kept read pos small, bound⟩

theorem mul_within (left : Within i x) (right : Holds y t N) (bound : N.value ≤ 2 ^ j)
    (least : -1074 ≤ i + j) (most : i + j ≤ 971) : Within (i + j) (x * y) := by
  rcases left with ⟨s, none⟩ | ⟨s, M, holds, small⟩
  · obtain ⟨_, read⟩ := right
    refine .inl ⟨s * t, ?_⟩
    rw [unpack_mul, none, read]
    exact unpack_pack_zero _
  · obtain ⟨P, nearest, product⟩ := mul_kept holds right
    refine within_of_kept product nearest ?_ least most
    rw [zpow_add₀ two_ne_zero]
    exact mul_le_mul small bound (by unfold Magnitude.value; positivity) (by positivity)

theorem div_within (left : Within i x) (right : Holds y t N) (bound : 1 ≤ N.value)
    (least : -1074 ≤ i) (most : i ≤ 971) : Within i (x / y) := by
  rcases left with ⟨s, none⟩ | ⟨s, M, holds, small⟩
  · obtain ⟨_, read⟩ := right
    refine .inl ⟨s * t, ?_⟩
    rw [unpack_div, none, read]
    exact unpack_pack_zero _
  · obtain ⟨P, nearest, quotient⟩ := div_kept holds right
    refine within_of_kept quotient nearest ?_ least most
    exact (div_le_self (by unfold Magnitude.value; positivity) bound).trans small

private theorem value_shiftLeft {e g : ℤ} (m : ℕ) (low : g ≤ e) :
    ((m <<< (e - g).toNat : ℕ) * 2 ^ g : ℚ) = m * 2 ^ e := by
  obtain ⟨k, apart⟩ := Int.eq_ofNat_of_zero_le (sub_nonneg.mpr low)
  rw [apart, Int.toNat_natCast, Nat.shiftLeft_eq, (by omega : e = k + g), zpow_add₀ two_ne_zero,
    zpow_natCast]
  push_cast
  ring

private theorem normalize_kept (n e : ℤ) :
    ∃ (P : Magnitude binary64) (u : Sign), P.Nearest (n.natAbs * 2 ^ e) ∧
      UnpackedFloat.normalize binary64 n e .positive = P.unpacked u := by
  unfold UnpackedFloat.normalize
  rcases lt_trichotomy n 0 with below | none | above
  · obtain ⟨P, nearest, rounded⟩ := round_nearest binary64 (by omega : n.natAbs ≠ 0) e .negative
    refine ⟨P, .negative, nearest, ?_⟩
    rw [compare_lt_iff_lt.mpr below, ← rounded]
    dsimp only
    congr 1
    omega
  · refine ⟨⟨0, -1074, by decide, le_refl _, .inl rfl⟩, .positive, ?_, ?_⟩
    · intro N
      have least : 0 ≤ N.value := by unfold Magnitude.value; positivity
      simpa [none, Magnitude.value] using least
    · rw [none]
      rfl
  · obtain ⟨P, nearest, rounded⟩ := round_nearest binary64 (by omega : n.natAbs ≠ 0) e .positive
    refine ⟨P, .positive, nearest, ?_⟩
    rw [compare_gt_iff_gt.mpr above, ← rounded]
    dsimp only
    congr 1
    omega

private theorem unpack_add (x y : Float) : (x + y).toModel.unpack = UnpackedFloat.unpack binary64
    (UnpackedFloat.pack binary64 (UnpackedFloat.add binary64 x.toModel.unpack y.toModel.unpack)) := rfl

private theorem unpack_sub (x y : Float) : (x - y).toModel.unpack = UnpackedFloat.unpack binary64
    (UnpackedFloat.pack binary64 (UnpackedFloat.sub binary64 x.toModel.unpack y.toModel.unpack)) := rfl

private theorem natAbs_apply (s : Sign) (m : ℕ) : (s.apply m).natAbs = m := by
  cases s with
  | positive => exact Int.natAbs_natCast m
  | negative => exact (Int.natAbs_neg _).trans (Int.natAbs_natCast m)

/-- What is aligned and then added or subtracted is no larger than the two together. -/
theorem combined_within {m n : ℕ} {e f c : ℤ} (read : x.toModel.unpack = UnpackedFloat.unpack binary64
      (UnpackedFloat.pack binary64 (UnpackedFloat.normalize binary64 c (min e f) .positive)))
    (small : c.natAbs ≤ m <<< (e - min e f).toNat + n <<< (f - min e f).toNat)
    (bound : (m * 2 ^ e + n * 2 ^ f : ℚ) ≤ 2 ^ i) (least : -1074 ≤ i) (most : i ≤ 971) : Within i x := by
  obtain ⟨P, u, nearest, rounded⟩ := normalize_kept c (min e f)
  rw [rounded, P.unpack_pack_kept] at read
  refine within_of_kept read nearest (le_trans ?_ bound) least most
  have small : (c.natAbs : ℚ) ≤ (m <<< (e - min e f).toNat : ℕ) + (n <<< (f - min e f).toNat : ℕ) := by
    exact_mod_cast small
  rw [← value_shiftLeft m (min_le_left e f), ← value_shiftLeft n (min_le_right e f), ← add_mul]
  gcongr

private theorem holds_add_zero (left : Holds x s M) (none : y.toModel.unpack = .zero t) :
    Holds (x + y) s M := by
  have packed := holds_pack left s
  obtain ⟨some, read⟩ := left
  refine ⟨some, ?_⟩
  rw [unpack_add, read, none]
  exact packed some

theorem add_within (left : Holds x s M) (small : M.value ≤ 2 ^ i) (right : Within i y)
    (least : -1074 ≤ i) (most : i + 1 ≤ 971) : Within (i + 1) (x + y) := by
  have double : (2 ^ (i + 1) : ℚ) = 2 ^ i + 2 ^ i := by
    rw [zpow_add_one₀ two_ne_zero]
    ring
  rcases right with ⟨t, none⟩ | ⟨t, N, right, small'⟩
  · have wide : (2 : ℚ) ^ i ≤ 2 ^ (i + 1) := zpow_le_zpow_right₀ one_le_two (by omega)
    exact .inr ⟨s, M, holds_add_zero left none, small.trans wide⟩
  obtain ⟨_, left⟩ := left
  obtain ⟨_, right⟩ := right
  have bound : M.value + N.value ≤ 2 ^ (i + 1) := double ▸ add_le_add small small'
  refine combined_within (m := M.mantissa) (n := N.mantissa) (e := M.exponent) (f := N.exponent)
    (by rw [unpack_add, left, right]; rfl) ?_ bound (by omega) most
  refine (Int.natAbs_add_le _ _).trans ?_
  rw [natAbs_apply, natAbs_apply]

theorem sub_within (left : Holds x s M) (right : Holds y t N) (bound : M.value + N.value ≤ 2 ^ i)
    (least : -1074 ≤ i) (most : i ≤ 971) : Within i (x - y) := by
  obtain ⟨_, left⟩ := left
  obtain ⟨_, right⟩ := right
  refine combined_within (m := M.mantissa) (n := N.mantissa) (e := M.exponent) (f := N.exponent)
    (by rw [unpack_sub, left, right]; rfl) ?_ bound least most
  refine (Int.natAbs_sub_le _ _).trans ?_
  rw [natAbs_apply, natAbs_apply]

end Within

section Ceil

private theorem ceilMagnitude_le_iff {m k : ℕ} {e : ℤ} : ceilMagnitude m e ≤ k ↔ (m * 2 ^ e : ℚ) ≤ k := by
  cases e with
  | ofNat j =>
    change m <<< j ≤ k ↔ _
    rw [Nat.shiftLeft_eq, Int.ofNat_eq_natCast, zpow_natCast]
    exact_mod_cast Iff.rfl
  | negSucc j =>
    change (m + (1 <<< (j + 1) - 1)) >>> (j + 1) ≤ k ↔ _
    have unit := Nat.two_pow_pos (j + 1)
    rw [Nat.shiftRight_eq_div_pow, Nat.shiftLeft_eq, one_mul, zpow_negSucc, ← div_eq_mul_inv,
      div_le_iff₀ (by positivity), ← Nat.lt_succ_iff, Nat.div_lt_iff_lt_mul unit, Nat.succ_mul]
    have cast : (m : ℚ) ≤ k * 2 ^ (j + 1) ↔ m ≤ k * 2 ^ (j + 1) := by exact_mod_cast Iff.rfl
    rw [cast]
    omega

variable {x : Float} {M : Magnitude binary64} {top : ℤ}

theorem clamp_ceil_le_iff (read : Reads x M) {k : ℕ} (below : k < top) :
    ((ceil x).clamp 0 top).toNat ≤ k ↔ M.value ≤ k := by
  obtain ⟨_, read⟩ := read
  have rounded : ceil x = .integer (ceilMagnitude M.mantissa M.exponent) := by
    unfold ceil roundBy
    rw [read]
  rw [rounded, Magnitude.value, ← ceilMagnitude_le_iff]
  change (max 0 (min top (_ : ℤ))).toNat ≤ k ↔ _
  omega

theorem clamp_ceil_of_within {i : ℕ} (within : Within i x) (least : 0 ≤ top) :
    ((ceil x).clamp 0 top).toNat ≤ 2 ^ i := by
  have low : (max 0 (min top 0)).toNat ≤ 2 ^ i := by
    rw [min_eq_right least]
    exact Nat.zero_le _
  unfold ceil roundBy
  rcases within with ⟨s, none⟩ | ⟨s, M, ⟨_, read⟩, bound⟩
  · rw [none]
    exact low
  rw [read]
  cases s with
  | positive =>
    have count : ceilMagnitude M.mantissa M.exponent ≤ 2 ^ i := by
      rw [ceilMagnitude_le_iff]
      exact_mod_cast bound
    change (max 0 (min top (_ : ℤ))).toNat ≤ 2 ^ i
    omega
  | negative =>
    change (max 0 (min top (-(_ : ℤ)))).toNat ≤ 2 ^ i
    omega

end Ceil

end Crawler.Number
