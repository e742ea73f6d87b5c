import Mathlib.Data.Rat.Floor
import Mathlib.Tactic.Linarith

/-!
# TimeInterpolator — the data model

The modes, the record of the class's members, and `toInt64`, C's conversion of a `double` to
`int64_t`. Microsecond quantities are integers and `m_Tf` is an exact rational; `Rounding`
puts back the rounding of the `double` operations where a result depends on it.
-/

namespace Android

/-! ## Conversions -/

/-- C's conversion of a `double` to `int64_t`: truncation toward zero. -/
def toInt64 (x : ℚ) : Int := if 0 ≤ x then ⌊x⌋ else ⌈x⌉

theorem toInt64_of_nonneg {x : ℚ} (h : 0 ≤ x) : toInt64 x = ⌊x⌋ := if_pos h

theorem toInt64_of_neg {x : ℚ} (h : x < 0) : toInt64 x = ⌈x⌉ := if_neg (not_le.mpr h)

@[simp] theorem toInt64_intCast (n : Int) : toInt64 n = n := by
  unfold toInt64; split <;> simp

@[simp] theorem toInt64_natCast (n : ℕ) : toInt64 n = n := by simpa using toInt64_intCast n

@[simp] theorem toInt64_ofNat (n : ℕ) [n.AtLeastTwo] :
    toInt64 (no_index (OfNat.ofNat n)) = OfNat.ofNat n :=
  toInt64_natCast n

@[simp] theorem toInt64_zero : toInt64 0 = 0 := by simpa using toInt64_intCast 0

@[simp] theorem toInt64_one : toInt64 1 = 1 := by simpa using toInt64_intCast 1

/-- Truncation toward zero is odd. -/
@[simp] theorem toInt64_neg (x : ℚ) : toInt64 (-x) = -toInt64 x := by
  rcases lt_trichotomy x 0 with hx | rfl | hx
  · rw [toInt64_of_nonneg (by linarith), toInt64_of_neg hx, Int.floor_neg]
  · simp
  · rw [toInt64_of_neg (by linarith), toInt64_of_nonneg hx.le, Int.ceil_neg]

theorem floor_le_toInt64 (x : ℚ) : ⌊x⌋ ≤ toInt64 x := by
  unfold toInt64; split
  · exact le_rfl
  · exact Int.floor_le_ceil x

theorem toInt64_le_ceil (x : ℚ) : toInt64 x ≤ ⌈x⌉ := by
  unfold toInt64; split
  · exact Int.floor_le_ceil x
  · exact le_rfl

theorem toInt64_nonneg {x : ℚ} (h : 0 ≤ x) : 0 ≤ toInt64 x := by
  rw [toInt64_of_nonneg h]; exact Int.floor_nonneg.mpr h

/-- Truncation is monotone. -/
theorem toInt64_mono {x y : ℚ} (h : x ≤ y) : toInt64 x ≤ toInt64 y := by
  rcases le_or_lt 0 x with hx | hx
  · rw [toInt64_of_nonneg hx, toInt64_of_nonneg (hx.trans h)]; exact Int.floor_mono h
  · rcases le_or_lt 0 y with hy | hy
    · rw [toInt64_of_neg hx]
      exact (Int.ceil_le.mpr (by push_cast; linarith)).trans (toInt64_nonneg hy)
    · rw [toInt64_of_neg hx, toInt64_of_neg hy]; exact Int.ceil_mono h

/-- Truncation moves a number by less than one. -/
theorem abs_toInt64_sub_lt (x : ℚ) : |(toInt64 x : ℚ) - x| < 1 := by
  rw [abs_sub_lt_iff]
  constructor
  · linarith [Int.ceil_lt_add_one x, (Int.cast_le (R := ℚ)).mpr (toInt64_le_ceil x)]
  · linarith [Int.sub_one_lt_floor x, (Int.cast_le (R := ℚ)).mpr (floor_le_toInt64 x)]

/-- Truncating after adding an integer never loses against adding after truncating a
non-negative number: on the negative side the sum rounds up. -/
theorem add_toInt64_le (n : Int) {x : ℚ} (hx : 0 ≤ x) : n + toInt64 x ≤ toInt64 (n + x) := by
  rw [toInt64_of_nonneg hx, ← Int.floor_int_add]
  exact floor_le_toInt64 _

/-! ## Rounding of the `double` operations -/

/-- A rounding of the rationals to a floating-point format: monotone, and exact on the
integers up to `2^53`, as binary64 round-to-nearest is. -/
structure Rounding where
  fl : ℚ → ℚ
  mono : Monotone fl
  int_exact : ∀ n : Int, |n| ≤ 2 ^ 53 → fl n = n

namespace Rounding

/-- Exact arithmetic, the model's. -/
def exact : Rounding := ⟨id, monotone_id, fun _ _ => rfl⟩

variable (r : Rounding)

theorem fl_zero : r.fl 0 = 0 := by simpa using r.int_exact 0 (by norm_num)

theorem fl_one : r.fl 1 = 1 := by simpa using r.int_exact 1 (by norm_num)

/-- Rounding a non-negative number below `2^53 - 1` adds at most one. -/
theorem fl_le_add_one {x : ℚ} (hx : 0 ≤ x) (h : x + 1 ≤ 2 ^ 53) : r.fl x ≤ x + 1 := by
  have hc := Int.ceil_lt_add_one x
  have hb : |⌈x⌉| ≤ (2 : Int) ^ 53 := by
    have : (⌈x⌉ : ℚ) ≤ 2 ^ 53 := by linarith
    exact abs_le.mpr ⟨by linarith [Int.ceil_nonneg hx], by exact_mod_cast this⟩
  calc r.fl x ≤ r.fl ⌈x⌉ := r.mono (Int.le_ceil x)
    _ = ⌈x⌉ := r.int_exact _ hb
    _ ≤ x + 1 := hc.le

/-- A time factor `1.0 - e / L` computed from integers `e >= L >= 1` is at most zero. -/
theorem fl_one_sub_div_nonpos {e L : Int} (hL : 1 ≤ L) (he : L ≤ e) :
    r.fl (1 - r.fl (r.fl e / r.fl L)) ≤ 0 := by
  have hL1 : (1 : ℚ) ≤ r.fl L := r.fl_one ▸ r.mono (by exact_mod_cast hL)
  have hq : 1 ≤ r.fl e / r.fl L :=
    (le_div_iff₀ (by linarith)).mpr (by rw [one_mul]; exact r.mono (by exact_mod_cast he))
  have h1 : 1 ≤ r.fl (r.fl e / r.fl L) := r.fl_one ▸ r.mono hq
  exact r.fl_zero ▸ r.mono (by linarith)

/-- Adding a rounded `y >= 0` to an integer `p` and truncating lands on `p + int64(y)` or one
past it: both integers are representable, and the rounding keeps the sum between them. -/
theorem toInt64_fl_add (p : Int) {y : ℚ} (hy : 0 ≤ y) (hb : |(p : ℚ)| + y + 1 ≤ 2 ^ 53) :
    p + toInt64 y ≤ toInt64 (r.fl (p + y)) ∧ toInt64 (r.fl (p + y)) ≤ p + toInt64 y + 1 := by
  rw [toInt64_of_nonneg hy]
  have hfl := Int.floor_le y
  have hfl' := Int.lt_floor_add_one y
  have h0 : (0 : ℚ) ≤ ⌊y⌋ := by exact_mod_cast Int.floor_nonneg.mpr hy
  have ha : |p + ⌊y⌋| + 1 ≤ (2 : Int) ^ 53 := by
    have : |(p : ℚ) + ⌊y⌋| + 1 ≤ 2 ^ 53 := by linarith [abs_add (p : ℚ) ⌊y⌋, abs_of_nonneg h0]
    exact_mod_cast this
  have hlo : r.fl ((p + ⌊y⌋ : Int) : ℚ) ≤ r.fl (p + y) := r.mono (by push_cast; linarith)
  have hhi : r.fl (p + y) ≤ r.fl ((p + ⌊y⌋ + 1 : Int) : ℚ) := r.mono (by push_cast; linarith)
  rw [r.int_exact _ ((le_add_of_nonneg_right zero_le_one).trans ha)] at hlo
  rw [r.int_exact _ ((abs_add _ 1).trans (by rw [abs_one]; exact ha))] at hhi
  exact ⟨(toInt64_intCast _).symm.trans_le (toInt64_mono hlo),
    (toInt64_mono hhi).trans_eq (toInt64_intCast _)⟩

end Rounding

/-! ## Modes and members -/

/-- `DEFAULT_AUDIO_LATENCY`: 160 ms, the typical HAL's 4 × 20 ms, doubled. -/
def defaultAudioLatency : Int := 20000 * 4 * 2

namespace TimeInterpolator

/-- `state_t`. -/
inductive State
  | stopped
  | rolling
  | paused
  deriving DecidableEq, Repr

end TimeInterpolator

/-- The members of `TimeInterpolator`, all times in microseconds. The mutex is not a member:
every operation is one critical section. -/
structure TimeInterpolator where
  state : TimeInterpolator.State
  Tf : ℚ
  t0 : Int
  pos0 : Int
  read : Int
  queued : Int
  latency : Int
  last : Int
  nowLast : Int
  deriving DecidableEq, Repr

end Android
