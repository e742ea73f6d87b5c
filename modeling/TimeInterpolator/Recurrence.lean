import TimeInterpolator.Basic
import Mathlib.Tactic.Linarith
import Mathlib.Tactic.LinearCombination

/-!
# TimeInterpolator — the error recurrence of the feedback loop

The abstract model of the feedback loop: the error `e = pos1 - (read - latency)` of each step.
An error of `-L` or less overruns and the next is `f`; otherwise the time factor is `1 - e / L`
clamped to `[0.5, 2]` and the next error is `e - f + Tf * f`, up to truncation. With
`0 < 2 * f < L` the error settles below `L / f` and decays geometrically (`errorRun_decays`).
-/

namespace Android
namespace TimeInterpolator

/-- The time factor the feedback step computes from an error `e` and clamps. -/
def clampedTf (L : Int) (e : ℚ) : ℚ :=
  if 2 ≤ 1 - e / L then 2 else if 1 - e / L < 1 / 2 then 1 / 2 else 1 - e / L

/-- One step of the error recurrence at cadence `f` and latency `L`. -/
def ErrorStep (L f e e' : Int) : Prop :=
  if e ≤ -L then e' = f else |(e' : ℚ) - (e - f + clampedTf L e * f)| < 1

/-! ## The three regimes of the time factor -/

section Clamp

variable {L : Int} {e : Int}

/-- The time factor reaches the overrun bound `2` exactly when the clock is a whole latency
behind its desired position: `pos1 <= read - 2 * latency`. -/
theorem two_le_one_sub_div_iff (hL : 0 < L) : 2 ≤ 1 - (e : ℚ) / L ↔ e ≤ -L := by
  have hL' : (0 : ℚ) < L := by exact_mod_cast hL
  rw [le_sub_comm, div_le_iff₀ hL']
  constructor
  · intro h; exact_mod_cast (by linarith : (e : ℚ) ≤ -L)
  · intro h; have : (e : ℚ) ≤ -L := by exact_mod_cast h
    linarith

theorem clampedTf_of_le_neg (hL : 0 < L) (he : e ≤ -L) : clampedTf L e = 2 := by
  rw [clampedTf, if_pos ((two_le_one_sub_div_iff hL).mpr he)]

theorem clampedTf_of_half_lt (hL : 0 < L) (he : L < 2 * e) : clampedTf L e = 1 / 2 := by
  have hL' : (0 : ℚ) < L := by exact_mod_cast hL
  have he' : (L : ℚ) < 2 * e := by exact_mod_cast he
  have : 1 / 2 < (e : ℚ) / L := by rw [lt_div_iff₀ hL']; linarith
  rw [clampedTf, if_neg (by linarith), if_pos (by linarith)]

theorem half_le_clampedTf (L : Int) (e : ℚ) : 1 / 2 ≤ clampedTf L e := by
  unfold clampedTf; split_ifs <;> linarith

/-- Between an overrun and the low clamp, the time factor is `1 - e / L` itself. -/
theorem clampedTf_of_mem (hL : 0 < L) (he : -L < e) (he2 : 2 * e ≤ L) :
    clampedTf L e = 1 - e / L := by
  have hL' : (0 : ℚ) < L := by exact_mod_cast hL
  have he' : (-L : ℚ) < e := by exact_mod_cast he
  have he2' : (2 * e : ℚ) ≤ L := by exact_mod_cast he2
  have h1 : (e : ℚ) / L ≤ 1 / 2 := by rw [div_le_iff₀ hL']; linarith
  have h2 : -1 < (e : ℚ) / L := by rw [lt_div_iff₀ hL']; linarith
  rw [clampedTf, if_neg (by linarith), if_neg (by linarith)]

end Clamp

/-! ## Settled errors: `|e| * f < L` -/

section Settled

variable {L f e : Int} (hf : 0 < f) (hs : |e| * f < L)
include hf hs

theorem abs_lt_of_settled : |e| < L := by
  linarith [mul_le_mul_of_nonneg_left (by omega : (1 : Int) ≤ f) (abs_nonneg e)]

/-- An error past half the latency is settled only for frames of one microsecond. -/
theorem eq_one_of_settled (hhalf : L < 2 * e) : f = 1 := by
  by_contra hne
  linarith [mul_le_mul_of_nonneg_left (by omega : (2 : Int) ≤ f) (abs_nonneg e), le_abs_self e]

/-- A settled error keeps the time factor within `1 / f` of one. -/
theorem abs_clampedTf_sub_one_lt : |clampedTf L e - 1| < 1 / f := by
  have habs := abs_lt_of_settled hf hs
  have hL : 0 < L := lt_of_le_of_lt (abs_nonneg e) habs
  have hL' : (0 : ℚ) < L := by exact_mod_cast hL
  have hf' : (0 : ℚ) < f := by exact_mod_cast hf
  by_cases hhalf : L < 2 * e
  · obtain rfl := eq_one_of_settled hf hs hhalf
    rw [clampedTf_of_half_lt hL hhalf]
    norm_num [abs_of_nonneg]
  rw [clampedTf_of_mem hL (by linarith [neg_abs_le e]) (by omega), sub_sub_cancel_left, abs_neg,
    abs_div, abs_of_pos hL', div_lt_div_iff₀ hL' hf']
  exact_mod_cast (by linarith : |e| * f < 1 * L)

end Settled

/-! ## Posts off the cadence

A post `d` microseconds after the epoch; the exact cadence is `d = f`. -/

/-- One step of the error recurrence for a post `d` microseconds after the epoch: re-pinned by
an overrun, the clock has run `2 * d` against the frame `f` written; otherwise `Tf * d`. -/
def JitteredStep (L f d e e' : Int) : Prop :=
  if e ≤ -L then e' = 2 * d - f else |(e' : ℚ) - (e - f + clampedTf L e * d)| < 1

/-- A post exactly one frame after the epoch is a step of the abstract loop. -/
theorem jitteredStep_self_iff {L f e e' : Int} : JitteredStep L f f e e' ↔ ErrorStep L f e e' := by
  unfold JitteredStep ErrorStep
  split_ifs
  · omega
  · exact Iff.rfl

section Jittered

variable {L f d J e e' : Int}

/-- Away from an overrun and from the low clamp, the step in integers: `L * e'` is within `L`
of `(L - d) * e + L * (d - f)`. -/
theorem JitteredStep.linear (h : JitteredStep L f d e e') (hL : 0 < L) (he : -L < e)
    (he2 : 2 * e ≤ L) :
    (L - d) * e + L * (d - f) - L < L * e' ∧ L * e' < (L - d) * e + L * (d - f) + L := by
  have hL' : (0 : ℚ) < L := by exact_mod_cast hL
  rw [JitteredStep, if_neg (by omega), clampedTf_of_mem hL he he2, abs_sub_lt_iff] at h
  have key : (e : ℚ) - f + (1 - e / L) * d = ((L - d) * e + L * (d - f) : ℚ) / L := by
    field_simp; ring
  rw [key] at h
  obtain ⟨h1, h2⟩ := h
  rw [sub_lt_iff_lt_add', ← sub_lt_iff_lt_add, lt_div_iff₀ hL'] at h1
  rw [sub_lt_iff_lt_add', div_lt_iff₀ hL'] at h2
  constructor
  · exact_mod_cast (by linarith : ((L - d) * e + L * (d - f) - L : ℚ) < L * e')
  · exact_mod_cast (by linarith : (L * e' : ℚ) < (L - d) * e + L * (d - f) + L)

/-- At the low clamp the clock runs at half rate: `2 * e'` is within two of
`2 * e - 2 * f + d`. -/
theorem JitteredStep.half (h : JitteredStep L f d e e') (hL : 0 < L) (he : L < 2 * e) :
    2 * e - 2 * f + d - 2 < 2 * e' ∧ 2 * e' < 2 * e - 2 * f + d + 2 := by
  rw [JitteredStep, if_neg (by omega), clampedTf_of_half_lt hL he, abs_sub_lt_iff] at h
  obtain ⟨h1, h2⟩ := h
  constructor
  · exact_mod_cast (by linarith : (2 * e - 2 * f + d - 2 : ℚ) < 2 * e')
  · exact_mod_cast (by linarith : (2 * e' : ℚ) < 2 * e - 2 * f + d + 2)

variable (hf : 0 < f) (hfL : 2 * f < L) (hd : |d - f| ≤ J)
include hf hfL hd

/-- One step shrinks the error by a factor of at least `1 - f / (2 * L)`, up to the truncation
and twice the jitter. -/
theorem JitteredStep.contract (h : JitteredStep L f d e e') (hJ : 2 * J ≤ f) (he : e < L) :
    2 * L * |e'| < (2 * L - f) * |e| + 2 * L * (1 + 2 * J) := by
  have hL : 0 < L := by omega
  obtain ⟨hd1, hd2⟩ := abs_le.mp hd
  have hLJ : 0 ≤ L * J := mul_nonneg hL.le (by omega)
  by_cases hover : e ≤ -L
  · -- the overrun re-pins the clock, which then runs `2 * d` against the frame
    rw [JitteredStep, if_pos hover] at h
    rw [h, abs_of_nonneg (by omega), abs_of_neg (by omega)]
    have h1 := mul_le_mul_of_nonneg_left (by omega : L ≤ -e) (by omega : 0 ≤ 2 * L - f)
    have h2 := mul_pos hL (by omega : 0 < 2 * L - 3 * f)
    have h3 := mul_le_mul_of_nonneg_left (by omega : 2 * d - f ≤ f + 2 * J) hL.le
    linarith
  by_cases hhalf : L < 2 * e
  · -- the low clamp: the error drops by about half a frame
    obtain ⟨h1, h2⟩ := h.half hL hhalf
    rw [abs_of_nonneg (by omega : 0 ≤ e'), abs_of_pos (by omega : 0 < e)]
    have h3 := mul_lt_mul_of_pos_left h2 hL
    have h4 := mul_pos hf (by omega : 0 < L - e)
    have h5 := mul_le_mul_of_nonneg_left hd2 hL.le
    linarith
  · -- the linear regime: the error is scaled by `1 - d / L`
    obtain ⟨h1, h2⟩ := h.linear hL (by omega) (by omega)
    have h3 := mul_le_mul_of_nonneg_left (le_abs_self e) (by omega : 0 ≤ L - d)
    have h4 := mul_le_mul_of_nonneg_left (neg_abs_le e) (by omega : 0 ≤ L - d)
    have h5 := mul_le_mul_of_nonneg_left hd2 hL.le
    have h6 := mul_le_mul_of_nonneg_left hd1 hL.le
    have h7 : L * |e'| < (L - d) * |e| + L * J + L := by
      rw [← abs_of_pos hL, ← abs_mul, abs_of_pos hL]
      exact abs_lt.mpr ⟨by linarith, by linarith⟩
    linarith [mul_nonneg (by omega : 0 ≤ 2 * d - f) (abs_nonneg e)]

/-- The contraction in the rationals: `|e'| < (1 - f / (2 * L)) * |e| + (1 + 2 * J)`. -/
theorem JitteredStep.abs_lt_contract (h : JitteredStep L f d e e') (hJ : 2 * J ≤ f)
    (he : e < L) : |(e' : ℚ)| < (1 - f / (2 * L)) * |(e : ℚ)| + (1 + 2 * J) := by
  have hL : (0 : ℚ) < 2 * L := by exact_mod_cast (by omega : 0 < 2 * L)
  have hc : 2 * (L : ℚ) * |(e' : ℚ)| < (2 * L - f) * |(e : ℚ)| + 2 * L * (1 + 2 * J) := by
    exact_mod_cast h.contract hf hfL hd hJ he
  rw [← mul_lt_mul_left hL]
  calc 2 * L * |(e' : ℚ)| < (2 * L - f) * |(e : ℚ)| + 2 * L * (1 + 2 * J) := hc
    _ = 2 * L * ((1 - f / (2 * L)) * |(e : ℚ)| + (1 + 2 * J)) := by
        rw [eq_comm, mul_add, ← mul_assoc, mul_sub, mul_one, mul_div_cancel₀ _ hL.ne']

/-- With less than a quarter frame of jitter, an error below `L` is followed by one in
`(-L, L)`: the clock neither catches up with `read` nor falls a whole latency behind it. -/
theorem JitteredStep.mem (h : JitteredStep L f d e e') (hJ : 4 * J < f) (he : e < L) :
    -L < e' ∧ e' < L := by
  have hL : 0 < L := by omega
  obtain ⟨hd1, hd2⟩ := abs_le.mp hd
  by_cases hover : e ≤ -L
  · rw [JitteredStep, if_pos hover] at h; omega
  have hc := h.contract hf hfL hd (by omega) he
  have h1 := mul_le_mul_of_nonneg_left (abs_le.mpr ⟨by omega, by omega⟩ : |e| ≤ L - 1)
    (by omega : 0 ≤ 2 * L - f)
  have h2 := mul_le_mul_of_nonneg_left (by omega : 4 * J ≤ f - 1) hL.le
  exact abs_lt.mp (lt_of_mul_lt_mul_left (by linarith : 2 * L * |e'| < 2 * L * L)
    (by omega : 0 ≤ 2 * L))

end Jittered

section JitteredRun

variable {L f J : Int} (e ds : ℕ → Int) (hstep : ∀ k, JitteredStep L f (ds k) (e k) (e (k + 1)))
  (hds : ∀ k, |ds k - f| ≤ J) (hf : 0 < f) (hfL : 2 * f < L) (hJ : 4 * J < f)
include hstep hds hf hfL hJ

/-- With less than a quarter frame of jitter, a run that starts below `L` stays below `L`. -/
theorem jitteredRun_lt (h0 : e 0 < L) : ∀ k, e k < L
  | 0 => h0
  | k + 1 => ((hstep k).mem hf hfL (hds k) hJ (jitteredRun_lt h0 k)).2

/-- The jittered loop settles geometrically: the error decays by a factor of at least
`1 - f / (2 * L)` per step, down to a floor of `(1 + 2 * J) * (2 * L / f)`. -/
theorem jitteredRun_decays (h0 : e 0 < L) (k : ℕ) :
    |(e k : ℚ)| ≤ (1 - f / (2 * L)) ^ k * |(e 0 : ℚ)| + (1 + 2 * J) * (2 * L / f) := by
  have hL : (0 : ℚ) < L := by exact_mod_cast (by omega : 0 < L)
  have hf' : (0 : ℚ) < f := by exact_mod_cast hf
  have hJ0 : (0 : ℚ) ≤ 1 + 2 * J := by
    have : (0 : Int) ≤ J := (abs_nonneg _).trans (hds 0)
    exact_mod_cast (by omega : (0 : Int) ≤ 1 + 2 * J)
  have hρ : (0 : ℚ) ≤ 1 - f / (2 * L) := by
    rw [sub_nonneg, div_le_one (by positivity)]
    exact_mod_cast (by omega : f ≤ 2 * L)
  have hinv : (f / (2 * L)) * (2 * L / f) = (1 : ℚ) := by field_simp
  have hfix : (1 - f / (2 * L)) * ((1 + 2 * J) * (2 * L / f)) + (1 + 2 * J) =
      ((1 + 2 * J) * (2 * L / f) : ℚ) := by linear_combination (-(1 + 2 * (J : ℚ))) * hinv
  induction k with
  | zero =>
    rw [pow_zero, one_mul]
    exact le_add_of_nonneg_right (mul_nonneg hJ0 (by positivity))
  | succ k ih =>
    have hk := jitteredRun_lt e ds hstep hds hf hfL hJ h0 k
    calc |(e (k + 1) : ℚ)| ≤ (1 - f / (2 * L)) * |(e k : ℚ)| + (1 + 2 * J) :=
          ((hstep k).abs_lt_contract hf hfL (hds k) (by omega) hk).le
      _ ≤ (1 - f / (2 * L)) * ((1 - f / (2 * L)) ^ k * |(e 0 : ℚ)| + (1 + 2 * J) * (2 * L / f)) +
            (1 + 2 * J) := add_le_add_right (mul_le_mul_of_nonneg_left ih hρ) _
      _ = (1 - f / (2 * L)) ^ (k + 1) * |(e 0 : ℚ)| +
            ((1 - f / (2 * L)) * ((1 + 2 * J) * (2 * L / f)) + (1 + 2 * J)) := by ring
      _ = (1 - f / (2 * L)) ^ (k + 1) * |(e 0 : ℚ)| + (1 + 2 * J) * (2 * L / f) := by rw [hfix]

end JitteredRun

/-! ## A drifting sink

Posting `f` every `d`, the loop's fixed point is the error `L * (d - f) / d`, at which the time
factor is `f / d`. -/

/-- The deviation of an error from the fixed point of a drifting sink, scaled by `d`. -/
def driftDeviation (L f d e : Int) : Int := d * e - L * (d - f)

section Drift

variable {L f d e e' : Int}

/-- In the linear regime the time factor misses the sink's rate by the deviation over `L * d`. -/
theorem clampedTf_sub_rate (hL : 0 < L) (hd : 0 < d) (he : -L < e) (he2 : 2 * e ≤ L) :
    clampedTf L e - f / d = -(driftDeviation L f d e : ℚ) / (L * d) := by
  have hL' : (L : ℚ) ≠ 0 := by exact_mod_cast hL.ne'
  have hd' : (d : ℚ) ≠ 0 := by exact_mod_cast hd.ne'
  rw [clampedTf_of_mem hL he he2, driftDeviation]
  push_cast
  field_simp
  ring

/-- In the linear regime the step scales the deviation by `1 - d / L`, up to `d`:
`|L * u' - (L - d) * u| < L * d`. -/
theorem JitteredStep.drift (h : JitteredStep L f d e e') (hL : 0 < L) (hd : 0 < d) (he : -L < e)
    (he2 : 2 * e ≤ L) :
    |L * driftDeviation L f d e' - (L - d) * driftDeviation L f d e| < L * d := by
  obtain ⟨h1, h2⟩ := h.linear hL he he2
  have key : L * driftDeviation L f d e' - (L - d) * driftDeviation L f d e =
      d * (L * e' - ((L - d) * e + L * (d - f))) := by unfold driftDeviation; ring
  rw [key, abs_mul, abs_of_pos hd, mul_comm L d]
  exact mul_lt_mul_of_pos_left (abs_lt.mpr ⟨by linarith, by linarith⟩) hd

variable (hL : 0 < L) (hdL : d ≤ L) (hd1 : f + 1 ≤ 2 * d) (hd2 : d + 2 ≤ 2 * f)
include hL hdL hd1 hd2

/-- With the sink's rate `f / d` inside `[1/2, 2)` by a margin, the linear regime `(-L, L / 2]`
is closed under the step. -/
theorem JitteredStep.linear_mem (h : JitteredStep L f d e e') (he : -L < e) (he2 : 2 * e ≤ L) :
    -L < e' ∧ 2 * e' ≤ L := by
  obtain ⟨h1, h2⟩ := h.linear hL he he2
  have h3 := mul_le_mul_of_nonneg_left he2 (by omega : 0 ≤ L - d)
  have h4 := mul_le_mul_of_nonneg_left he.le (by omega : 0 ≤ L - d)
  have h5 := mul_le_mul_of_nonneg_left hd1 hL.le
  have h6 := mul_le_mul_of_nonneg_left hd2 hL.le
  constructor
  · exact lt_of_mul_lt_mul_left (by linarith : L * -L < L * e') hL.le
  · exact (lt_of_mul_lt_mul_left (by linarith : L * (2 * e') < L * L) hL.le).le

/-- The deviation in the rationals: `|u'| < (1 - d / L) * |u| + d`. -/
theorem JitteredStep.drift_contract (h : JitteredStep L f d e e') (he : -L < e)
    (he2 : 2 * e ≤ L) :
    |(driftDeviation L f d e' : ℚ)| ≤ (1 - d / L) * |(driftDeviation L f d e : ℚ)| + d := by
  have hc : L * |driftDeviation L f d e'| < (L - d) * |driftDeviation L f d e| + L * d := by
    have := abs_sub_abs_le_abs_sub (L * driftDeviation L f d e') ((L - d) * driftDeviation L f d e)
    rw [abs_mul, abs_mul, abs_of_pos hL, abs_of_nonneg (by omega : 0 ≤ L - d)] at this
    linarith [h.drift hL (by omega) he he2]
  have hL' : (0 : ℚ) < L := by exact_mod_cast hL
  have hc' : (L : ℚ) * |(driftDeviation L f d e' : ℚ)| <
      (L - d) * |(driftDeviation L f d e : ℚ)| + L * d := by exact_mod_cast hc
  rw [← mul_le_mul_left hL']
  calc (L : ℚ) * |(driftDeviation L f d e' : ℚ)|
      ≤ (L - d) * |(driftDeviation L f d e : ℚ)| + L * d := hc'.le
    _ = L * ((1 - d / L) * |(driftDeviation L f d e : ℚ)| + d) := by
        rw [mul_add, ← mul_assoc, mul_sub, mul_one, mul_div_cancel₀ _ hL'.ne']

end Drift

section DriftRun

variable {L f d : Int} (e : ℕ → Int) (hstep : ∀ k, JitteredStep L f d (e k) (e (k + 1)))
  (hL : 0 < L) (hdL : d ≤ L) (hd1 : f + 1 ≤ 2 * d) (hd2 : d + 2 ≤ 2 * f)
include hstep hL hdL hd1 hd2

omit hdL hd1 in
/-- In the low clamp the error drops at every step, so a run reaches the linear regime within
`2 * e - L` steps. -/
theorem driftRun_exists_linear :
    ∀ n k, (2 * e k - L).toNat ≤ n → ∃ K, k ≤ K ∧ K ≤ k + n ∧ 2 * e K ≤ L
  | 0, k, hk => ⟨k, le_rfl, by omega, by omega⟩
  | n + 1, k, hk => by
    by_cases hlin : 2 * e k ≤ L
    · exact ⟨k, le_rfl, by omega, hlin⟩
    have := (hstep k).half hL (by omega)
    obtain ⟨K, hK1, hK2, hK⟩ := driftRun_exists_linear n (k + 1) (by omega)
    exact ⟨K, by omega, by omega, hK⟩

/-- Once in the linear regime, the run stays there. -/
theorem driftRun_linear (K : ℕ) (hK : -L < e K ∧ 2 * e K ≤ L) :
    ∀ k, -L < e (K + k) ∧ 2 * e (K + k) ≤ L
  | 0 => hK
  | k + 1 => (hstep (K + k)).linear_mem hL hdL hd1 hd2 (driftRun_linear K hK k).1
      (driftRun_linear K hK k).2

/-- From the linear regime the deviation decays geometrically, by a factor `1 - d / L` per step,
down to `L`. -/
theorem driftRun_decays (K : ℕ) (hK : -L < e K ∧ 2 * e K ≤ L) (k : ℕ) :
    |(driftDeviation L f d (e (K + k)) : ℚ)| ≤
      (1 - d / L) ^ k * |(driftDeviation L f d (e K) : ℚ)| + L := by
  have hL' : (0 : ℚ) < L := by exact_mod_cast hL
  have hρ : (0 : ℚ) ≤ 1 - d / L := by
    rw [sub_nonneg, div_le_one hL']
    exact_mod_cast hdL
  have hfix : (1 - d / L) * (L : ℚ) + d = L := by field_simp
  induction k with
  | zero =>
    rw [pow_zero, one_mul, Nat.add_zero]
    exact le_add_of_nonneg_right hL'.le
  | succ k ih =>
    have hk := driftRun_linear e hstep hL hdL hd1 hd2 K hK k
    calc |(driftDeviation L f d (e (K + (k + 1))) : ℚ)|
        ≤ (1 - d / L) * |(driftDeviation L f d (e (K + k)) : ℚ)| + d :=
          (hstep (K + k)).drift_contract hL hdL hd1 hd2 hk.1 hk.2
      _ ≤ (1 - d / L) * ((1 - d / L) ^ k * |(driftDeviation L f d (e K) : ℚ)| + L) + d :=
          add_le_add_right (mul_le_mul_of_nonneg_left ih hρ) _
      _ = (1 - d / L) ^ (k + 1) * |(driftDeviation L f d (e K) : ℚ)| + ((1 - d / L) * L + d) := by
          ring
      _ = (1 - d / L) ^ (k + 1) * |(driftDeviation L f d (e K) : ℚ)| + L := by rw [hfix]

/-- From the linear regime the time factor converges geometrically to the sink's rate `f / d`,
by a factor `1 - d / L` per step, within `1 / d`. -/
theorem driftRun_tracks (K : ℕ) (hK : -L < e K ∧ 2 * e K ≤ L) (k : ℕ) :
    |clampedTf L (e (K + k)) - f / d| ≤ (1 - d / L) ^ k * |clampedTf L (e K) - f / d| + 1 / d := by
  have hd : 0 < d := by omega
  have hLd : (0 : ℚ) < L * d := by exact_mod_cast mul_pos hL hd
  have habs : ∀ j, -L < e j → 2 * e j ≤ L →
      |clampedTf L (e j) - f / d| = |(driftDeviation L f d (e j) : ℚ)| / (L * d) :=
    fun j h1 h2 => by rw [clampedTf_sub_rate hL hd h1 h2, abs_div, abs_neg, abs_of_pos hLd]
  have hk := driftRun_linear e hstep hL hdL hd1 hd2 K hK k
  rw [habs _ hk.1 hk.2, habs _ hK.1 hK.2, div_le_iff₀ hLd]
  calc |(driftDeviation L f d (e (K + k)) : ℚ)|
      ≤ (1 - d / L) ^ k * |(driftDeviation L f d (e K) : ℚ)| + L :=
        driftRun_decays e hstep hL hdL hd1 hd2 K hK k
    _ = ((1 - d / L) ^ k * (|(driftDeviation L f d (e K) : ℚ)| / (L * d)) + 1 / d) * (L * d) := by
        rw [add_mul, mul_assoc, div_mul_cancel₀ _ hLd.ne', one_div_mul_eq_div,
          mul_div_cancel_right₀ _ (by exact_mod_cast hd.ne')]

/-- The lock on a drifting sink's rate: a run in `(-L, L)` reaches the linear regime within
`2 * e 0 - L` steps, and from there its time factor converges geometrically to `f / d`. -/
theorem driftRun_converges (hmem : ∀ k, -L < e k ∧ e k < L) :
    ∃ K ≤ (2 * e 0 - L).toNat, ∀ k, |clampedTf L (e (K + k)) - f / d| ≤
      (1 - d / L) ^ k * |clampedTf L (e K) - f / d| + 1 / d := by
  obtain ⟨K, -, hK0, hK⟩ := driftRun_exists_linear e hstep hL hd2 _ 0 le_rfl
  exact ⟨K, by omega, driftRun_tracks e hstep hL hdL hd1 hd2 K ⟨(hmem K).1, hK⟩⟩

end DriftRun

/-! ## One step -/

section Step

variable {L f e e' : Int}

/-- Away from an overrun and from the low clamp, the step in integers: `L * e'` is within `L`
of `(L - f) * e`. -/
theorem ErrorStep.linear (h : ErrorStep L f e e') (hL : 0 < L) (he : -L < e) (he2 : 2 * e ≤ L) :
    (L - f) * e - L < L * e' ∧ L * e' < (L - f) * e + L := by
  simpa using (jitteredStep_self_iff.mpr h).linear hL he he2

/-- At the low clamp the clock runs at half rate: `e'` is within one of `e - f / 2`. -/
theorem ErrorStep.half (h : ErrorStep L f e e') (hL : 0 < L) (he : L < 2 * e) :
    2 * e - f - 2 < 2 * e' ∧ 2 * e' < 2 * e - f + 2 := by
  have := (jitteredStep_self_iff.mpr h).half hL he
  omega

variable (hf : 0 < f) (hfL : 2 * f < L)
include hf hfL

/-- Below `L` the error stays in `(-L, L)`: the clock neither catches up with `read` nor falls a
whole latency behind it. -/
theorem ErrorStep.mem (h : ErrorStep L f e e') (he : e < L) : -L < e' ∧ e' < L := by
  have hL : 0 < L := by omega
  by_cases hover : e ≤ -L
  · rw [ErrorStep, if_pos hover] at h; omega
  by_cases hhalf : L < 2 * e
  · have := h.half hL hhalf; omega
  obtain ⟨h1, h2⟩ := h.linear hL (by omega) (by omega)
  have hLe := mul_pos (by omega : 0 < L - f) (by omega : 0 < L - e)
  have hLe' := mul_pos (by omega : 0 < L - f) (by omega : 0 < e + L)
  have hf1 := mul_nonneg (by omega : 0 ≤ f - 1) hL.le
  exact ⟨lt_of_mul_lt_mul_left (by linarith) hL.le, lt_of_mul_lt_mul_left (by linarith) hL.le⟩

/-- While the error is at least `L / f` in absolute value, the step shrinks it. -/
theorem ErrorStep.abs_lt_abs (h : ErrorStep L f e e') (he : -L < e) (he' : e < L)
    (hbig : L ≤ |e| * f) : |e'| < |e| := by
  have hL : 0 < L := by omega
  by_cases hhalf : L < 2 * e
  · have hpos : 0 < e := by omega
    rw [abs_of_pos hpos] at hbig ⊢
    have hf2 : 2 ≤ f := by
      by_contra hf1
      obtain rfl : f = 1 := by omega
      omega
    have := h.half hL hhalf
    exact abs_lt.mpr ⟨by omega, by omega⟩
  obtain ⟨h1, h2⟩ := h.linear hL he (by omega)
  rcases lt_trichotomy e 0 with hneg | rfl | hpos
  · rw [abs_of_neg hneg] at hbig ⊢
    have hLf : (L - f) * e < 0 := mul_neg_of_pos_of_neg (by omega) hneg
    exact abs_lt.mpr ⟨lt_of_mul_lt_mul_left (by linarith) hL.le,
      lt_of_mul_lt_mul_left (by linarith) hL.le⟩
  · simp at hbig; omega
  · rw [abs_of_pos hpos] at hbig ⊢
    have hLf : 0 < (L - f) * e := mul_pos (by omega) hpos
    exact abs_lt.mpr ⟨lt_of_mul_lt_mul_left (by linarith) hL.le,
      lt_of_mul_lt_mul_left (by linarith) hL.le⟩

/-- Once the error is below `L / f` in absolute value, it stays there. -/
theorem ErrorStep.settled (h : ErrorStep L f e e') (hs : |e| * f < L) : |e'| * f < L := by
  have hL : 0 < L := by omega
  have habs := abs_lt_of_settled hf hs
  by_cases hhalf : L < 2 * e
  · obtain rfl := eq_one_of_settled hf hs hhalf
    have := h.half hL hhalf
    have := le_abs_self e
    rw [abs_of_nonneg (by omega)]; omega
  obtain ⟨h1, h2⟩ := h.linear hL (by linarith [neg_abs_le e]) (by omega)
  have hLe : L * |e'| < (L - f) * |e| + L := by
    have hfe := mul_le_mul_of_nonneg_left (le_abs_self e) (by omega : 0 ≤ L - f)
    have hfe' := mul_le_mul_of_nonneg_left (neg_abs_le e) (by omega : 0 ≤ L - f)
    rw [← abs_of_pos hL, ← abs_mul, abs_of_pos hL]
    exact abs_lt.mpr ⟨by linarith, by linarith⟩
  have h1 := mul_lt_mul_of_pos_right hLe hf
  have h2 := mul_le_mul_of_nonneg_left hs.le (by omega : 0 ≤ L - f)
  exact lt_of_mul_lt_mul_left (by linarith) hL.le

end Step

/-! ## Whole runs of the recurrence -/

section Run

variable {L f : Int} (e : ℕ → Int) (hstep : ∀ k, ErrorStep L f (e k) (e (k + 1)))
include hstep

/-- A run that starts below `L` stays in `(-L, L)` from its second error on. -/
theorem errorRun_mem (hf : 0 < f) (hfL : 2 * f < L) (h0 : e 0 < L) :
    ∀ k, -L < e (k + 1) ∧ e (k + 1) < L
  | 0 => (hstep 0).mem hf hfL h0
  | k + 1 => (hstep (k + 1)).mem hf hfL (errorRun_mem hf hfL h0 k).2

/-- The descent: from an error of absolute value at most `n` in `(-L, L)`, the run reaches a
settled error. -/
theorem errorRun_exists_settled (hf : 0 < f) (hfL : 2 * f < L)
    (hmem : ∀ k, -L < e k ∧ e k < L) : ∀ n k, (e k).natAbs ≤ n → ∃ K, |e K| * f < L
  | 0, k, hk => ⟨k, by rw [Int.natAbs_eq_zero.mp (Nat.le_zero.mp hk)]; simpa using by omega⟩
  | n + 1, k, hk => by
    by_cases hs : |e k| * f < L
    · exact ⟨k, hs⟩
    have hlt := (hstep k).abs_lt_abs hf hfL (hmem k).1 (hmem k).2 (not_lt.mp hs)
    rw [Int.abs_eq_natAbs, Int.abs_eq_natAbs] at hlt
    exact errorRun_exists_settled hf hfL hmem n (k + 1) (by omega)

/-- The rate of the lock-in: the error of a run that starts below `L` decays geometrically, by a
factor of at least `1 - f / (2 * L)` per step, down to a floor of `2 * L / f`. -/
theorem errorRun_decays (hf : 0 < f) (hfL : 2 * f < L) (h0 : e 0 < L) (k : ℕ) :
    |(e k : ℚ)| ≤ (1 - f / (2 * L)) ^ k * |(e 0 : ℚ)| + 2 * L / f := by
  simpa using jitteredRun_decays (J := 0) e (fun _ => f)
    (fun k => jitteredStep_self_iff.mpr (hstep k)) (fun _ => by simp) hf hfL (by omega) h0 k

/-- The lock-in of the recurrence: a run that starts below `L` settles below `L / f` for
good. -/
theorem errorRun_settles (hf : 0 < f) (hfL : 2 * f < L) (h0 : e 0 < L) :
    ∃ K, ∀ k, K ≤ k → |e k| * f < L := by
  obtain ⟨K, hK⟩ := errorRun_exists_settled (fun k => e (k + 1)) (fun k => hstep (k + 1)) hf hfL
    (errorRun_mem e hstep hf hfL h0) _ 0 le_rfl
  refine ⟨K + 1, fun k hk => ?_⟩
  induction k, hk using Nat.le_induction with
  | base => exact hK
  | succ k _ ih => exact (hstep k).settled hf hfL ih

end Run

end TimeInterpolator
end Android
