import TimeInterpolator.Recurrence
import TimeInterpolator.Underrun

/-!
# TimeInterpolator — lock-in at a steady cadence

A sink posts `f` microseconds every `f` microseconds: a cold start at `w`, then
`post_buffer(f)` at `w + f`, `w + 2 * f`, .... The errors of its feedback steps follow
`ErrorStep` of `Recurrence`, so with `0 < 2 * f < latency` and `f < max(latency / 2, 40000)`
the loop locks in (`cadence_locks_in`). Without the second proviso the stream can stop
(`cadence_underruns_at_odd_latency`, `cadence_alternates`).
-/

namespace Android
namespace TimeInterpolator

open State

/-- The steady cadence: the state after the cold start at `w` (`k = 0`) and after the
`k`-th post that follows it, at `w + k * f`. -/
def cadence (s : TimeInterpolator) (w f : Int) : ℕ → TimeInterpolator
  | 0 => s.postBuffer w f
  | k + 1 => (cadence s w f k).postBuffer (w + (k + 1) * f) f

theorem cadence_succ (s : TimeInterpolator) (w f : Int) (k : ℕ) :
    cadence s w f (k + 1) = (cadence s w f k).postBuffer (w + (k + 1) * f) f := rfl

/-- The calls of the cadence up to its `k`-th post. -/
def cadenceCalls (w f : Int) (k : ℕ) : List (Int × Call) :=
  (List.range (k + 1)).map fun i : ℕ => (w + (i : Int) * f, Call.postBuffer f)

/-- The cadence is a run of the interface from any state whose clock was last read before
`w`. -/
theorem cadence_run {s : TimeInterpolator} {c w f : Int} (hc : c ≤ w) (hf : 0 ≤ f) (k : ℕ) :
    Run LegalCall s c (cadenceCalls w f k) (cadence s w f k) (w + k * f) := by
  induction k with
  | zero =>
    simp only [cadenceCalls, cadence, List.range_succ, List.range_zero, List.nil_append,
      List.map_cons, List.map_nil, Nat.cast_zero, zero_mul, add_zero]
    exact .cons hc hf (.nil _ _)
  | succ k ih =>
    rw [cadenceCalls, List.range_succ, List.map_append, ← cadenceCalls]
    refine ih.append (.cons ?_ hf (.nil _ _))
    push_cast; linarith

/-! ## The error of a feedback step -/

variable {s : TimeInterpolator} {L f t t1 e : Int}

/-- The error `e = pos1 - (read - latency)` of a feedback step at `t1`, from `int64_t`
operands. -/
def feedbackError (s : TimeInterpolator) (t1 : Int) : Int :=
  s.pos1 t1 - (s.read + s.queued - s.latency)

theorem positionError_eq (s : TimeInterpolator) (t1 : Int) :
    s.positionError t1 = s.feedbackError t1 := by
  simp [positionError, feedbackError]

/-- The feedback step clamps `1 - e / latency` as the abstract loop does. -/
theorem settle_Tf (s : TimeInterpolator) (t1 f : Int) :
    (s.settle t1 f false).Tf = clampedTf s.latency (s.feedbackError t1) := by
  simp [settle, clampTf_Tf, feedback, clampedTf, positionError_eq]

/-- A post made a whole frame after `t0` is never aggregated. -/
theorem not_aggregated (hf : 0 ≤ f) : ¬ f < f.tdiv 4 := by
  rw [Int.tdiv_eq_ediv hf (by decide)]; omega

/-- A feedback step that finds the clock a latency or more behind re-pins it one latency behind
the new read pointer, at least a latency ahead, and doubles its rate. -/
theorem overrun_jumps_forward (hs : s.state = rolling) (hL : 0 < s.latency) (hT : 0 ≤ s.Tf)
    (ht : s.t0 ≤ t1) (hagg : ¬ t1 - s.t0 < f.tdiv 4) (hover : s.feedbackError t1 ≤ -s.latency) :
    (s.postBuffer t1 f).state = rolling ∧ (s.postBuffer t1 f).Tf = 2 ∧
      (s.postBuffer t1 f).projection t1 = s.readPointer - s.latency ∧
      s.projection t1 + s.latency ≤ (s.postBuffer t1 f).projection t1 := by
  have h2 : 2 ≤ (s.feedback t1 f false).Tf := by
    simp only [feedback, Bool.false_eq_true, if_false, positionError_eq]
    exact (two_le_one_sub_div_iff hL).mpr hover
  have hpos0 : (s.settle t1 f false).pos0 = s.readPointer - s.latency := by
    rw [settle_pos0, if_pos ⟨h2, hs⟩, readPointer]
  have hunder : ¬ (s.settle t1 f false).read ≤ (s.settle t1 f false).pos0 := by
    rw [settle_read, hpos0, readPointer]; omega
  have hpost : s.postBuffer t1 f = s.settle t1 f false := by
    rw [postBuffer_of_ne_stopped s (by simp [hs]), with_state_self s hs, rollingUpdate,
      if_neg (by rw [hs]; exact fun h => hagg h.2), if_neg (by simpa [hs] using hunder)]
    simp [hs]
  have hTf : (s.settle t1 f false).Tf = 2 := by rw [settle, clampTf_Tf, if_pos h2]
  have hnew : (s.settle t1 f false).projection t1 = s.readPointer - s.latency := by
    rw [projection, hTf, settle_t0, sub_self, mul_zero, max_self, toInt64_zero, add_zero, hpos0]
  have hold := (projection_le_pos1 hT ht).trans (pos1_le_of_overrun hL h2)
  rw [hpost]
  refine ⟨by simp [hs], hTf, hnew, ?_⟩
  rw [hnew, readPointer]; omega

/-- A stream cold-started at clock 0 that then takes a burst of 800 ms at 1 ms, aggregated. -/
def burstStarted : TimeInterpolator := coldStarted.postBuffer 1000 800000

theorem overrun_jumps_forward_burstStarted :
    burstStarted.state = rolling ∧ 0 < burstStarted.latency ∧ 0 ≤ burstStarted.Tf ∧
      burstStarted.t0 ≤ 200000 ∧ ¬ 200000 - burstStarted.t0 < (20000 : Int).tdiv 4 ∧
      burstStarted.feedbackError 200000 ≤ -burstStarted.latency ∧
      (burstStarted.postBuffer 200000 20000).state = rolling ∧
      (burstStarted.postBuffer 200000 20000).Tf = 2 ∧
      (burstStarted.postBuffer 200000 20000).projection 200000 =
        burstStarted.readPointer - burstStarted.latency ∧
      burstStarted.projection 200000 + burstStarted.latency ≤
        (burstStarted.postBuffer 200000 20000).projection 200000 := by
  have hs : burstStarted.state = rolling := by decide
  have hL : 0 < burstStarted.latency := by decide
  have hT : 0 ≤ burstStarted.Tf := by decide
  have ht : burstStarted.t0 ≤ 200000 := by decide
  have hagg : ¬ 200000 - burstStarted.t0 < (20000 : Int).tdiv 4 := by decide
  have hover : burstStarted.feedbackError 200000 ≤ -burstStarted.latency := by
    norm_num [feedbackError, pos1, burstStarted, coldStarted, construct, unset,
      TimeInterpolator.seek, postBuffer, coldStart, rollingUpdate, initialOffset,
      defaultAudioLatency, Int.tdiv_eq_ediv]
  exact ⟨hs, hL, hT, ht, hagg, hover, overrun_jumps_forward hs hL hT ht hagg hover⟩

/-- A rolling clock locked onto the cadence: its last feedback step, at `t`, found the error `e`
below the latency. -/
structure Locked (L f t e : Int) (s : TimeInterpolator) : Prop where
  rolling : s.state = rolling
  latency_eq : s.latency = L
  queued_eq : s.queued = f
  t0_eq : s.t0 = t
  Tf_eq : s.Tf = clampedTf L e
  pos0_eq : s.pos0 = if e ≤ -L then s.read - L else s.read - L + e

/-- A post on a rolling clock that is not aggregated runs the feedback step; it does not
underrun while its error is below the latency, and it leaves the clock locked. -/
theorem postBuffer_locked_of_not_aggregated (hs : s.state = rolling) (hL : 0 < s.latency)
    (hagg : ¬ t1 - s.t0 < f.tdiv 4) (hlt : s.feedbackError t1 < s.latency) :
    ¬ s.PostUnderruns t1 f ∧
      Locked s.latency f t1 (s.feedbackError t1) (s.postBuffer t1 f) := by
  have hover : 2 ≤ (s.feedback t1 f false).Tf ↔ s.feedbackError t1 ≤ -s.latency := by
    simp only [feedback, Bool.false_eq_true, if_false, positionError_eq]
    exact two_le_one_sub_div_iff hL
  have hpos0 : (s.settle t1 f false).pos0 =
      if s.feedbackError t1 ≤ -s.latency then s.read + s.queued - s.latency
      else s.read + s.queued - s.latency + s.feedbackError t1 := by
    rw [settle_pos0]
    simp only [hs, and_true, hover, feedbackError]
    split_ifs <;> ring
  have hunder : ¬ (s.settle t1 f false).read ≤ (s.settle t1 f false).pos0 := by
    rw [settle_read, hpos0]; split_ifs <;> omega
  have hpost : s.postBuffer t1 f = s.settle t1 f false := by
    rw [postBuffer_of_ne_stopped s (by simp [hs]), with_state_self s hs, rollingUpdate,
      if_neg (by rw [hs]; exact fun h => hagg h.2), if_neg (by simpa [hs] using hunder)]
    simp [hs]
  refine ⟨fun ⟨_, _, h⟩ => hunder (by simpa [with_state_self s hs, hs] using h), ?_⟩
  rw [hpost]
  exact ⟨by simp [hs], by simp, by simp, by simp, settle_Tf s t1 f, by simpa using hpos0⟩

/-- One post of the cadence on a rolling clock, a frame after `t0`: the feedback step runs,
does not underrun while its error is below the latency, and leaves the clock locked. -/
theorem postBuffer_locked (hs : s.state = rolling) (hL : 0 < s.latency) (hf : 0 < f)
    (ht : t1 = s.t0 + f) (hlt : s.feedbackError t1 < s.latency) :
    ¬ s.PostUnderruns t1 f ∧
      Locked s.latency f t1 (s.feedbackError t1) (s.postBuffer t1 f) :=
  postBuffer_locked_of_not_aggregated hs hL
    (by rw [ht, add_sub_cancel_left]; exact not_aggregated hf.le) hlt

/-- The next error of a locked clock, posted to `d` after its epoch, follows the jittered
loop. -/
theorem Locked.jitteredStep {d : Int} (h : Locked L f t e s) (hL : 0 < L) (ht : t1 = t + d) :
    JitteredStep L f d e (s.feedbackError t1) := by
  have hdt : (t1 : ℚ) - s.t0 = d := by rw [h.t0_eq, ht]; push_cast; ring
  have hpos1 : s.pos1 t1 = toInt64 (s.pos0 + clampedTf L e * d) := by rw [pos1, h.Tf_eq, hdt]
  unfold JitteredStep feedbackError
  rw [hpos1, h.queued_eq, h.latency_eq, h.pos0_eq]
  split_ifs with hover
  · have hx : ((s.read - L : Int) : ℚ) + clampedTf L e * d = ((s.read - L + 2 * d : Int) : ℚ) := by
      rw [clampedTf_of_le_neg hL hover]; push_cast; ring
    rw [hx, toInt64_intCast]; ring
  · have hx := abs_toInt64_sub_lt (((s.read - L + e : Int) : ℚ) + clampedTf L e * d)
    convert hx using 2; push_cast; ring

/-- The next error of a locked clock follows the abstract loop. -/
theorem Locked.errorStep (h : Locked L f t e s) (hL : 0 < L) (ht : t1 = t + f) :
    ErrorStep L f e (s.feedbackError t1) :=
  jitteredStep_self_iff.mp (h.jitteredStep hL ht)

/-- A clock locked on a settled error reads within `L / f + 2` of the audio position
`read - L + d` at every point `t + d` of the frame that follows, short of the read pointer. -/
theorem Locked.projection_near (h : Locked L f t e s) (hf : 0 < f) (hs : |e| * f < L) {d : Int}
    (hd0 : 0 ≤ d) (hd : d < f) :
    s.projection (t + d) < s.readPointer ∧
      |(s.projection (t + d) : ℚ) - (s.read - L + d)| < L / f + 2 := by
  have habs := abs_lt_of_settled hf hs
  have hf' : (0 : ℚ) < f := by exact_mod_cast hf
  have hd' : (0 : ℚ) ≤ d := by exact_mod_cast hd0
  have hpos0 : s.pos0 = s.read - L + e := by rw [h.pos0_eq, if_neg (by linarith [neg_abs_le e])]
  have hT : |s.Tf - 1| * f < 1 := by
    rw [← lt_div_iff₀ hf', h.Tf_eq]; exact abs_clampedTf_sub_one_lt hf hs
  have hTd : 0 ≤ s.Tf * d := mul_nonneg (by linarith [h.Tf_eq ▸ half_le_clampedTf L e]) hd'
  have hdt : ((t + d : Int) : ℚ) - t = d := by push_cast; ring
  have hproj : s.projection (t + d) = s.pos0 + toInt64 (s.Tf * d) := by
    rw [projection, h.t0_eq, hdt, max_eq_left hTd]
  -- the three errors: the settled error, the time factor over `d`, the truncation
  have he : |(e : ℚ)| < L / f := by rw [lt_div_iff₀ hf', ← Int.cast_abs]; exact_mod_cast hs
  have hx : |s.Tf * d - d| < 1 := by
    rw [← sub_one_mul, abs_mul, abs_of_nonneg hd']
    calc |s.Tf - 1| * d ≤ |s.Tf - 1| * f :=
          mul_le_mul_of_nonneg_left (by exact_mod_cast hd.le) (abs_nonneg _)
      _ < 1 := hT
  have htr := abs_toInt64_sub_lt (s.Tf * d)
  constructor
  · have hle : toInt64 (s.Tf * d) ≤ d := by
      have hfl : (toInt64 (s.Tf * d) : ℚ) ≤ s.Tf * d := by
        rw [toInt64_of_nonneg hTd]; exact Int.floor_le _
      have : (toInt64 (s.Tf * d) : ℚ) < d + 1 := by linarith [(abs_lt.mp hx).2]
      exact Int.lt_add_one_iff.mp (by exact_mod_cast this)
    rw [hproj, hpos0, readPointer, h.queued_eq]
    linarith [le_abs_self e]
  · rw [hproj, hpos0]; push_cast
    obtain ⟨a1, a2⟩ := abs_lt.mp he
    obtain ⟨b1, b2⟩ := abs_lt.mp hx
    obtain ⟨c1, c2⟩ := abs_lt.mp htr
    exact abs_lt.mpr ⟨by linarith, by linarith⟩

/-! ## The cadence locks in -/

/-- The cold start leaves the clock `initialOffset` behind the data it wrote; a post `d` later
finds the error `latency - initialOffset + d`. -/
theorem coldStart_feedbackError_at (s : TimeInterpolator) (w f d : Int) :
    (s.coldStart w f).feedbackError (w + d) = s.latency - initialOffset s.latency + d := by
  have hx : ((s.read + f - initialOffset s.latency : Int) : ℚ) + 1 * ((w + d : Int) - (w : ℚ)) =
      ((s.read + f - initialOffset s.latency + d : Int) : ℚ) := by push_cast; ring
  simp only [feedbackError, pos1, coldStart, hx, toInt64_intCast]
  ring

/-- A frame after the cold start, the feedback step finds the error
`latency - initialOffset + f`. -/
theorem coldStart_feedbackError (s : TimeInterpolator) (w f : Int) :
    (s.coldStart w f).feedbackError (w + f) = s.latency - initialOffset s.latency + f :=
  coldStart_feedbackError_at s w f f

/-- The first feedback step after a cold start underruns exactly when the cold start's offset
is at most one frame. -/
theorem cadence_zero_postUnderruns_iff {w : Int} (hs : s.state = stopped) (hf : 0 < f)
    (hL : 0 < s.latency) :
    (cadence s w f 0).PostUnderruns (w + f) f ↔ initialOffset s.latency ≤ f := by
  have hc : cadence s w f 0 = s.coldStart w f := postBuffer_of_stopped s hs
  have he := coldStart_feedbackError s w f
  have hr : (s.coldStart w f).state = rolling := rfl
  rw [hc, postUnderruns_iff hr hL (by simpa [coldStart] using not_aggregated hf.le)]
  simp only [feedbackError, readPointer, coldStart] at he ⊢
  omega

section Cadence

variable {w : Int} (hs : s.state = stopped) (hf : 0 < f) (hfL : 2 * f < s.latency)
include hs hf hfL

/-- Along the cadence the clock stays rolling at one post per frame, and every feedback step
finds it behind the read pointer. -/
theorem cadence_rolling (hoff : f < initialOffset s.latency) (k : ℕ) :
    (cadence s w f k).state = rolling ∧ (cadence s w f k).t0 = w + k * f ∧
      (cadence s w f k).latency = s.latency ∧
      (cadence s w f k).feedbackError (w + (k + 1) * f) < s.latency := by
  have hL : 0 < s.latency := by omega
  induction k with
  | zero =>
    have hc : cadence s w f 0 = s.coldStart w f := postBuffer_of_stopped s hs
    have he := coldStart_feedbackError s w f
    simp only [hc, Nat.cast_zero, zero_mul, add_zero, zero_add, one_mul] at he ⊢
    exact ⟨rfl, rfl, rfl, by omega⟩
  | succ k ih =>
    obtain ⟨hr, ht, hlat, hlt⟩ := ih
    obtain ⟨-, hlock⟩ := postBuffer_locked hr (hlat ▸ hL) hf
      (by rw [ht]; ring) (hlat.symm ▸ hlt)
    rw [hlat] at hlock
    have hstep : ErrorStep s.latency f _ ((cadence s w f (k + 1)).feedbackError
        (w + ((k + 1 : ℕ) + 1) * f)) := hlock.errorStep hL (by push_cast; ring)
    exact ⟨hlock.rolling, hlock.t0_eq.trans (by push_cast; ring), hlock.latency_eq,
      (hstep.mem hf hfL hlt).2⟩

/-- Each post of the cadence after the cold start runs the feedback step without underrunning,
and leaves the clock locked on the error it found. -/
theorem cadence_locked (hoff : f < initialOffset s.latency) (k : ℕ) :
    ¬ (cadence s w f k).PostUnderruns (w + (k + 1) * f) f ∧
      Locked s.latency f (w + (k + 1) * f) ((cadence s w f k).feedbackError (w + (k + 1) * f))
        (cadence s w f (k + 1)) := by
  obtain ⟨hr, ht, hlat, hlt⟩ := cadence_rolling (w := w) hs hf hfL hoff k
  have hL : 0 < (cadence s w f k).latency := by omega
  have h := postBuffer_locked hr hL hf (by rw [ht]; ring) (hlat.symm ▸ hlt)
  rw [hlat] at h
  exact h

/-- From some post on, every feedback step of the cadence finds a settled error. -/
theorem cadence_settles (hoff : f < initialOffset s.latency) :
    ∃ K : ℕ, ∀ k, K ≤ k → |(cadence s w f k).feedbackError (w + (k + 1) * f)| * f < s.latency := by
  let e : ℕ → Int := fun k => (cadence s w f k).feedbackError (w + (k + 1) * f)
  have hstep : ∀ k, ErrorStep s.latency f (e k) (e (k + 1)) := fun k =>
    (cadence_locked hs hf hfL hoff k).2.errorStep (by omega) (by push_cast; ring)
  exact errorRun_settles e hstep hf hfL (cadence_rolling hs hf hfL hoff 0).2.2.2

end Cadence

/-- Steady-cadence lock-in: no post underruns, and from some post on every error is below
`latency / f` and the time factor within `1 / f` of one. -/
theorem cadence_locks_in (s : TimeInterpolator) (w f : Int) (hs : s.state = stopped)
    (hf : 0 < f) (hfL : 2 * f < s.latency) (hoff : f < initialOffset s.latency) :
    (∀ k : ℕ, (cadence s w f k).state = rolling ∧
        ¬ (cadence s w f k).PostUnderruns (w + (k + 1) * f) f) ∧
      ∃ K : ℕ, ∀ k, K ≤ k →
        |(cadence s w f k).positionError (w + (k + 1) * f)| < s.latency / f ∧
          |(cadence s w f (k + 1)).Tf - 1| < 1 / f := by
  have hf' : (0 : ℚ) < f := by exact_mod_cast hf
  obtain ⟨K, hK⟩ := cadence_settles (w := w) hs hf hfL hoff
  refine ⟨fun k => ⟨(cadence_rolling hs hf hfL hoff k).1, (cadence_locked hs hf hfL hoff k).1⟩,
    K, fun k hk => ⟨?_, ?_⟩⟩
  · rw [positionError_eq, lt_div_iff₀ hf', ← Int.cast_abs]
    exact_mod_cast hK k hk
  · rw [(cadence_locked hs hf hfL hoff k).2.Tf_eq]
    exact abs_clampedTf_sub_one_lt hf (hK k hk)

theorem cadence_locks_in_construct :
    (construct 0).state = stopped ∧ (0 : Int) < 20000 ∧ 2 * 20000 < (construct 0).latency ∧
      20000 < initialOffset (construct 0).latency ∧
      (∀ k : ℕ, (cadence (construct 0) 0 20000 k).state = rolling ∧
        ¬ (cadence (construct 0) 0 20000 k).PostUnderruns (0 + (k + 1) * 20000) 20000) ∧
      ∃ K : ℕ, ∀ k, K ≤ k →
        |(cadence (construct 0) 0 20000 k).positionError (0 + (k + 1) * 20000)| <
            (construct 0).latency / 20000 ∧
          |(cadence (construct 0) 0 20000 (k + 1)).Tf - 1| < 1 / 20000 :=
  ⟨by decide, by decide, by decide, by decide,
    cadence_locks_in (construct 0) 0 20000 (by decide) (by decide) (by decide) (by decide)⟩

/-- From some post on, a read in the frame after a post reports the audio position within
`latency / f + 2` microseconds, and never underruns. -/
theorem cadence_tracks_audio (s : TimeInterpolator) (w f : Int) (hs : s.state = stopped)
    (hf : 0 < f) (hfL : 2 * f < s.latency) (hoff : f < initialOffset s.latency) :
    ∃ K : ℕ, ∀ k, K ≤ k → ∀ d : Int, 0 ≤ d → d < f →
      ¬ Call.getStreamUsecs.Underruns (cadence s w f (k + 1)) (w + (k + 1) * f + d) ∧
        |(((cadence s w f (k + 1)).getStreamUsecs (w + (k + 1) * f + d)).1 : ℚ) -
          ((cadence s w f (k + 1)).read - s.latency + d)| < s.latency / f + 2 := by
  obtain ⟨K, hK⟩ := cadence_settles (w := w) hs hf hfL hoff
  refine ⟨K, fun k hk d hd0 hd => ?_⟩
  have hlock := (cadence_locked (w := w) hs hf hfL hoff k).2
  obtain ⟨hlt, hnear⟩ := hlock.projection_near hf (hK k hk) hd0 hd
  have hun : ¬ Call.getStreamUsecs.Underruns (cadence s w f (k + 1)) (w + (k + 1) * f + d) :=
    fun hu => absurd hu.2.1 (not_le.mpr hlt)
  refine ⟨hun, ?_⟩
  rw [getStreamUsecs_fst_of_not_underruns hun, reading, if_neg (by simp [hlock.rolling])]
  exact hnear

theorem cadence_tracks_audio_construct :
    (construct 0).state = stopped ∧ (0 : Int) < 20000 ∧ 2 * 20000 < (construct 0).latency ∧
      20000 < initialOffset (construct 0).latency ∧
      ∃ K : ℕ, ∀ k, K ≤ k → ∀ d : Int, 0 ≤ d → d < 20000 →
        ¬ Call.getStreamUsecs.Underruns (cadence (construct 0) 0 20000 (k + 1))
          (0 + (k + 1) * 20000 + d) ∧
        |(((cadence (construct 0) 0 20000 (k + 1)).getStreamUsecs
            (0 + (k + 1) * 20000 + d)).1 : ℚ) -
          ((cadence (construct 0) 0 20000 (k + 1)).read - (construct 0).latency + d)| <
            (construct 0).latency / 20000 + 2 :=
  ⟨by decide, by decide, by decide, by decide,
    cadence_tracks_audio (construct 0) 0 20000 (by decide) (by decide) (by decide) (by decide)⟩

/-! ## Bursts -/

/-- Posts faster than the cadence: a `post_buffer(f)` made less than a quarter of its frame
after the epoch's `t0`. -/
def BurstCall (s : TimeInterpolator) (now : Int) (call : Call) : Prop :=
  ∃ f, call = .postBuffer f ∧ now - s.t0 < f.tdiv 4

/-- A post on a rolling stream inside the aggregation window only adds its frame to
`queued`. -/
theorem postBuffer_of_aggregated {s : TimeInterpolator} {now f : Int} (hs : s.state = rolling)
    (h : now - s.t0 < f.tdiv 4) : s.postBuffer now f = { s with queued := s.queued + f } := by
  rw [postBuffer_of_ne_stopped s (by simp [hs]), with_state_self s hs, rollingUpdate,
    if_pos ⟨hs, h⟩]

/-- A burst of posts each less than a quarter frame after `t0` is aggregated as a whole, however
the posts are spaced among themselves. -/
theorem burst_aggregates {s s' : TimeInterpolator} {c c' : Int} {cs : List (Int × Call)}
    (hs : s.state = rolling) (hrun : Run BurstCall s c cs s' c') :
    s' = { s with queued := s.queued + posted cs } := by
  induction hrun with
  | nil => simp
  | cons _ hok _ ih =>
    obtain ⟨f, rfl, hw⟩ := hok
    rw [ih (by simp [Call.exec, postBuffer_of_aggregated hs hw, hs])]
    simp [Call.exec, postBuffer_of_aggregated hs hw, Call.frames, add_assoc]

theorem burst_aggregates_coldStarted :
    coldStarted.state = rolling ∧
      (Call.postBuffer 20000).exec ((Call.postBuffer 20000).exec coldStarted 1000) 2000 =
        { coldStarted with
          queued :=
            coldStarted.queued + posted [(1000, .postBuffer 20000), (2000, .postBuffer 20000)] } :=
  have hs : coldStarted.state = rolling := by decide
  ⟨hs, burst_aggregates hs (c := 0) (.cons (by decide) ⟨20000, rfl, by decide⟩
    (.cons (by decide) ⟨20000, rfl, by decide⟩ (.nil _ _)))⟩

/-- At latency `80001` and frame `40000` the cold start's offset equals the frame: the first
feedback step underruns. -/
theorem cadence_underruns_at_odd_latency :
    ((construct 0).setLatency 80001).state = stopped ∧ (0 : Int) < 40000 ∧
      2 * 40000 < ((construct 0).setLatency 80001).latency ∧
      (cadence ((construct 0).setLatency 80001) 0 40000 0).PostUnderruns (0 + 40000) 40000 ∧
      (cadence ((construct 0).setLatency 80001) 0 40000 1).state = stopped := by
  have hu : (cadence ((construct 0).setLatency 80001) 0 40000 0).PostUnderruns (0 + 40000) 40000 :=
    (cadence_zero_postUnderruns_iff (by decide) (by decide) (by decide)).mpr (by decide)
  refine ⟨by decide, by decide, by decide, hu, ?_⟩
  show ((cadence _ 0 40000 0).postBuffer (0 + ((0 : ℕ) + 1) * 40000) 40000).state = stopped
  rw [show (0 : Int) + ((0 : ℕ) + 1) * 40000 = 0 + 40000 by decide, postBuffer_of_postUnderruns hu]
  rfl

/-! ## Frames past the offset -/

/-- A cold start whose offset is at most one frame underruns at the next post, a frame later,
and leaves the stream stopped with its latency. -/
theorem coldStart_underruns {q : TimeInterpolator} {t f : Int} (hq : q.state = stopped)
    (hf : 0 < f) (hL : 0 < q.latency) (hoff : initialOffset q.latency ≤ f) :
    (q.coldStart t f).PostUnderruns (t + f) f ∧
      ((q.coldStart t f).postBuffer (t + f) f).state = stopped ∧
      ((q.coldStart t f).postBuffer (t + f) f).latency = q.latency := by
  have hu : (q.coldStart t f).PostUnderruns (t + f) f := by
    have h := (cadence_zero_postUnderruns_iff (w := t) hq hf hL).mpr hoff
    rwa [cadence, postBuffer_of_stopped q hq] at h
  rw [postBuffer_of_postUnderruns hu]
  exact ⟨hu, rfl, by simp [errUnderrun, coldStart]⟩

/-- Every second state of such a cadence is a cold start from a stopped state with the
latency of the start. -/
theorem cadence_two_mul {s : TimeInterpolator} {w f : Int} (hs : s.state = stopped)
    (hf : 0 < f) (hL : 0 < s.latency) (hoff : initialOffset s.latency ≤ f) (j : ℕ) :
    ∃ q : TimeInterpolator, q.state = stopped ∧ q.latency = s.latency ∧
      cadence s w f (2 * j) = q.coldStart (w + 2 * j * f) f := by
  induction j with
  | zero => exact ⟨s, hs, rfl, by simp [cadence, postBuffer_of_stopped s hs]⟩
  | succ j ih =>
    obtain ⟨q, hq, hlat, hc⟩ := ih
    obtain ⟨-, hst, hlat'⟩ :=
      coldStart_underruns (t := w + 2 * j * f) hq hf (hlat ▸ hL) (hlat ▸ hoff)
    refine ⟨_, hst, hlat'.trans hlat, ?_⟩
    have h1 : w + (((2 * j : ℕ) : Int) + 1) * f = w + 2 * j * f + f := by push_cast; ring
    have h2 : w + (((2 * j + 1 : ℕ) : Int) + 1) * f = w + 2 * ((j + 1 : ℕ) : Int) * f := by
      push_cast; ring
    rw [show 2 * (j + 1) = 2 * j + 1 + 1 by ring, cadence_succ, cadence_succ, hc, h1, h2,
      postBuffer_of_stopped _ hst]

/-- With frames of at least the cold start's offset, every first feedback step underruns: the
cadence alternates forever between a cold start and a stop. -/
theorem cadence_alternates (s : TimeInterpolator) (w f : Int) (hs : s.state = stopped)
    (hf : 0 < f) (hL : 0 < s.latency) (hoff : initialOffset s.latency ≤ f) (j : ℕ) :
    (cadence s w f (2 * j)).state = rolling ∧
      (cadence s w f (2 * j)).PostUnderruns (w + (2 * j + 1) * f) f ∧
      (cadence s w f (2 * j + 1)).state = stopped := by
  obtain ⟨q, hq, hlat, hc⟩ := cadence_two_mul (w := w) hs hf hL hoff j
  obtain ⟨hu, hst, -⟩ :=
    coldStart_underruns (t := w + 2 * j * f) hq hf (hlat ▸ hL) (hlat ▸ hoff)
  have ht : w + (((2 * j : ℕ) : Int) + 1) * f = w + 2 * j * f + f := by push_cast; ring
  refine ⟨by rw [hc]; rfl, by rwa [hc, show w + (2 * j + 1) * f = w + 2 * j * f + f by ring], ?_⟩
  rwa [cadence_succ, hc, ht]

theorem cadence_alternates_construct :
    (construct 0).state = stopped ∧ (0 : Int) < 80000 ∧ 0 < (construct 0).latency ∧
      initialOffset (construct 0).latency ≤ 80000 ∧
      ∀ j : ℕ, (cadence (construct 0) 0 80000 (2 * j)).state = rolling ∧
        (cadence (construct 0) 0 80000 (2 * j)).PostUnderruns (0 + (2 * j + 1) * 80000) 80000 ∧
        (cadence (construct 0) 0 80000 (2 * j + 1)).state = stopped :=
  ⟨by decide, by decide, by decide, by decide,
    cadence_alternates (construct 0) 0 80000 (by decide) (by decide) (by decide) (by decide)⟩

end TimeInterpolator
end Android
