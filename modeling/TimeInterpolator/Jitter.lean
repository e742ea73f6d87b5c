import TimeInterpolator.Readers
import TimeInterpolator.Pause

/-!
# TimeInterpolator — posts off the cadence

The `k + 1`-th post comes `ds k` microseconds after the epoch the `k`-th one left, within `J` of
the frame. With `4 * J < f` no post underruns and the error decays geometrically
(`jitter_tolerated`); a drifting sink's rate is tracked (`drift_tracked`); with readers and
seeks the clock stays within `lagBound` of the data (`jittered_sink_lag_bounded`).
-/

namespace Android
namespace TimeInterpolator

open State

/-- The cadence with jitter: the cold start at `w`, then the `k + 1`-th post of `f`
microseconds `ds k` after the epoch that the `k`-th post left. -/
def jitteredCadence (s : TimeInterpolator) (w f : Int) (ds : ℕ → Int) : ℕ → TimeInterpolator
  | 0 => s.postBuffer w f
  | k + 1 => (jitteredCadence s w f ds k).postBuffer ((jitteredCadence s w f ds k).t0 + ds k) f

/-- The error that the feedback step of the `k + 1`-th post finds. -/
def jitteredError (s : TimeInterpolator) (w f : Int) (ds : ℕ → Int) (k : ℕ) : Int :=
  (jitteredCadence s w f ds k).feedbackError ((jitteredCadence s w f ds k).t0 + ds k)

/-- A post within a quarter frame of jitter of the cadence is never aggregated. -/
theorem not_aggregated_of_jitter {f d J : Int} (hd : |d - f| ≤ J) (hJ : 4 * J < f) :
    ¬ d < f.tdiv 4 := by
  have := abs_le.mp hd
  rw [Int.tdiv_eq_ediv (by omega) (by decide)]
  omega

/-- The first feedback step finds the error the cold start left, `latency - initialOffset`,
plus the interval to the post. -/
theorem jitteredError_zero {s : TimeInterpolator} {w f : Int} {ds : ℕ → Int}
    (hs : s.state = stopped) :
    jitteredError s w f ds 0 = s.latency - initialOffset s.latency + ds 0 := by
  rw [jitteredError, jitteredCadence, postBuffer_of_stopped s hs]
  exact coldStart_feedbackError_at s w f (ds 0)

section Jitter

variable {s : TimeInterpolator} {w f J : Int} {ds : ℕ → Int} (hf : 0 < f)
  (hfL : 2 * f < s.latency) (hJ : 4 * J < f) (hds : ∀ k, |ds k - f| ≤ J)
include hf hfL hJ hds

/-- A jittered post on a locked clock: no underrun, the clock stays rolling at that latency, and
the next error follows the jittered loop. -/
theorem jitteredCadence_succ {k : ℕ} (hr : (jitteredCadence s w f ds k).state = rolling)
    (hlat : (jitteredCadence s w f ds k).latency = s.latency)
    (hlt : jitteredError s w f ds k < s.latency) :
    ¬ (jitteredCadence s w f ds k).PostUnderruns ((jitteredCadence s w f ds k).t0 + ds k) f ∧
      (jitteredCadence s w f ds (k + 1)).state = rolling ∧
      (jitteredCadence s w f ds (k + 1)).latency = s.latency ∧
      JitteredStep s.latency f (ds (k + 1)) (jitteredError s w f ds k)
        (jitteredError s w f ds (k + 1)) ∧
      (jitteredCadence s w f ds (k + 1)).Tf = clampedTf s.latency (jitteredError s w f ds k) := by
  have hL : 0 < s.latency := by omega
  obtain ⟨hu, hlock⟩ := postBuffer_locked_of_not_aggregated hr (hlat ▸ hL)
    (by rw [add_sub_cancel_left]; exact not_aggregated_of_jitter (hds k) hJ) (hlat ▸ hlt)
  rw [hlat] at hlock
  exact ⟨hu, hlock.rolling, hlock.latency_eq,
    hlock.jitteredStep hL (by rw [jitteredCadence, hlock.t0_eq]), hlock.Tf_eq⟩

/-- From a stopped start, every post of the jittered cadence finds the clock rolling at the
starting latency with its error below the latency. -/
theorem jitteredCadence_inv (hs : s.state = stopped) (hoff : f + J < initialOffset s.latency)
    (k : ℕ) : (jitteredCadence s w f ds k).state = rolling ∧
      (jitteredCadence s w f ds k).latency = s.latency ∧ jitteredError s w f ds k < s.latency := by
  induction k with
  | zero =>
    have := abs_le.mp (hds 0)
    rw [jitteredCadence, postBuffer_of_stopped s hs]
    exact ⟨rfl, rfl, by rw [jitteredError_zero hs]; omega⟩
  | succ k ih =>
    obtain ⟨-, hr, hlat, hstep, -⟩ := jitteredCadence_succ hf hfL hJ hds ih.1 ih.2.1 ih.2.2
    exact ⟨hr, hlat, (hstep.mem hf hfL (hds (k + 1)) hJ ih.2.2).2⟩

/-- A sink posting within `J < f / 4` of each frame never underruns, and the error of its
feedback steps decays geometrically down to `(1 + 2 * J) * 2 * latency / f`. -/
theorem jitter_tolerated (hs : s.state = stopped) (hoff : f + J < initialOffset s.latency) :
    (∀ k, ¬ (jitteredCadence s w f ds k).PostUnderruns ((jitteredCadence s w f ds k).t0 + ds k) f ∧
        (jitteredCadence s w f ds k).state = rolling) ∧
      jitteredError s w f ds 0 = s.latency - initialOffset s.latency + ds 0 ∧
      ∀ k, |(jitteredError s w f ds k : ℚ)| ≤
        (1 - f / (2 * s.latency)) ^ k * |(jitteredError s w f ds 0 : ℚ)| +
          (1 + 2 * J) * (2 * s.latency / f) := by
  have hinv := jitteredCadence_inv (w := w) hf hfL hJ hds hs hoff
  have hsucc (k : ℕ) := jitteredCadence_succ hf hfL hJ hds (hinv k).1 (hinv k).2.1 (hinv k).2.2
  exact ⟨fun k => ⟨(hsucc k).1, (hinv k).1⟩, jitteredError_zero hs,
    jitteredRun_decays _ (fun k => ds (k + 1)) (fun k => (hsucc k).2.2.2.1) (fun k => hds (k + 1))
      hf hfL hJ (hinv 0).2.2⟩

end Jitter

/-- A sink that alternates posting 3 ms late and 3 ms early on a 20 ms frame. -/
def wobblingIntervals (k : ℕ) : Int := if k % 2 = 0 then 23000 else 17000

theorem jitter_tolerated_construct :
    (construct 0).state = stopped ∧ (0 : Int) < 20000 ∧ 2 * 20000 < (construct 0).latency ∧
      4 * 3000 < (20000 : Int) ∧ (∀ k, |wobblingIntervals k - 20000| ≤ 3000) ∧
      20000 + 3000 < initialOffset (construct 0).latency ∧
      (∀ k, ¬ (jitteredCadence (construct 0) 0 20000 wobblingIntervals k).PostUnderruns
          ((jitteredCadence (construct 0) 0 20000 wobblingIntervals k).t0 + wobblingIntervals k)
          20000 ∧
        (jitteredCadence (construct 0) 0 20000 wobblingIntervals k).state = rolling) ∧
      jitteredError (construct 0) 0 20000 wobblingIntervals 0 =
        (construct 0).latency - initialOffset (construct 0).latency + wobblingIntervals 0 ∧
      ∀ k, |(jitteredError (construct 0) 0 20000 wobblingIntervals k : ℚ)| ≤
        (1 - ((20000 : Int) : ℚ) / (2 * (construct 0).latency)) ^ k *
          |(jitteredError (construct 0) 0 20000 wobblingIntervals 0 : ℚ)| +
          (1 + 2 * ((3000 : Int) : ℚ)) * (2 * (construct 0).latency / ((20000 : Int) : ℚ)) :=
  have hds : ∀ k, |wobblingIntervals k - 20000| ≤ 3000 := fun k => by
    unfold wobblingIntervals; split_ifs <;> norm_num
  ⟨by decide, by decide, by decide, by decide, hds, by decide,
    jitter_tolerated (by decide) (by decide) (by decide) hds (by decide) (by decide)⟩

/-! ## A drifting sink -/

/-- A sink posting `f` every `d`: its time factor converges geometrically to `f / d`, within
`1 / d`. -/
theorem drift_tracked (s : TimeInterpolator) (w f d : Int) (hs : s.state = stopped) (hf : 2 ≤ f)
    (hfL : 2 * f < s.latency) (hd : 4 * |d - f| < f)
    (hoff : f + |d - f| < initialOffset s.latency) :
    ∃ K, ∀ k, |(jitteredCadence s w f (fun _ => d) (K + k)).Tf - f / d| ≤
      (1 - d / s.latency) ^ k * |(jitteredCadence s w f (fun _ => d) K).Tf - f / d| + 1 / d := by
  have hds : ∀ k, |(fun _ => d : ℕ → Int) k - f| ≤ |d - f| := fun _ => le_rfl
  have hinv := jitteredCadence_inv (w := w) (by omega) hfL hd hds hs hoff
  have hsucc (k : ℕ) :=
    jitteredCadence_succ (by omega) hfL hd hds (hinv k).1 (hinv k).2.1 (hinv k).2.2
  have hmem (k : ℕ) := (hsucc k).2.2.2.1.mem (by omega) hfL (hds (k + 1)) hd (hinv k).2.2
  have hrate : d ≤ s.latency ∧ f + 1 ≤ 2 * d ∧ d + 2 ≤ 2 * f := by
    have := le_abs_self (d - f)
    have := neg_abs_le (d - f)
    omega
  obtain ⟨K, -, hK⟩ := driftRun_converges (fun k => jitteredError s w f (fun _ => d) (k + 1))
    (fun k => (hsucc (k + 1)).2.2.2.1) (by omega) hrate.1 hrate.2.1 hrate.2.2 hmem
  refine ⟨K + 2, fun k => ?_⟩
  rw [show K + 2 + k = K + k + 1 + 1 by omega, show K + 2 = K + 1 + 1 from rfl,
    (hsucc (K + k + 1)).2.2.2.2, (hsucc (K + 1)).2.2.2.2]
  exact hK k

/-- A sink whose clock runs slow by one part in two thousand: 20 ms of media every 20.01 ms. -/
theorem drift_tracked_construct :
    (construct 0).state = stopped ∧ (2 : Int) ≤ 20000 ∧ 2 * 20000 < (construct 0).latency ∧
      4 * |(20010 : Int) - 20000| < 20000 ∧
      20000 + |(20010 : Int) - 20000| < initialOffset (construct 0).latency ∧
      ∃ K, ∀ k, |(jitteredCadence (construct 0) 0 20000 (fun _ => 20010) (K + k)).Tf -
          ((20000 : Int) : ℚ) / ((20010 : Int) : ℚ)| ≤
        (1 - ((20010 : Int) : ℚ) / (construct 0).latency) ^ k *
          |(jitteredCadence (construct 0) 0 20000 (fun _ => 20010) K).Tf -
            ((20000 : Int) : ℚ) / ((20010 : Int) : ℚ)| + 1 / ((20010 : Int) : ℚ) :=
  have hs : (construct 0).state = stopped := by decide
  have hL : 2 * 20000 < (construct 0).latency := by decide
  have hd : 4 * |(20010 : Int) - 20000| < 20000 := by decide
  have hoff : 20000 + |(20010 : Int) - 20000| < initialOffset (construct 0).latency := by decide
  ⟨hs, by decide, hL, hd, hoff, drift_tracked (construct 0) 0 20000 20010 hs (by decide) hL hd hoff⟩

/-! ## A jittery sink with readers and seeks -/

/-- The calls of a jittery sink: the cold start, posts within `J` of a frame past the epoch,
reads in the window of a running clock, and seeks. -/
def JitterSinkCall (w f J : Int) (p : TimeInterpolator) (now : Int) (call : Call) : Prop :=
  (call = .postBuffer f ∧ if p.state = stopped then now = w else |now - p.t0 - f| ≤ J) ∨
    (call = .getStreamUsecs ∧ (p.state = stopped ∨ now ≤ p.t0 + f + J)) ∨ ∃ m, call = .seek m

/-- The states of a jittery sink at latency `L`: stopped, restarted more than a jittered frame
behind the read pointer, or locked with an error below the latency. -/
def JitterState (f J L : Int) (p : TimeInterpolator) : Prop :=
  p.latency = L ∧ (p.state = stopped ∨
    (p.state = rolling ∧ p.queued = 0 ∧ p.Tf = 1 ∧ f + J < p.read - p.pos0) ∨
    ∃ e, Locked L f p.t0 e p ∧ e < L)

namespace JitterState

variable {f J L : Int} {p : TimeInterpolator}

/-- A running sink rolls: it never pauses. -/
theorem rolling_of_ne_stopped (h : JitterState f J L p) (hst : p.state ≠ stopped) :
    p.state = rolling := by
  obtain ⟨-, h' | ⟨h', -⟩ | ⟨e, hl, -⟩⟩ := h
  exacts [absurd h' hst, h', hl.rolling]

/-- A read changes nothing the sink's states are about. -/
theorem of_upToReads (h : JitterState f J L p) {q : TimeInterpolator} (hq : UpToReads p q) :
    JitterState f J L q := by
  obtain ⟨hlat, hst | ⟨hr, hq0, hT, hgap⟩ | ⟨e, hl, he⟩⟩ := h <;> rw [hq]
  · exact ⟨hlat, .inl hst⟩
  · exact ⟨hlat, .inr (.inl ⟨hr, hq0, hT, hgap⟩)⟩
  · exact ⟨hlat, .inr (.inr ⟨e, ⟨hl.rolling, hl.latency_eq, hl.queued_eq, hl.t0_eq, hl.Tf_eq,
      hl.pos0_eq⟩, he⟩)⟩

/-- A running sink runs forward, and at every post time of the window the feedback step finds
an error below the latency. -/
theorem running (h : JitterState f J L p) (hr : p.state ≠ stopped) (hf : 0 < f) (hJ : 4 * J < f)
    (hfL : 2 * f < L) :
    0 ≤ p.Tf ∧ ∀ d, |d - f| ≤ J → p.feedbackError (p.t0 + d) < L := by
  obtain ⟨hlat, hst | ⟨-, hq, hT, hgap⟩ | ⟨e, hl, he⟩⟩ := h
  · exact absurd hst hr
  · refine ⟨hT ▸ zero_le_one, fun d hd => ?_⟩
    have := abs_le.mp hd
    rw [feedbackError, pos1_of_Tf_eq_one hT, hq, hlat]
    omega
  · refine ⟨?_, fun d hd => ((hl.jitteredStep (by omega) rfl).mem hf hfL hd hJ he).2⟩
    rw [hl.Tf_eq]; linarith [half_le_clampedTf L e]

/-- A running sink is short of the read pointer up to a frame and the jitter past the epoch,
where the latest post of the window would find it. -/
theorem read_safe (h : JitterState f J L p) (hr : p.state ≠ stopped) (hf : 0 < f) (hJ0 : 0 ≤ J)
    (hJ : 4 * J < f) (hfL : 2 * f < L) {now : Int} (hnow : now ≤ p.t0 + f + J) :
    p.projection now < p.readPointer := by
  obtain ⟨hT, herr⟩ := h.running hr hf hJ hfL
  have hlt := herr (f + J) (by rw [add_sub_cancel_left, abs_of_nonneg hJ0])
  rw [feedbackError, h.1] at hlt
  calc p.projection now ≤ p.projection (p.t0 + (f + J)) := projection_mono hT (by omega)
    _ ≤ p.pos1 (p.t0 + (f + J)) := projection_le_pos1 hT (by omega)
    _ < p.readPointer := by unfold readPointer; omega

/-- A post in the window on a running sink runs the feedback step below the latency: it does not
underrun, and it leaves the clock locked on the post's reading. -/
theorem post_locked (h : JitterState f J L p) (hst : p.state ≠ stopped) (hf : 0 < f)
    (hJ : 4 * J < f) (hfL : 2 * f < L) {now : Int} (hnow : |now - p.t0 - f| ≤ J) :
    ¬ p.PostUnderruns now f ∧ ∃ e, Locked L f now e (p.postBuffer now f) ∧ e < L := by
  have hlat := h.1
  have hlt := (h.running hst hf hJ hfL).2 (now - p.t0) hnow
  rw [add_sub_cancel] at hlt
  obtain ⟨hu, hlock⟩ := postBuffer_locked_of_not_aggregated (h.rolling_of_ne_stopped hst)
    (by omega) (not_aggregated_of_jitter hnow hJ) (hlat ▸ hlt)
  rw [hlat] at hlock
  exact ⟨hu, _, hlock, hlt⟩

end JitterState

/-- One call of the jittery sink does not underrun and keeps it in its states. -/
theorem JitterState.step {w f J L : Int} {p : TimeInterpolator} {now : Int} {call : Call}
    (hf : 0 < f) (hJ0 : 0 ≤ J) (hJ : 4 * J < f) (hfL : 2 * f < L)
    (hoff : f + J < initialOffset L) (h : JitterState f J L p)
    (hok : JitterSinkCall w f J p now call) :
    ¬ call.Underruns p now ∧ JitterState f J L (call.exec p now) := by
  have hlat := h.1
  rcases hok with ⟨rfl, hnow⟩ | ⟨rfl, hnow⟩ | ⟨m, rfl⟩ <;> by_cases hst : p.state = stopped
  · -- the cold start restarts the clock `initialOffset` behind the read pointer
    refine ⟨fun hu => hu.1 hst, ?_⟩
    rw [Call.exec, postBuffer_of_stopped p hst]
    exact ⟨hlat, .inr (.inl ⟨rfl, rfl, rfl, show f + J < p.read + f - (p.read + f -
      initialOffset p.latency) by rw [hlat]; omega⟩)⟩
  · -- a post in the window runs the feedback step, below the latency
    rw [if_neg hst] at hnow
    obtain ⟨hu, e, hlock, he⟩ := h.post_locked hst hf hJ hfL hnow
    refine ⟨hu, hlock.latency_eq, .inr (.inr ⟨e, ?_, he⟩)⟩
    show Locked L f (p.postBuffer now f).t0 e (p.postBuffer now f)
    rw [hlock.t0_eq]
    exact hlock
  · -- a read of the stopped clock
    have hu : ¬ Call.getStreamUsecs.Underruns p now := fun hu => by
      simp [Call.Underruns, hst] at hu
    exact ⟨hu, h.of_upToReads (upToReads_getStreamUsecs hu)⟩
  · -- a read of the running clock, short of the read pointer
    have hu : ¬ Call.getStreamUsecs.Underruns p now := fun hu =>
      absurd hu.2.1 (not_le.mpr (h.read_safe hst hf hJ0 hJ hfL (hnow.resolve_left hst)))
    exact ⟨hu, h.of_upToReads (upToReads_getStreamUsecs hu)⟩
  · -- a seek keeps a stopped clock stopped
    refine ⟨nofun, ?_⟩
    rw [Call.exec, TimeInterpolator.seek, if_pos (.inl hst)]
    exact ⟨hlat, .inl hst⟩
  · -- a seek restarts a running clock one latency behind the new read pointer
    have hr := h.rolling_of_ne_stopped hst
    refine ⟨nofun, ?_⟩
    rw [Call.exec, TimeInterpolator.seek, if_neg (by simp [hr])]
    exact ⟨hlat, .inr (.inl ⟨hr, rfl, rfl, show f + J < m - (m - p.latency) by omega⟩)⟩

/-- A jittery sink with readers and seeks in any order: no call ever underruns, and every state
is one of `JitterState`. -/
theorem jittered_sink_never_underruns (s : TimeInterpolator) (w f J : Int)
    (hs : s.state = stopped) (hf : 0 < f) (hJ0 : 0 ≤ J) (hJ : 4 * J < f)
    (hfL : 2 * f < s.latency) (hoff : f + J < initialOffset s.latency)
    {c c' : Int} {cs : List (Int × Call)} {s' : TimeInterpolator}
    (hrun : Run (JitterSinkCall w f J) s c cs s' c') :
    Run (fun p now call => JitterSinkCall w f J p now call ∧ ¬ call.Underruns p now)
        s c cs s' c' ∧ JitterState f J s.latency s' :=
  hrun.strengthen (fun h hok => JitterState.step hf hJ0 hJ hfL hoff h hok) ⟨rfl, .inl hs⟩

theorem jittered_sink_never_underruns_construct :
    (construct 0).state = stopped ∧ (0 : Int) < 20000 ∧ (0 : Int) ≤ 3000 ∧
      4 * 3000 < (20000 : Int) ∧ 2 * 20000 < (construct 0).latency ∧
      20000 + 3000 < initialOffset (construct 0).latency ∧
      Run (fun p now call => JitterSinkCall 0 20000 3000 p now call ∧ ¬ call.Underruns p now)
        (construct 0) 0
        [(0, .postBuffer 20000), (10000, .getStreamUsecs), (23000, .postBuffer 20000),
          (30000, .seek 500000), (47000, .postBuffer 20000)]
        ((Call.postBuffer 20000).exec ((Call.seek 500000).exec ((Call.postBuffer 20000).exec
          (Call.getStreamUsecs.exec ((Call.postBuffer 20000).exec (construct 0) 0) 10000)
          23000) 30000) 47000) 47000 ∧
      JitterState 20000 3000 (construct 0).latency
        ((Call.postBuffer 20000).exec ((Call.seek 500000).exec ((Call.postBuffer 20000).exec
          (Call.getStreamUsecs.exec ((Call.postBuffer 20000).exec (construct 0) 0) 10000)
          23000) 30000) 47000) := by
  refine ⟨by decide, by decide, by decide, by decide, by decide, by decide,
    jittered_sink_never_underruns (construct 0) 0 20000 3000 (by decide) (by decide) (by decide)
      (by decide) (by decide) (by decide)
      (.cons le_rfl (.inl ⟨rfl, by decide⟩)
        (.cons (by decide) (.inr (.inl ⟨rfl, ?_⟩))
          (.cons (by decide) (.inl ⟨rfl, ?_⟩)
            (.cons (by decide) (.inr (.inr ⟨500000, rfl⟩))
              (.cons (by decide) (.inl ⟨rfl, ?_⟩) (.nil _ _))))))⟩
  all_goals norm_num [Call.exec, getStreamUsecs, construct, unset, TimeInterpolator.seek,
    postBuffer, coldStart, rollingUpdate, settle, feedback, clampTf, errOverrun, errUnderrun, pos1,
    positionError, readPointer, projection, initialOffset, defaultAudioLatency, Int.tdiv_eq_ediv,
    (by decide : rolling ≠ paused), (by decide : rolling ≠ stopped)]

/-! ## How far behind the data -/

/-- The most a running jittery sink's epoch lags behind the read pointer: two latencies and a
frame once locked, the cold start's offset before. -/
def lagBound (f L : Int) : Int := max (2 * L + f) (initialOffset L)

/-- A locked clock's epoch is less than two latencies and a frame behind the read pointer. -/
theorem Locked.readPointer_sub_lt_pos0 {L f t e : Int} {p : TimeInterpolator}
    (h : Locked L f t e p) (hL : 0 < L) : p.readPointer - (2 * L + f) < p.pos0 := by
  rw [readPointer, h.queued_eq, h.pos0_eq]
  split_ifs <;> omega

/-- A jittery sink's state, with its epoch at most `lagBound` behind the read pointer while it
runs. -/
def LagState (f J L : Int) (p : TimeInterpolator) : Prop :=
  JitterState f J L p ∧ (p.state ≠ stopped → p.readPointer - lagBound f L ≤ p.pos0)

/-- One call of the jittery sink keeps its epoch within `lagBound` of the read pointer. -/
theorem LagState.step {w f J L : Int} {p : TimeInterpolator} {now : Int} {call : Call}
    (hf : 0 < f) (hJ0 : 0 ≤ J) (hJ : 4 * J < f) (hfL : 2 * f < L)
    (hoff : f + J < initialOffset L) (h : LagState f J L p)
    (hok : JitterSinkCall w f J p now call) : LagState f J L (call.exec p now) := by
  obtain ⟨hu, hjs⟩ := JitterState.step hf hJ0 hJ hfL hoff h.1 hok
  refine ⟨hjs, fun hst' => ?_⟩
  have hlat := h.1.1
  have hlocked : 2 * L + f ≤ lagBound f L := le_max_left _ _
  rcases hok with ⟨rfl, hnow⟩ | ⟨rfl, -⟩ | ⟨m, rfl⟩ <;> by_cases hst : p.state = stopped
  · -- the cold start: `initialOffset` behind
    have hcold : initialOffset L ≤ lagBound f L := le_max_right _ _
    rw [Call.exec, postBuffer_of_stopped p hst]
    simp only [coldStart, readPointer, hlat]
    omega
  · -- a post: locked on the feedback step
    rw [if_neg hst] at hnow
    obtain ⟨-, e, hlock, -⟩ := h.1.post_locked hst hf hJ hfL hnow
    have := hlock.readPointer_sub_lt_pos0 (by omega)
    show (p.postBuffer now f).readPointer - lagBound f L ≤ (p.postBuffer now f).pos0
    omega
  · -- a read of the stopped clock leaves it stopped
    exact absurd ((upToReads_getStreamUsecs hu).state_eq.trans hst) hst'
  · -- a read changes neither the read pointer nor the epoch
    have hq := upToReads_getStreamUsecs hu
    have hpos : (p.getStreamUsecs now).2.pos0 = p.pos0 := by rw [hq]
    rw [Call.exec, hq.readPointer_eq, hpos]
    exact h.2 hst
  · -- a seek keeps a stopped clock stopped
    rw [Call.exec, TimeInterpolator.seek, if_pos (.inl hst)] at hst'
    exact absurd hst hst'
  · -- a seek restarts a running clock one latency behind the new read pointer
    rw [Call.exec, TimeInterpolator.seek, if_neg (by simp [h.1.rolling_of_ne_stopped hst])]
    simp only [readPointer, hlat]
    omega

/-- After any run of a jittery sink with readers and seeks, a read in the window returns a time
at most `lagBound` short of the read pointer. -/
theorem jittered_sink_lag_bounded (s : TimeInterpolator) (w f J : Int)
    (hs : s.state = stopped) (hf : 0 < f) (hJ0 : 0 ≤ J) (hJ : 4 * J < f)
    (hfL : 2 * f < s.latency) (hoff : f + J < initialOffset s.latency)
    {c c' : Int} {cs : List (Int × Call)} {s' : TimeInterpolator}
    (hrun : Run (JitterSinkCall w f J) s c cs s' c') (hr : s'.state ≠ stopped) {now : Int}
    (hnow : now ≤ s'.t0 + f + J) :
    s'.readPointer - lagBound f s.latency ≤ (s'.getStreamUsecs now).1 ∧
      (s'.getStreamUsecs now).1 < s'.readPointer := by
  have h : LagState f J s.latency s' :=
    hrun.invariant (I := fun p _ => LagState f J s.latency p)
      (fun hI _ hok => hI.step hf hJ0 hJ hfL hoff hok) ⟨⟨rfl, .inl hs⟩, fun h => absurd hs h⟩
  have hsafe := h.1.read_safe hr hf hJ0 hJ hfL hnow
  rw [getStreamUsecs_fst, if_neg (by simp [h.1.rolling_of_ne_stopped hr]),
    if_neg fun h' => absurd h'.1 (not_le.mpr hsafe)]
  exact ⟨(h.2 hr).trans pos0_le_projection, hsafe⟩

/-- The cold start and a post 3 ms late, then a read 7 ms after it. -/
theorem jittered_sink_lag_bounded_construct :
    (construct 0).state = stopped ∧ (0 : Int) < 20000 ∧ (0 : Int) ≤ 3000 ∧
      4 * 3000 < (20000 : Int) ∧ 2 * 20000 < (construct 0).latency ∧
      20000 + 3000 < initialOffset (construct 0).latency ∧
      Run (JitterSinkCall 0 20000 3000) (construct 0) 0
        [(0, .postBuffer 20000), (23000, .postBuffer 20000)]
        ((Call.postBuffer 20000).exec ((Call.postBuffer 20000).exec (construct 0) 0) 23000)
        23000 ∧
      ((Call.postBuffer 20000).exec ((Call.postBuffer 20000).exec (construct 0) 0) 23000).state ≠
        stopped ∧
      (30000 : Int) ≤
        ((Call.postBuffer 20000).exec ((Call.postBuffer 20000).exec (construct 0) 0) 23000).t0 +
          20000 + 3000 ∧
      ((Call.postBuffer 20000).exec ((Call.postBuffer 20000).exec (construct 0) 0)
          23000).readPointer - lagBound 20000 (construct 0).latency ≤
        (((Call.postBuffer 20000).exec ((Call.postBuffer 20000).exec (construct 0) 0)
          23000).getStreamUsecs 30000).1 ∧
      (((Call.postBuffer 20000).exec ((Call.postBuffer 20000).exec (construct 0) 0)
          23000).getStreamUsecs 30000).1 <
        ((Call.postBuffer 20000).exec ((Call.postBuffer 20000).exec (construct 0) 0)
          23000).readPointer := by
  have hrun : Run (JitterSinkCall 0 20000 3000) (construct 0) 0
      [(0, .postBuffer 20000), (23000, .postBuffer 20000)]
      ((Call.postBuffer 20000).exec ((Call.postBuffer 20000).exec (construct 0) 0) 23000) 23000 :=
    .cons le_rfl (.inl ⟨rfl, by decide⟩) (.cons (by decide) (.inl ⟨rfl, ?_⟩) (.nil _ _))
  have hr : ((Call.postBuffer 20000).exec ((Call.postBuffer 20000).exec (construct 0) 0)
      23000).state ≠ stopped := ?_
  have hnow : (30000 : Int) ≤
      ((Call.postBuffer 20000).exec ((Call.postBuffer 20000).exec (construct 0) 0) 23000).t0 +
        20000 + 3000 := ?_
  · exact ⟨by decide, by decide, by decide, by decide, by decide, by decide, hrun, hr, hnow,
      jittered_sink_lag_bounded (construct 0) 0 20000 3000 (by decide) (by decide) (by decide)
        (by decide) (by decide) (by decide) hrun hr hnow⟩
  all_goals norm_num [Call.exec, construct, unset, TimeInterpolator.seek, postBuffer, coldStart,
    rollingUpdate, settle, feedback, clampTf, errOverrun, errUnderrun, pos1, positionError,
    readPointer, projection, initialOffset, defaultAudioLatency, Int.tdiv_eq_ediv,
    (by decide : rolling ≠ paused), (by decide : rolling ≠ stopped)]

end TimeInterpolator
end Android
