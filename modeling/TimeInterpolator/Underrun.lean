import TimeInterpolator.Monotone
import TimeInterpolator.Recurrence

/-!
# TimeInterpolator — the two `UNDERRUN` detectors

The read truncates `Tf * (t1 - t0)` and adds it to `pos0`, the post truncates the sum: under any
rounding of the `double` operations the post's `pos1` is the read's value or one more. After an
`UNDERRUN` the clock is frozen until the next post restarts it, behind the frozen time.
-/

namespace Android
namespace TimeInterpolator

open State

variable {s : TimeInterpolator} {t1 f : Int}

/-! ## Where the two projections meet

The results hold for every `Rounding`; the model's exact arithmetic is `Rounding.exact`. -/

/-- `get_stream_usecs`' unclamped `m_pos0 + int64_t(dt)`, with `dt = m_Tf * double(now - m_t0)`
rounded by `r` and clamped at zero. -/
def projectionR (r : Rounding) (s : TimeInterpolator) (now : Int) : Int :=
  s.pos0 + toInt64 (max (r.fl (s.Tf * r.fl (now - s.t0))) 0)

/-- `post_buffer`'s `pos1 = m_pos0 + m_Tf * dt`, each conversion, product and sum rounded
by `r`. -/
def pos1R (r : Rounding) (s : TimeInterpolator) (t1 : Int) : Int :=
  toInt64 (r.fl (r.fl s.pos0 + r.fl (s.Tf * r.fl (t1 - s.t0))))

/-- The `UNDERRUN` test of a non-aggregated post on a rolling stream, rounded by `r`:
`m_Tf = 1.0 - e / m_latency` re-pins `m_pos0` a latency behind `m_read` at `2.0`. -/
def postUnderrunsR (r : Rounding) (s : TimeInterpolator) (t1 : Int) : Prop :=
  s.readPointer ≤
    if 2 ≤ r.fl (1 - r.fl (r.fl (pos1R r s t1 - (s.readPointer - s.latency) : Int) /
      r.fl s.latency))
    then s.readPointer - s.latency else pos1R r s t1

theorem projectionR_exact (now : Int) : projectionR Rounding.exact s now = s.projection now := rfl

theorem pos1R_exact : pos1R Rounding.exact s t1 = s.pos1 t1 := rfl

/-- From `ROLLING`, a post that is not aggregated underruns exactly when `pos1` reaches the read
pointer: an overrun needs `pos1` a latency further behind. -/
theorem postUnderruns_iff (hs : s.state = rolling) (hL : 0 < s.latency)
    (hagg : ¬ t1 - s.t0 < f.tdiv 4) : s.PostUnderruns t1 f ↔ s.readPointer ≤ s.pos1 t1 := by
  have hu : decide (s.state = paused) = false := by simp [hs]
  simp only [PostUnderruns, with_state_self s hs, hu, settle_read, settle_pos0, hs, and_true]
  simp only [ne_eq, reduceCtorEq, not_false_eq_true, hagg, true_and]
  split_ifs with h2
  · have := pos1_le_of_overrun hL h2
    constructor <;> intro h <;> (unfold readPointer at *; linarith)
  · rfl

/-- In exact arithmetic the rounded test is the model's. -/
theorem postUnderrunsR_exact (hs : s.state = rolling) (hL : 0 < s.latency)
    (hagg : ¬ t1 - s.t0 < f.tdiv 4) :
    postUnderrunsR Rounding.exact s t1 ↔ s.PostUnderruns t1 f := by
  rw [postUnderruns_iff hs hL hagg, postUnderrunsR, pos1R_exact]
  split_ifs with h2
  · -- the re-pin needs `pos1` a whole latency behind its desired position
    simp only [Rounding.exact, id] at h2
    have h4 := (two_le_one_sub_div_iff hL).mp h2
    constructor <;> intro h <;> omega
  · rfl

/-- Under every rounding, the `pos1` a non-aggregated post installs is the read's unclamped value
or one more, so the read's `UNDERRUN` implies the post's. -/
theorem pos1_within_one_of_projection (r : Rounding) (hT : 0 ≤ s.Tf) (hL : 0 < s.latency)
    (h : s.t0 ≤ t1) (hdt : t1 - s.t0 ≤ 2 ^ 53)
    (hb : |(s.pos0 : ℚ)| + s.Tf * (t1 - s.t0) + 2 ≤ 2 ^ 53) :
    projectionR r s t1 ≤ pos1R r s t1 ∧ pos1R r s t1 ≤ projectionR r s t1 + 1 ∧
      (s.readPointer ≤ projectionR r s t1 → postUnderrunsR r s t1) := by
  have hx : 0 ≤ s.Tf * (t1 - s.t0) := mul_nonneg hT (by simpa using h)
  -- the conversions of `now - m_t0` and `m_pos0` to `double` are exact
  have hd : r.fl (t1 - s.t0) = t1 - s.t0 := by
    exact_mod_cast r.int_exact (t1 - s.t0) (by rw [abs_of_nonneg (by omega)]; exact hdt)
  have hp : r.fl s.pos0 = s.pos0 := r.int_exact _ (by
    have : |(s.pos0 : ℚ)| ≤ 2 ^ 53 := by linarith
    exact_mod_cast this)
  have hy : 0 ≤ r.fl (s.Tf * (t1 - s.t0)) := r.fl_zero ▸ r.mono hx
  have hy1 := r.fl_le_add_one hx (by linarith [abs_nonneg (s.pos0 : ℚ)])
  obtain ⟨h1, h2⟩ := r.toInt64_fl_add s.pos0 hy (by linarith)
  have hpos1 : pos1R r s t1 = toInt64 (r.fl (s.pos0 + r.fl (s.Tf * (t1 - s.t0)))) := by
    rw [pos1R, hp, hd]
  rw [projectionR, hd, max_eq_left hy, hpos1]
  refine ⟨h1, h2, fun hu => ?_⟩
  have hpos : s.readPointer ≤ pos1R r s t1 := hpos1 ▸ hu.trans h1
  -- no re-pin: an error of at least a latency gives a time factor of at most zero
  have hno := r.fl_one_sub_div_nonpos (by omega : 1 ≤ s.latency)
    (by omega : s.latency ≤ pos1R r s t1 - (s.readPointer - s.latency))
  rw [postUnderrunsR, if_neg (by linarith)]
  exact hpos

/-- At `halfRate`, one microsecond after `t0`, where the two values differ by one. -/
theorem pos1_within_one_of_projection_halfRate :
    0 ≤ halfRate.Tf ∧ 0 < halfRate.latency ∧ halfRate.t0 ≤ 20001 ∧
      20001 - halfRate.t0 ≤ 2 ^ 53 ∧
      |(halfRate.pos0 : ℚ)| + halfRate.Tf * (20001 - halfRate.t0) + 2 ≤ 2 ^ 53 ∧
      projectionR Rounding.exact halfRate 20001 ≤ pos1R Rounding.exact halfRate 20001 ∧
      pos1R Rounding.exact halfRate 20001 ≤ projectionR Rounding.exact halfRate 20001 + 1 ∧
      (halfRate.readPointer ≤ projectionR Rounding.exact halfRate 20001 →
        postUnderrunsR Rounding.exact halfRate 20001) := by
  have hT : 0 ≤ halfRate.Tf := by rw [halfRate_eq]; norm_num
  have hL : 0 < halfRate.latency := by rw [halfRate_eq]; norm_num
  have ht : halfRate.t0 ≤ 20001 := by rw [halfRate_eq]; norm_num
  have hdt : 20001 - halfRate.t0 ≤ 2 ^ 53 := by rw [halfRate_eq]; norm_num
  have hb : |(halfRate.pos0 : ℚ)| + halfRate.Tf * (20001 - halfRate.t0) + 2 ≤ 2 ^ 53 := by
    rw [halfRate_eq]; norm_num
  exact ⟨hT, hL, ht, hdt, hb, pos1_within_one_of_projection Rounding.exact hT hL ht hdt hb⟩

/-- At `halfRate`, one microsecond after `t0`: `pos1 = -39999`, where the read computes
`-40000`. -/
theorem pos1_ne_projection_halfRate :
    Reachable LegalCall halfRate 20000 ∧ halfRate.state = rolling ∧ halfRate.t0 ≤ 20001 ∧
      ¬ 20001 - halfRate.t0 < (0 : Int).tdiv 4 ∧
      halfRate.pos1 20001 = -39999 ∧ halfRate.projection 20001 = -40000 := by
  refine ⟨⟨0, [(0, .postBuffer 20000), (20000, .postBuffer 20000)],
    .cons le_rfl (show (0 : Int) ≤ 20000 by decide)
      (.cons (by decide) (show (0 : Int) ≤ 20000 by decide) (.nil _ _))⟩, ?_⟩
  rw [halfRate_eq]
  norm_num [pos1, projection, toInt64_of_nonneg]

/-! ## Recovery -/

/-- A clock frozen at `v` by `err_underrun`: stopped, time factor zero, `pos0 = read = v`,
nothing queued. -/
structure Frozen (v : Int) (s : TimeInterpolator) : Prop where
  stopped : s.state = stopped
  Tf_eq : s.Tf = 0
  pos0_eq : s.pos0 = v
  read_eq : s.read = v
  queued_eq : s.queued = 0

theorem frozen_errUnderrun (s : TimeInterpolator) : Frozen s.readPointer s.errUnderrun :=
  ⟨rfl, rfl, rfl, rfl, rfl⟩

/-- A post that underruns ends in `err_underrun` after the feedback step. -/
theorem postBuffer_of_postUnderruns {now : Int} (h : s.PostUnderruns now f) :
    s.postBuffer now f =
      ({ s with state := rolling }.settle now f (s.state = paused)).errUnderrun := by
  obtain ⟨hst, hagg, hu⟩ := h
  rw [postBuffer_of_ne_stopped s hst, rollingUpdate, if_neg fun h' => hagg h'.2, if_pos hu]

/-- Whichever detector fires, the state after it is frozen at its read pointer, and a read
that underruns returns that time. -/
theorem frozen_of_underruns {now : Int} {call : Call} (hu : call.Underruns s now) :
    Frozen (call.exec s now).pos0 (call.exec s now) ∧
      ∀ v ∈ call.output s now, v = (call.exec s now).pos0 := by
  cases call with
  | getStreamUsecs =>
    obtain ⟨hp, hle, hr⟩ := hu
    have h2 : (s.getStreamUsecs now) = (s.readPointer,
        { s.errUnderrun with last := s.readPointer, nowLast := now }) := by
      simp [getStreamUsecs, hp, hle, hr]
    simp only [Call.exec, Call.output, h2, Option.mem_some_iff]
    exact ⟨⟨rfl, rfl, rfl, rfl, rfl⟩, fun v hv => hv ▸ rfl⟩
  | postBuffer f =>
    simp only [Call.exec, Call.output, postBuffer_of_postUnderruns hu]
    exact ⟨frozen_errUnderrun _, nofun⟩
  | _ => exact hu.elim

/-- The calls a stopped stream takes while it waits for data: reads, latency changes and
`pause(false)`. -/
def IdleCall (_ : TimeInterpolator) (_ : Int) (call : Call) : Prop :=
  call = .getStreamUsecs ∨ (∃ l, call = .setLatency l) ∨ call = .pause false

/-- A call of a waiting stream keeps the clock frozen, and a read returns the frozen time. -/
theorem Frozen.exec {v : Int} {w : TimeInterpolator} {now : Int} {call : Call}
    (h : Frozen v w) (hok : IdleCall w now call) :
    Frozen v (call.exec w now) ∧ ∀ x ∈ call.output w now, x = v := by
  have hst := h.stopped
  rcases hok with rfl | ⟨l, rfl⟩ | rfl
  · have h2 : w.getStreamUsecs now = (w.pos0, { w with last := w.pos0, nowLast := now }) := by
      simp [getStreamUsecs, hst, projection_of_Tf_eq_zero w h.Tf_eq]
    simp only [Call.exec, Call.output, h2, Option.mem_some_iff]
    exact ⟨⟨hst, h.Tf_eq, h.pos0_eq, h.read_eq, h.queued_eq⟩, fun x hx => hx ▸ h.pos0_eq⟩
  · exact ⟨⟨hst, h.Tf_eq, h.pos0_eq, h.read_eq, h.queued_eq⟩, nofun⟩
  · exact ⟨by simpa [Call.exec, pause_false, hst] using h, nofun⟩

/-- While it waits, a frozen clock stays frozen and every read returns the frozen time. -/
theorem Frozen.run {v : Int} {w w' : TimeInterpolator} {c c' : Int} {cs : List (Int × Call)}
    (hrun : Run IdleCall w c cs w' c') (h : Frozen v w) :
    Frozen v w' ∧ ∀ x ∈ outputs w cs, x = v :=
  hrun.outputs_eq (fun h hok => h.exec hok) h

theorem initialOffset_pos (L : Int) : 0 < initialOffset L := by
  unfold initialOffset; split_ifs <;> omega

/-- The restart of a frozen clock: the cold start re-pins it `initialOffset` behind the read
pointer, which includes the new frame, and a read at the restart reports that position. -/
theorem restart_getStreamUsecs {v : Int} {w : TimeInterpolator} (h : Frozen v w) (now f : Int) :
    ((w.postBuffer now f).getStreamUsecs now).1 = v + f - initialOffset w.latency := by
  have hoff := initialOffset_pos w.latency
  rw [postBuffer_of_stopped w h.stopped, getStreamUsecs_fst]
  simp [coldStart, projection, readPointer, h.read_eq, hoff]

/-- After an `UNDERRUN` every read returns `v = pos0` until the next post, whose cold start
makes a read report `v + f - max(latency / 2, 40000)`. -/
theorem underrun_freezes_until_restart {now : Int} {call : Call} (hu : call.Underruns s now)
    {w : TimeInterpolator} {c' : Int} {cs : List (Int × Call)}
    (hrun : Run IdleCall (call.exec s now) now cs w c') :
    (∀ x ∈ (call.output s now).toList ++ outputs (call.exec s now) cs,
        x = (call.exec s now).pos0) ∧
      ∀ now' f, ((w.postBuffer now' f).getStreamUsecs now').1 =
        (call.exec s now).pos0 + f - initialOffset w.latency := by
  obtain ⟨hF, hout⟩ := frozen_of_underruns hu
  obtain ⟨hF', hrest⟩ := hF.run hrun
  refine ⟨fun x hx => ?_, fun now' f => restart_getStreamUsecs hF' now' f⟩
  rcases List.mem_append.mp hx with hx | hx
  · exact hout x (Option.mem_toList.mp hx)
  · exact hrest x hx

/-- The cold-started stream read a second later has run past its read pointer: the read
underruns at `20000`. -/
theorem underruns_coldStarted : Call.getStreamUsecs.Underruns coldStarted 1000000 := by
  simp [Call.Underruns, coldStarted, construct, unset, TimeInterpolator.seek,
    postBuffer_of_stopped, coldStart, readPointer, projection, initialOffset,
    defaultAudioLatency, Int.tdiv_eq_ediv]

theorem underrun_freezes_until_restart_coldStarted :
    (∀ x ∈ (Call.getStreamUsecs.output coldStarted 1000000).toList ++
        outputs (Call.getStreamUsecs.exec coldStarted 1000000) [(2000000, .getStreamUsecs)],
        x = (Call.getStreamUsecs.exec coldStarted 1000000).pos0) ∧
      ∀ now' f, (((((Call.getStreamUsecs.exec coldStarted 1000000).getStreamUsecs 2000000).2
        ).postBuffer now' f).getStreamUsecs now').1 =
        (Call.getStreamUsecs.exec coldStarted 1000000).pos0 + f -
          initialOffset
            ((Call.getStreamUsecs.exec coldStarted 1000000).getStreamUsecs 2000000).2.latency :=
  underrun_freezes_until_restart underruns_coldStarted
    (.cons (by decide) (Or.inl rfl) (.nil _ _))

/-- After the read underruns and freezes the clock at `20000`, a post of 20 ms restarts it at
`20000 + 20000 - 80000`: the next read reports `-40000`, before any seek, stop or reset. -/
theorem restart_after_underrun_goes_back :
    Reachable LegalCall coldStarted 0 ∧ Call.getStreamUsecs.Underruns coldStarted 1000000 ∧
      (coldStarted.getStreamUsecs 1000000).1 = 20000 ∧
      (((coldStarted.getStreamUsecs 1000000).2.postBuffer 1000000 20000).getStreamUsecs
        1000000).1 = -40000 := by
  refine ⟨⟨0, [(0, .postBuffer 20000)], .cons le_rfl (show (0 : Int) ≤ 20000 by decide)
    (.nil _ _)⟩, underruns_coldStarted, ?_⟩
  simp [coldStarted, construct, unset, TimeInterpolator.seek, postBuffer_of_stopped, coldStart,
    getStreamUsecs, errUnderrun, readPointer, projection, initialOffset,
    defaultAudioLatency, Int.tdiv_eq_ediv]

end TimeInterpolator
end Android
