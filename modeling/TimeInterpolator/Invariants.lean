import TimeInterpolator.Machine

/-!
# TimeInterpolator — what every reachable state satisfies

`Sound` is kept by every call with any arguments: a positive latency, a time factor in
`[0, 2]`, and a paused clock pinned at the last time reported. The epoch is never in the future
(`dt_clamp_never_fires`).
-/

namespace Android
namespace TimeInterpolator

open State

/-- The invariant of every reachable state. -/
structure Sound (s : TimeInterpolator) : Prop where
  latency_pos : 0 < s.latency
  Tf_nonneg : 0 ≤ s.Tf
  Tf_le_two : s.Tf ≤ 2
  paused_pos0 : s.state = paused → s.pos0 = s.last

namespace Sound

variable {s : TimeInterpolator} (h : s.Sound) {now : Int}
include h

theorem setLatency (l : Int) : (s.setLatency l).Sound :=
  ⟨by unfold TimeInterpolator.setLatency; split <;> simp [defaultAudioLatency, *],
    h.Tf_nonneg, h.Tf_le_two, h.paused_pos0⟩

theorem forciblyUpdateReadPointer (rp : Int) : (s.forciblyUpdateReadPointer rp).Sound :=
  ⟨h.latency_pos, h.Tf_nonneg, h.Tf_le_two, h.paused_pos0⟩

theorem resume : (s.resume now).Sound :=
  ⟨h.latency_pos, zero_le_one, one_le_two, h.paused_pos0⟩

theorem seek (m : Int) : (s.seek now m).Sound := by
  unfold TimeInterpolator.seek
  split
  · exact ⟨h.latency_pos, le_rfl, zero_le_two, fun _ => rfl⟩
  · exact ⟨h.latency_pos, zero_le_one, one_le_two, fun hp => by simp_all⟩

theorem pause (b : Bool) : (s.pause now b).Sound := by
  have hl : (s.pauseLocked now b).1.Sound := by
    unfold pauseLocked
    split_ifs
    · exact ⟨h.latency_pos, h.Tf_nonneg, h.Tf_le_two, nofun⟩
    · exact ⟨h.latency_pos, h.Tf_nonneg, h.Tf_le_two, fun _ => rfl⟩
    · exact h
  unfold TimeInterpolator.pause
  dsimp only
  split
  · exact hl.seek _
  · exact hl

theorem stop : (s.stop now).Sound := h.pause true

theorem reset : (s.reset now).Sound := (h.stop).seek 0

theorem errUnderrun : s.errUnderrun.Sound :=
  ⟨h.latency_pos, le_rfl, zero_le_two, nofun⟩

theorem getStreamUsecs : (s.getStreamUsecs now).2.Sound := by
  unfold TimeInterpolator.getStreamUsecs
  split_ifs with hp
  · exact h
  · exact ⟨h.latency_pos, le_rfl, zero_le_two, nofun⟩
  · exact ⟨h.latency_pos, h.Tf_nonneg, h.Tf_le_two, fun h' => absurd h' hp⟩

theorem postBuffer (f : Int) : (s.postBuffer now f).Sound := by
  by_cases hs : s.state = stopped
  · rw [postBuffer_of_stopped s hs]
    exact ⟨h.latency_pos, zero_le_one, one_le_two, nofun⟩
  rw [postBuffer_of_ne_stopped s hs]
  unfold rollingUpdate
  have hT : 1 / 2 ≤ ({ s with state := rolling }.settle now f (s.state = paused)).Tf ∧
      ({ s with state := rolling }.settle now f (s.state = paused)).Tf ≤ 2 :=
    settle_Tf_mem _
  split_ifs
  · exact ⟨h.latency_pos, h.Tf_nonneg, h.Tf_le_two, nofun⟩
  · exact ⟨by simpa [TimeInterpolator.errUnderrun] using h.latency_pos, le_rfl, zero_le_two, nofun⟩
  · exact ⟨by simpa using h.latency_pos, by linarith [hT.1], hT.2, by simp⟩

/-- Every call keeps the invariant. -/
theorem exec (call : Call) : (call.exec s now).Sound := by
  cases call with
  | setLatency l => exact h.setLatency l
  | seek m => exact h.seek m
  | postBuffer f => exact h.postBuffer f
  | getStreamUsecs => exact h.getStreamUsecs
  | pause b => exact h.pause b
  | stop => exact h.stop
  | resume => exact h.resume
  | reset => exact h.reset
  | forciblyUpdateReadPointer rp => exact h.forciblyUpdateReadPointer rp

end Sound

theorem sound_construct (now : Int) : (construct now).Sound :=
  ⟨by simp [construct, unset, TimeInterpolator.seek, defaultAudioLatency], le_rfl, zero_le_two,
    fun _ => rfl⟩

/-- Every reachable state is sound, whatever calls the run was allowed. -/
theorem Reachable.sound {ok : TimeInterpolator → Int → Call → Prop} {s : TimeInterpolator}
    {c : Int} (hr : Reachable ok s c) : s.Sound :=
  Reachable.invariant (I := fun s _ => s.Sound) sound_construct (fun h _ _ => h.exec _) hr

/-! ## A tour of the modes

A run from the constructor through a feedback step at the low clamp, a clamped read that
underruns, a second cold start, `pause(false)`, `resume()` and `stop()`. -/

/-- The stream after a cold start at clock 0: `read = 20000`, `pos0 = -60000`, `Tf = 1`. -/
def coldStarted : TimeInterpolator := (construct 0).postBuffer 0 20000

/-- One feedback step later, at 20000: the error of 100000 clamps `Tf` to `0.5`. -/
def halfRate : TimeInterpolator := coldStarted.postBuffer 20000 20000

/-- A read at 200000 finds `halfRate` past its read pointer: `err_underrun` stops it at 40000. -/
def tourUnderrun : TimeInterpolator := (halfRate.getStreamUsecs 200000).2

/-- A second cold start at 210000, a read at 215000 and `pause(false)` at 220000. -/
def tourPaused : TimeInterpolator :=
  ((tourUnderrun.postBuffer 210000 20000).getStreamUsecs 215000).2.pause 220000 false

/-- `resume()` at 230000 and `stop()` at 240000. -/
def tourResumed : TimeInterpolator := tourPaused.resume 230000

def tourStopped : TimeInterpolator := tourResumed.stop 240000

theorem halfRate_eq :
    halfRate =
      { state := rolling, Tf := 1 / 2, t0 := 20000, pos0 := -40000, read := 20000,
        queued := 20000, latency := 160000, last := 0, nowLast := 0 } := by
  simp [halfRate, coldStarted, construct, unset, TimeInterpolator.seek, postBuffer_of_stopped,
    coldStart, postBuffer, rollingUpdate, settle, feedback, clampTf, errOverrun, pos1,
    positionError, initialOffset, defaultAudioLatency, Int.tdiv_eq_ediv]
  norm_num

theorem tourUnderrun_eq :
    tourUnderrun =
      { state := stopped, Tf := 0, t0 := 20000, pos0 := 40000, read := 40000, queued := 0,
        latency := 160000, last := 40000, nowLast := 200000 } := by
  rw [tourUnderrun, halfRate_eq]
  norm_num [getStreamUsecs, readPointer, projection, errUnderrun,
    (by decide : rolling ≠ paused)]

theorem tourPaused_eq :
    tourPaused =
      { state := paused, Tf := 1, t0 := 220000, pos0 := -15000, read := 60000, queued := 0,
        latency := 160000, last := -15000, nowLast := 215000 } := by
  rw [tourPaused, tourUnderrun_eq]
  norm_num [postBuffer_of_stopped, coldStart, initialOffset, getStreamUsecs, readPointer,
    projection, TimeInterpolator.pause, pauseLocked, Int.tdiv_eq_ediv,
    (by decide : rolling ≠ paused)]

theorem tourStopped_eq :
    tourStopped =
      { state := stopped, Tf := 0, t0 := 240000, pos0 := 60000, read := 60000, queued := 0,
        latency := 160000, last := 60000, nowLast := 0 } := by
  rw [tourStopped, tourResumed, tourPaused_eq]
  norm_num [stop, TimeInterpolator.pause, pauseLocked, TimeInterpolator.resume,
    TimeInterpolator.seek]

/-- The tour is a run of documented calls that write no position of their own. -/
theorem reachable_tour {ok : TimeInterpolator → Int → Call → Prop}
    (hok : ∀ s c (call : Call), call.Legal s → call.Unpinned → ok s c call) :
    Reachable ok halfRate 20000 ∧ Reachable ok tourUnderrun 200000 ∧
      Reachable ok tourPaused 220000 ∧ Reachable ok tourResumed 230000 ∧
      Reachable ok tourStopped 240000 := by
  have hpost : ∀ s c, ok s c (.postBuffer 20000) := fun s c =>
    hok s c _ (show (0 : Int) ≤ 20000 by decide) trivial
  have h₁ : Reachable ok halfRate 20000 :=
    ⟨0, [(0, .postBuffer 20000), (20000, .postBuffer 20000)],
      .cons le_rfl (hpost _ _) (.cons (by decide) (hpost _ _) (.nil _ _))⟩
  have r₂ : Run ok halfRate 20000 [(200000, .getStreamUsecs)] tourUnderrun 200000 :=
    .cons (by decide) (hok _ _ _ trivial trivial) (.nil _ _)
  have r₃ : Run ok tourUnderrun 200000 [(210000, .postBuffer 20000),
      (215000, .getStreamUsecs), (220000, .pause false)] tourPaused 220000 :=
    .cons (by decide) (hpost _ _) (.cons (by decide) (hok _ _ _ trivial trivial)
      (.cons (by decide) (hok _ _ _ trivial trivial) (.nil _ _)))
  have r₄ : Run ok tourPaused 220000 [(230000, .resume)] tourResumed 230000 :=
    .cons (by decide) (hok _ _ _ (show tourPaused.state = paused by rw [tourPaused_eq]) trivial)
      (.nil _ _)
  have r₅ : Run ok tourResumed 230000 [(240000, .stop)] tourStopped 240000 :=
    .cons (by decide) (hok _ _ _ trivial trivial) (.nil _ _)
  have h₃ := (h₁.run r₂).run r₃
  exact ⟨h₁, h₁.run r₂, h₃, h₃.run r₄, (h₃.run r₄).run r₅⟩

/-! ## The epoch is never in the future -/

/-- `seek` moves the epoch to its own clock reading. -/
theorem seek_t0 (s : TimeInterpolator) (now m : Int) : (s.seek now m).t0 = now := by
  unfold TimeInterpolator.seek; split <;> rfl

/-- Every call moves the epoch `m_t0` to its own clock reading or leaves it where it was. -/
theorem exec_t0 (call : Call) (s : TimeInterpolator) (now : Int) :
    (call.exec s now).t0 = s.t0 ∨ (call.exec s now).t0 = now := by
  have hpause (b : Bool) : (s.pause now b).t0 = s.t0 ∨ (s.pause now b).t0 = now := by
    cases b
    · rw [pause_false]; split_ifs <;> simp
    · rw [pause_true]; split_ifs <;> simp [seek_t0]
  cases call with
  | setLatency l =>
    exact .inl (show (s.setLatency l).t0 = s.t0 by
      unfold TimeInterpolator.setLatency; split <;> rfl)
  | seek m => exact .inr (seek_t0 s now m)
  | postBuffer f =>
    show (s.postBuffer now f).t0 = s.t0 ∨ (s.postBuffer now f).t0 = now
    by_cases hs : s.state = stopped
    · exact .inr (by rw [postBuffer_of_stopped s hs]; rfl)
    rw [postBuffer_of_ne_stopped s hs, rollingUpdate]
    split_ifs
    · exact .inl rfl
    · exact .inr (settle_t0 _)
    · exact .inr (settle_t0 _)
  | getStreamUsecs =>
    exact .inl (show (s.getStreamUsecs now).2.t0 = s.t0 by
      unfold TimeInterpolator.getStreamUsecs; split_ifs <;> rfl)
  | pause b => exact hpause b
  | stop => exact hpause true
  | resume => exact .inr rfl
  | reset => exact .inr (seek_t0 _ now 0)
  | forciblyUpdateReadPointer rp => exact .inl rfl

/-- Along every run, with any calls, the epoch stays at or before the clock's last reading. -/
theorem Run.t0_le {ok : TimeInterpolator → Int → Call → Prop} {s s' : TimeInterpolator}
    {c c' : Int} {cs : List (Int × Call)} (h : Run ok s c cs s' c') (h0 : s.t0 ≤ c) :
    s'.t0 ≤ c' :=
  h.invariant (I := fun s c => s.t0 ≤ c) (fun {s _ now call} hI hc _ => by
    rcases exec_t0 call s now with he | he <;> omega) h0

/-- In every reachable state `m_t0` is at most the clock's last reading, so the `dt < 0` clamp of
`get_stream_usecs` never fires. -/
theorem dt_clamp_never_fires {ok : TimeInterpolator → Int → Call → Prop} {s : TimeInterpolator}
    {c now : Int} (hr : Reachable ok s c) (hnow : c ≤ now) :
    s.t0 ≤ c ∧ 0 ≤ s.Tf * (now - s.t0) ∧
      s.projection now = s.pos0 + toInt64 (s.Tf * (now - s.t0)) := by
  obtain ⟨c₀, _, h⟩ := hr
  have ht0 : s.t0 ≤ c := h.t0_le (by rw [construct, seek_t0])
  have hdt : 0 ≤ s.Tf * (now - s.t0) :=
    mul_nonneg (Reachable.sound ⟨c₀, _, h⟩).Tf_nonneg
      (sub_nonneg.mpr (by exact_mod_cast (by omega : s.t0 ≤ now)))
  exact ⟨ht0, hdt, by rw [projection, max_eq_left hdt]⟩

/-- The epoch after a feedback step, after `resume()` and after `stop()`'s seek. -/
theorem dt_clamp_never_fires_tour :
    (halfRate.t0 ≤ 20000 ∧ 0 ≤ halfRate.Tf * (30000 - halfRate.t0) ∧
        halfRate.projection 30000 = halfRate.pos0 + toInt64 (halfRate.Tf * (30000 - halfRate.t0))) ∧
      (tourResumed.t0 ≤ 230000 ∧ 0 ≤ tourResumed.Tf * (235000 - tourResumed.t0) ∧
        tourResumed.projection 235000 =
          tourResumed.pos0 + toInt64 (tourResumed.Tf * (235000 - tourResumed.t0))) ∧
      (tourStopped.t0 ≤ 240000 ∧ 0 ≤ tourStopped.Tf * (250000 - tourStopped.t0) ∧
        tourStopped.projection 250000 =
          tourStopped.pos0 + toInt64 (tourStopped.Tf * (250000 - tourStopped.t0))) :=
  have h := @reachable_tour AnyCall fun _ _ _ _ _ => trivial
  ⟨dt_clamp_never_fires h.1 (by decide), dt_clamp_never_fires h.2.2.2.1 (by decide),
    dt_clamp_never_fires h.2.2.2.2 (by decide)⟩

end TimeInterpolator
end Android
