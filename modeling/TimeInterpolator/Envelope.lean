import TimeInterpolator.Invariants

/-!
# TimeInterpolator — the clock never runs ahead of the data

Over non-negative media positions, every time `get_stream_usecs` reports is at most the read
pointer, in every mode. The sentinel of `pause(true)` matters: a stream stopped with a negative
read pointer keeps its clock running (`stop_behind_zero_leaves_clock_running`).
-/

namespace Android
namespace TimeInterpolator

open State

/-- The calls of the spec over non-negative media positions. -/
def ForwardCall (s : TimeInterpolator) (_ : Int) (call : Call) : Prop :=
  call.Legal s ∧ call.Forward

/-- The envelope invariant: a stopped clock is frozen at or behind `read`, a paused one pinned at
the last time reported, and that time is never past the read pointer. -/
structure Enveloped (s : TimeInterpolator) : Prop where
  read_nonneg : 0 ≤ s.read
  queued_nonneg : 0 ≤ s.queued
  last_le : s.last ≤ s.readPointer
  stopped_frozen : s.state = stopped → s.Tf = 0 ∧ s.queued = 0 ∧ s.pos0 ≤ s.read
  paused_pos0 : s.state = paused → s.pos0 = s.last

/-- A `seek` to a non-negative position is enveloped, whatever the state before. -/
theorem enveloped_seek {s : TimeInterpolator} (hs : s.Sound) {now m : Int} (hm : 0 ≤ m) :
    (s.seek now m).Enveloped := by
  unfold TimeInterpolator.seek
  split
  · exact ⟨hm, le_rfl, by simp [readPointer], fun _ => ⟨rfl, rfl, le_rfl⟩, fun _ => rfl⟩
  · refine ⟨hm, le_rfl, by simp [readPointer]; linarith [hs.latency_pos], ?_, ?_⟩ <;>
      intro h' <;> simp_all

namespace Enveloped

variable {s : TimeInterpolator} (h : s.Enveloped) {now : Int}
include h

theorem pause (hs : s.Sound) (b : Bool) : (s.pause now b).Enveloped := by
  have hR : 0 ≤ s.readPointer := add_nonneg h.read_nonneg h.queued_nonneg
  cases b with
  | true =>
    rw [pause_true, if_pos hR]
    exact enveloped_seek (s := { s with state := stopped })
      ⟨hs.latency_pos, hs.Tf_nonneg, hs.Tf_le_two, nofun⟩ hR
  | false =>
    rw [pause_false]
    split_ifs
    · exact ⟨hR, le_rfl, by simpa [readPointer] using h.last_le, nofun, fun _ => rfl⟩
    · exact h

/-- Outside `PAUSED`, the line is at or behind the read pointer unless a rolling read
underruns: a stopped clock is frozen at or behind `read`. -/
theorem projection_le_readPointer (hp : s.state ≠ paused)
    (hu : ¬ (s.readPointer ≤ s.projection now ∧ s.state = rolling)) :
    s.projection now ≤ s.readPointer := by
  cases hst : s.state with
  | paused => exact absurd hst hp
  | rolling => exact le_of_not_le fun h' => hu ⟨h', hst⟩
  | stopped =>
    obtain ⟨hT, hq, hp0⟩ := h.stopped_frozen hst
    rw [projection_of_Tf_eq_zero s hT, readPointer, hq, add_zero]
    exact hp0

theorem getStreamUsecs : (s.getStreamUsecs now).2.Enveloped := by
  unfold TimeInterpolator.getStreamUsecs
  split_ifs with hp hu
  · exact h
  · exact ⟨add_nonneg h.read_nonneg h.queued_nonneg, le_rfl, by simp [readPointer, errUnderrun],
      fun _ => ⟨rfl, rfl, le_rfl⟩, nofun⟩
  · exact ⟨h.read_nonneg, h.queued_nonneg, h.projection_le_readPointer hp hu, h.stopped_frozen,
      fun h' => absurd h' hp⟩

theorem postBuffer {f : Int} (hf : 0 ≤ f) : (s.postBuffer now f).Enveloped := by
  by_cases hst : s.state = stopped
  · rw [postBuffer_of_stopped s hst]
    obtain ⟨-, hq, -⟩ := h.stopped_frozen hst
    have hl := h.last_le
    simp only [readPointer, hq, add_zero] at hl
    exact ⟨add_nonneg h.read_nonneg hf, le_rfl, by simp [coldStart, readPointer]; linarith,
      nofun, nofun⟩
  rw [postBuffer_of_ne_stopped s hst]
  have hl := h.last_le
  have hR : 0 ≤ s.read + s.queued := add_nonneg h.read_nonneg h.queued_nonneg
  simp only [readPointer] at hl
  unfold rollingUpdate
  split_ifs
  · exact ⟨h.read_nonneg, add_nonneg h.queued_nonneg hf,
      by simp [readPointer]; linarith, nofun, nofun⟩
  · exact ⟨by simpa [errUnderrun] using add_nonneg hR hf, by simp [errUnderrun],
      by simp [readPointer, errUnderrun]; linarith, fun _ => by simp [errUnderrun], nofun⟩
  · exact ⟨by simpa using hR, by simpa using hf, by simp [readPointer]; linarith,
      by simp, by simp⟩

theorem resume (hp : s.state = paused) : (s.resume now).Enveloped :=
  ⟨h.read_nonneg, h.queued_nonneg, h.last_le, fun h' => absurd (h'.symm.trans hp) nofun,
    h.paused_pos0⟩

/-- Every call of the domain keeps the envelope. -/
theorem exec {call : Call} (hs : s.Sound) (hok : ForwardCall s now call) :
    (call.exec s now).Enveloped := by
  obtain ⟨hleg, hfw⟩ := hok
  cases call with
  | setLatency l => exact ⟨h.read_nonneg, h.queued_nonneg, h.last_le, h.stopped_frozen,
      h.paused_pos0⟩
  | seek m => exact enveloped_seek hs hfw
  | postBuffer f => exact h.postBuffer hleg
  | getStreamUsecs => exact h.getStreamUsecs
  | pause b => exact h.pause hs b
  | stop => exact h.pause hs true
  | resume => exact h.resume hleg
  | reset => exact enveloped_seek hs.stop le_rfl
  | forciblyUpdateReadPointer rp => exact hfw.elim

end Enveloped

/-- Every state reachable by forward calls is enveloped. -/
theorem Reachable.enveloped {s : TimeInterpolator} {c : Int} (hr : Reachable ForwardCall s c) :
    s.Enveloped := by
  refine (Reachable.invariant (I := fun s _ => s.Sound ∧ s.Enveloped) (fun c => ⟨sound_construct c,
      ?_⟩) (fun h _ hok => ⟨h.1.exec _, h.2.exec h.1 hok⟩) hr).2
  exact ⟨le_rfl, le_rfl, by simp [construct, unset, TimeInterpolator.seek, readPointer],
    fun _ => ⟨rfl, rfl, le_rfl⟩, fun _ => rfl⟩

/-- The reported time never runs ahead of the written data, in any mode. -/
theorem getStreamUsecs_le_readPointer {s : TimeInterpolator} {c : Int}
    (hr : Reachable ForwardCall s c) (now : Int) : (s.getStreamUsecs now).1 ≤ s.readPointer := by
  have h := hr.enveloped
  rw [getStreamUsecs_fst]
  split_ifs with hp hu
  · exact (h.paused_pos0 hp).symm ▸ h.last_le
  · exact le_rfl
  · exact h.projection_le_readPointer hp hu

/-- The rolling clamp, a paused pin, and the stopped clocks after an underrun and after
`stop()`. -/
theorem getStreamUsecs_le_readPointer_tour :
    (halfRate.state = rolling ∧ halfRate.readPointer ≤ halfRate.projection 200000 ∧
        (halfRate.getStreamUsecs 200000).1 ≤ halfRate.readPointer) ∧
      (tourPaused.state = paused ∧
        (tourPaused.getStreamUsecs 225000).1 ≤ tourPaused.readPointer) ∧
      (tourUnderrun.state = stopped ∧
        (tourUnderrun.getStreamUsecs 205000).1 ≤ tourUnderrun.readPointer) ∧
      (tourStopped.state = stopped ∧
        (tourStopped.getStreamUsecs 250000).1 ≤ tourStopped.readPointer) := by
  have h := @reachable_tour ForwardCall fun _ _ _ hl hu => ⟨hl, hu.forward⟩
  refine ⟨⟨by rw [halfRate_eq], ?_, getStreamUsecs_le_readPointer h.1 200000⟩,
    ⟨by rw [tourPaused_eq], getStreamUsecs_le_readPointer h.2.2.1 225000⟩,
    ⟨by rw [tourUnderrun_eq], getStreamUsecs_le_readPointer h.2.1 205000⟩,
    ⟨by rw [tourStopped_eq], getStreamUsecs_le_readPointer h.2.2.2.2 250000⟩⟩
  rw [halfRate_eq]
  norm_num [readPointer, projection]

end TimeInterpolator
end Android

namespace Android
namespace TimeInterpolator

open State

/-! ## A stopped clock is frozen -/

/-- Over non-negative positions, a stopped clock has time factor zero and reports `pos0` at
every clock reading. -/
theorem stopped_clock_frozen {s : TimeInterpolator} {c : Int} (hr : Reachable ForwardCall s c)
    (hst : s.state = stopped) : s.Tf = 0 ∧ ∀ now, (s.getStreamUsecs now).1 = s.pos0 := by
  obtain ⟨hT, -, -⟩ := hr.enveloped.stopped_frozen hst
  refine ⟨hT, fun now => ?_⟩
  rw [getStreamUsecs_fst, projection_of_Tf_eq_zero s hT]
  simp [hst]

/-- The stopped clocks left by an underrun and by `stop()`. -/
theorem stopped_clock_frozen_tour :
    (tourUnderrun.Tf = 0 ∧ ∀ now, (tourUnderrun.getStreamUsecs now).1 = tourUnderrun.pos0) ∧
      (tourStopped.Tf = 0 ∧ ∀ now, (tourStopped.getStreamUsecs now).1 = tourStopped.pos0) :=
  have h := @reachable_tour ForwardCall fun _ _ _ hl hu => ⟨hl, hu.forward⟩
  ⟨stopped_clock_frozen h.2.1 (by rw [tourUnderrun_eq]),
    stopped_clock_frozen h.2.2.2.2 (by rw [tourStopped_eq])⟩

/-- A stream stopped behind position zero: `seek(-1000000)`, one post of 20 ms, `stop()`. -/
def stoppedBehindZero : TimeInterpolator :=
  (((construct 0).seek 0 (-1000000)).postBuffer 0 20000).stop 0

/-- `stop()` with a negative read pointer takes `seek_to = -980000` for the sentinel `-1`:
the stream is `STOPPED` with the time factor it rolled at, and its clock keeps moving. -/
theorem stop_behind_zero_leaves_clock_running :
    Reachable LegalCall stoppedBehindZero 0 ∧ stoppedBehindZero.state = stopped ∧
      stoppedBehindZero.Tf = 1 ∧ (stoppedBehindZero.getStreamUsecs 0).1 = -1060000 ∧
      (stoppedBehindZero.getStreamUsecs 1).1 = -1059999 := by
  refine ⟨⟨0, [(0, .seek (-1000000)), (0, .postBuffer 20000), (0, .stop)],
    .cons le_rfl trivial (.cons le_rfl (show (0 : Int) ≤ 20000 by decide)
      (.cons le_rfl trivial (.nil _ _)))⟩, ?_⟩
  simp [stoppedBehindZero, construct, unset, TimeInterpolator.seek, postBuffer_of_stopped,
    coldStart, initialOffset, defaultAudioLatency, stop, pause_true, readPointer,
    getStreamUsecs_fst, projection, Int.tdiv_eq_ediv]

end TimeInterpolator
end Android
