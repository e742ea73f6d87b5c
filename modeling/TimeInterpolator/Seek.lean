import TimeInterpolator.Monotone

/-!
# TimeInterpolator — seeking a paused stream

The chart has `seek()` take `PAUSED` to `STOPPED`, but `seek` keeps the mode: a paused stream
then rolls with `Tf = 0` after an aggregated post. Otherwise the time factor is `0` or in
`[0.5, 2.0]`.
-/

namespace Android
namespace TimeInterpolator

open State

/-! ## The time factor without a paused seek -/

/-- Documented calls, with no `seek` while paused. -/
def UnpausedSeekCall (s : TimeInterpolator) (_ : Int) (call : Call) : Prop :=
  call.Legal s ∧ ∀ m, call = .seek m → s.state ≠ paused

/-- A running or paused stream has its time factor in `[0.5, 2.0]`. -/
def Rated (s : TimeInterpolator) : Prop :=
  s.state ≠ stopped → 1 / 2 ≤ s.Tf ∧ s.Tf ≤ 2

/-- A seek from `STOPPED` stays stopped, one from `ROLLING` sets `Tf = 1`. -/
theorem rated_seek {s : TimeInterpolator} {now m : Int} (hp : s.state ≠ paused) :
    (s.seek now m).Rated := by
  unfold TimeInterpolator.seek
  split_ifs with hs
  · intro h'; simp_all
  · intro _; norm_num

namespace Rated

variable {s : TimeInterpolator} (h : s.Rated) {now : Int}
include h

theorem postBuffer (f : Int) : (s.postBuffer now f).Rated := by
  by_cases hst : s.state = stopped
  · rw [postBuffer_of_stopped s hst]; intro _; norm_num [coldStart]
  rw [postBuffer_of_ne_stopped s hst]
  unfold rollingUpdate
  split_ifs
  · exact fun _ => h hst
  · exact fun h' => absurd rfl h'
  · exact fun _ => settle_Tf_mem _

theorem getStreamUsecs : (s.getStreamUsecs now).2.Rated := by
  unfold TimeInterpolator.getStreamUsecs
  split_ifs
  · exact h
  · exact fun h' => absurd rfl h'
  · exact h

theorem pause (b : Bool) : (s.pause now b).Rated := by
  cases b with
  | true =>
    rw [pause_true]
    split_ifs
    · exact fun h' => absurd (by simp [TimeInterpolator.seek]) h'
    · exact fun h' => absurd rfl h'
  | false =>
    rw [pause_false]
    split_ifs with hr
    · exact fun _ => h (by simp [hr])
    · exact h

/-- Every documented call other than a paused seek keeps the bound. -/
theorem exec {call : Call} (hok : UnpausedSeekCall s now call) : (call.exec s now).Rated := by
  obtain ⟨hleg, hseek⟩ := hok
  cases call with
  | setLatency l => exact h
  | seek m => exact rated_seek (hseek m rfl)
  | postBuffer f => exact h.postBuffer f
  | getStreamUsecs => exact h.getStreamUsecs
  | pause b => exact h.pause b
  | stop => exact h.pause true
  | resume => intro _; norm_num [Call.exec, TimeInterpolator.resume]
  | reset =>
    have hs : (s.pause now true).state = stopped := by
      rw [pause_true]; split_ifs <;> simp [TimeInterpolator.seek]
    exact rated_seek (by simp [stop, hs])
  | forciblyUpdateReadPointer rp => exact h

end Rated

/-- Without a seek while paused, every reachable rolling stream has its time factor in
`[0.5, 2.0]`. -/
theorem Tf_mem_of_rolling {s : TimeInterpolator} {c : Int} (hr : Reachable UnpausedSeekCall s c)
    (hs : s.state = rolling) : 1 / 2 ≤ s.Tf ∧ s.Tf ≤ 2 :=
  Reachable.invariant (I := fun s _ => s.Rated)
    (fun c h => absurd (by simp [construct, unset, TimeInterpolator.seek]) h)
    (fun h _ hok => h.exec hok) hr (by simp [hs])

/-- After a feedback step clamped to the low bound. -/
theorem Tf_mem_of_rolling_halfRate :
    halfRate.Tf = 1 / 2 ∧ 1 / 2 ≤ halfRate.Tf ∧ halfRate.Tf ≤ 2 :=
  ⟨by rw [halfRate_eq], Tf_mem_of_rolling
    (@reachable_tour UnpausedSeekCall fun _ _ _ hl hu =>
      ⟨hl, fun _ h => by subst h; exact absurd hu id⟩).1
    (by rw [halfRate_eq])⟩

/-! ## The time factor with any calls -/

/-- The time factors the calls write: `0`, `1`, or the clamped value of the feedback step. -/
def TfRange (s : TimeInterpolator) : Prop := s.Tf = 0 ∨ (1 / 2 ≤ s.Tf ∧ s.Tf ≤ 2)

theorem tfRange_seek (s : TimeInterpolator) (now m : Int) : (s.seek now m).TfRange := by
  unfold TimeInterpolator.seek
  split_ifs
  · exact .inl rfl
  · exact .inr (by norm_num)

namespace TfRange

variable {s : TimeInterpolator} (h : s.TfRange) {now : Int}
include h

theorem postBuffer (f : Int) : (s.postBuffer now f).TfRange := by
  by_cases hst : s.state = stopped
  · rw [postBuffer_of_stopped s hst]; exact .inr (by norm_num [coldStart])
  rw [postBuffer_of_ne_stopped s hst]
  unfold rollingUpdate
  split_ifs
  · exact h
  · exact .inl rfl
  · exact .inr (settle_Tf_mem _)

theorem getStreamUsecs : (s.getStreamUsecs now).2.TfRange := by
  unfold TimeInterpolator.getStreamUsecs
  split_ifs
  · exact h
  · exact .inl rfl
  · exact h

theorem pause (b : Bool) : (s.pause now b).TfRange := by
  cases b with
  | true => rw [pause_true]; split_ifs; exacts [tfRange_seek _ _ _, h]
  | false => rw [pause_false]; split_ifs; exacts [h, h]

/-- Every call, with any arguments, keeps the time factor at `0` or in `[0.5, 2.0]`. -/
theorem exec (call : Call) : (call.exec s now).TfRange := by
  cases call with
  | setLatency l => exact h
  | seek m => exact tfRange_seek s now m
  | postBuffer f => exact h.postBuffer f
  | getStreamUsecs => exact h.getStreamUsecs
  | pause b => exact h.pause b
  | stop => exact h.pause true
  | resume => exact .inr (by norm_num [Call.exec, TimeInterpolator.resume])
  | reset => exact tfRange_seek _ _ _
  | forciblyUpdateReadPointer rp => exact h

end TfRange

/-- With any calls and arguments, the time factor of every reachable state is `0` or in
`[0.5, 2.0]`. -/
theorem Tf_zero_or_mem {s : TimeInterpolator} {c : Int} (hr : Reachable AnyCall s c) :
    s.Tf = 0 ∨ (1 / 2 ≤ s.Tf ∧ s.Tf ≤ 2) :=
  Reachable.invariant (I := fun s _ => s.TfRange) (fun c => tfRange_seek _ c 0)
    (fun h _ _ => h.exec _) hr

/-- After a feedback step clamped to the low bound, and after an underrun. -/
theorem Tf_zero_or_mem_tour :
    (halfRate.Tf = 0 ∨ (1 / 2 ≤ halfRate.Tf ∧ halfRate.Tf ≤ 2)) ∧
      (tourUnderrun.Tf = 0 ∨ (1 / 2 ≤ tourUnderrun.Tf ∧ tourUnderrun.Tf ≤ 2)) :=
  have h := @reachable_tour AnyCall fun _ _ _ _ _ => trivial
  ⟨Tf_zero_or_mem h.1, Tf_zero_or_mem h.2.1⟩

/-! ## Seeking twice -/

/-- A second `seek(m)` right after a first one only restarts the epoch's clock at its own
reading; at the same reading the two seeks leave the state of one. -/
theorem seek_seek (s : TimeInterpolator) (now now' m : Int) :
    (s.seek now m).seek now' m = { s.seek now m with t0 := now' } ∧
      (s.seek now m).seek now m = s.seek now m := by
  by_cases h : s.state = stopped ∨ s.state = paused <;> simp [TimeInterpolator.seek, h]

/-! ## A paused seek -/

/-- A stream paused right after its cold start at clock 0. -/
def pausedAfterStart : TimeInterpolator := coldStarted.pause 0 false

theorem reachable_pausedAfterStart : Reachable LegalCall pausedAfterStart 0 :=
  ⟨0, [(0, .postBuffer 20000), (0, .pause false)],
    .cons le_rfl (show (0 : Int) ≤ 20000 by decide) (.cons le_rfl trivial (.nil _ _))⟩

/-- `seek(0)` on the paused stream, then an aggregated post: the stream rolls with `Tf = 0`. -/
theorem rolling_with_Tf_zero_after_paused_seek :
    Reachable LegalCall ((pausedAfterStart.seek 0 0).postBuffer 0 20000) 0 ∧
      ((pausedAfterStart.seek 0 0).postBuffer 0 20000).state = rolling ∧
      ((pausedAfterStart.seek 0 0).postBuffer 0 20000).Tf = 0 := by
  refine ⟨reachable_pausedAfterStart.run
    (show Run LegalCall pausedAfterStart 0 [(0, .seek 0), (0, .postBuffer 20000)] _ _ from
      .cons le_rfl trivial (.cons le_rfl (show (0 : Int) ≤ 20000 by decide) (.nil _ _))), ?_⟩
  simp [pausedAfterStart, coldStarted, construct, unset, TimeInterpolator.seek,
    postBuffer_of_stopped, coldStart, pause_false, postBuffer, rollingUpdate, initialOffset,
    defaultAudioLatency, Int.tdiv_eq_ediv]

/-- `seek(0)` from the paused and from the stopped stream, then the same post and read: `0`
against `-60000`. -/
theorem paused_seek_differs_from_stopped_seek :
    Reachable LegalCall pausedAfterStart 0 ∧ pausedAfterStart.state = paused ∧
      Reachable LegalCall (construct 0) 0 ∧ (construct 0).state = stopped ∧
      pausedAfterStart.latency = (construct 0).latency ∧
      outputs (pausedAfterStart.seek 0 0) [(0, .postBuffer 20000), (0, .getStreamUsecs)] = [0] ∧
      outputs ((construct 0).seek 0 0) [(0, .postBuffer 20000), (0, .getStreamUsecs)] =
        [-60000] := by
  refine ⟨reachable_pausedAfterStart, ?_, ⟨0, [], .nil _ _⟩, ?_⟩
  all_goals simp [outputs, Call.exec, Call.output, pausedAfterStart, coldStarted, construct,
    unset, TimeInterpolator.seek, postBuffer_of_stopped, coldStart, pause_false, postBuffer,
    rollingUpdate, getStreamUsecs_fst, readPointer, projection, initialOffset,
    defaultAudioLatency, Int.tdiv_eq_ediv]

end TimeInterpolator
end Android
