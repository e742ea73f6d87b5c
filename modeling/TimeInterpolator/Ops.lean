import TimeInterpolator.Basic

/-!
# TimeInterpolator — the operations

One definition per member function, each one critical section, with the clock reading `now` as
an argument. `post_buffer` is cut along its blocks: `coldStart`, `feedback`, `clampTf` and
`rollingUpdate`.
-/

namespace Android
namespace TimeInterpolator

open State

variable (s : TimeInterpolator)

/-! ## The clock -/

/-- A `struct timespec` that `clock_gettime` fills: seconds, and nanoseconds within a second. -/
structure Timespec where
  tvSec : Int
  tvNsec : Int
  tvNsec_nonneg : 0 ≤ tvNsec
  tvNsec_lt : tvNsec < 1000000000

/-- The order of `CLOCK_MONOTONIC`: a reading taken later is in this order with an earlier one. -/
def Timespec.Le (a b : Timespec) : Prop :=
  a.tvSec < b.tvSec ∨ a.tvSec = b.tvSec ∧ a.tvNsec ≤ b.tvNsec

instance : DecidableRel Timespec.Le := fun _ _ => inferInstanceAs (Decidable (_ ∨ _))

/-- `get_system_usecs`: a `CLOCK_MONOTONIC` reading in microseconds, with C's division. -/
def getSystemUsecs (tv : Timespec) : Int := tv.tvSec * 1000000 + tv.tvNsec.tdiv 1000

/-! ## Accessors and configuration -/

/-- `read_pointer()`: all the media written so far. -/
def readPointer : Int := s.read + s.queued

/-- `usecs_queued()`. -/
def usecsQueued : Int := s.queued

/-- `bytes_to_usecs`, with C's division (truncation toward zero). -/
def bytesToUsecs (bytes frameSize sampleRate : Int) : Int :=
  ((bytes.tdiv frameSize) * 1000000).tdiv sampleRate

/-- `set_latency`: a latency that is not positive restores the default. -/
def setLatency (latUsecs : Int) : TimeInterpolator :=
  { s with latency := if 0 < latUsecs then latUsecs else defaultAudioLatency }

/-- `forcibly_update_read_pointer` (it takes no lock in the source). -/
def forciblyUpdateReadPointer (readPointer : Int) : TimeInterpolator :=
  { s with read := readPointer - s.queued }

/-! ## Re-pinning the epoch -/

/-- `seek`: pins the clock at `mediaTime`; a rolling clock restarts one latency behind it. -/
def seek (now mediaTime : Int) : TimeInterpolator :=
  if s.state = stopped ∨ s.state = paused then
    { s with pos0 := mediaTime, read := mediaTime, queued := 0, t0 := now, Tf := 0,
             last := mediaTime, nowLast := 0 }
  else
    { s with read := mediaTime, pos0 := mediaTime - s.latency, queued := 0, t0 := now, Tf := 1,
             last := mediaTime - s.latency, nowLast := 0 }

/-- The members before the constructor's `seek(0)`: only the mode and the latency are set,
and `seek` overwrites all the others. -/
def unset : TimeInterpolator :=
  { state := stopped, Tf := 0, t0 := 0, pos0 := 0, read := 0, queued := 0,
    latency := defaultAudioLatency, last := 0, nowLast := 0 }

/-- The constructor `TimeInterpolator()`. -/
def construct (now : Int) : TimeInterpolator := unset.seek now 0

/-- `pause`'s critical section: the state it leaves and its `seek_to` (`-1` for none). -/
def pauseLocked (now : Int) (flushingFifo : Bool) : TimeInterpolator × Int :=
  if flushingFifo then ({ s with state := stopped }, s.read + s.queued)
  else if s.state = rolling then
    ({ s with state := paused, read := s.read + s.queued, pos0 := s.last, t0 := now,
              queued := 0 }, -1)
  else (s, -1)

/-- `pause`: the critical section, then `seek(seek_to)` if `seek_to >= 0`. -/
def pause (now : Int) (flushingFifo : Bool) : TimeInterpolator :=
  let p := s.pauseLocked now flushingFifo
  if 0 ≤ p.2 then p.1.seek now p.2 else p.1

/-- `stop()` is `pause(true)`. -/
def stop (now : Int) : TimeInterpolator := s.pause now true

/-- `reset()` is `stop(); seek(0)`. -/
def reset (now : Int) : TimeInterpolator := (s.stop now).seek now 0

/-- `resume`: restarts the epoch's clock at unit rate (outside `PAUSED` it logs and goes on). -/
def resume (now : Int) : TimeInterpolator := { s with t0 := now, Tf := 1 }

/-! ## Error handlers -/

/-- `err_underrun`: the clock has caught up with the data; it freezes at the read pointer. -/
def errUnderrun : TimeInterpolator :=
  { s with Tf := 0, read := s.read + s.queued, pos0 := s.read + s.queued, queued := 0,
           state := stopped }

/-- `err_overrun`: the clock lags the data too far; it jumps to one latency behind `read`. -/
def errOverrun (now : Int) : TimeInterpolator :=
  if s.state = rolling then { s with pos0 := s.read - s.latency, t0 := now } else s

/-! ## Reading the clock -/

/-- The line `t = pos0 + Tf * (now - t0)` of `get_stream_usecs`, the scaled elapsed time
clamped at zero and truncated. -/
def projection (now : Int) : Int := s.pos0 + toInt64 (max (s.Tf * (now - s.t0)) 0)

/-- `get_stream_usecs`: the time reported and the state after; a paused clock reports `pos0`,
a rolling clock that reaches the read pointer is clamped to it and underruns. -/
def getStreamUsecs (now : Int) : Int × TimeInterpolator :=
  if s.state = paused then (s.pos0, s)
  else if s.readPointer ≤ s.projection now ∧ s.state = rolling then
    (s.readPointer, { s.errUnderrun with last := s.readPointer, nowLast := now })
  else (s.projection now, { s with last := s.projection now, nowLast := now })

/-! ## Posting a buffer -/

/-- The startup offset `max(latency / 2, 40000)`. -/
def initialOffset (latency : Int) : Int :=
  if latency.tdiv 2 < 40000 then 40000 else latency.tdiv 2

/-- `post_buffer` from `STOPPED`: the clock starts `initialOffset` behind the data. -/
def coldStart (now frameUsecs : Int) : TimeInterpolator :=
  { s with t0 := now, state := rolling, read := s.read + frameUsecs,
           pos0 := s.read + frameUsecs - initialOffset s.latency, queued := 0, Tf := 1 }

/-- `pos1 = m_pos0 + m_Tf * dt`, stored in an `int64_t`. -/
def pos1 (t1 : Int) : Int := toInt64 (s.pos0 + s.Tf * (t1 - s.t0))

/-- The error `e = pos1 - pos1_desired`, where `pos1_desired = m_read - m_latency` is taken
after `m_read += m_queued`. -/
def positionError (t1 : Int) : ℚ := s.pos1 t1 - (s.read + s.queued - s.latency)

/-- The feedback step up to `m_queued = frame_usecs`: roll the previous post into `read`,
advance the epoch to `(t1, pos1)` and steer `Tf` by the error (or set it to one). -/
def feedback (t1 frameUsecs : Int) (setTfToUnity : Bool) : TimeInterpolator :=
  { s with read := s.read + s.queued, pos0 := s.pos1 t1, t0 := t1, queued := frameUsecs,
           Tf := if setTfToUnity then 1 else 1 - s.positionError t1 / s.latency }

/-- The clamp of `m_Tf` to `[0.5, 2.0]`; the top of the range is an overrun. -/
def clampTf (now : Int) : TimeInterpolator :=
  if 2 ≤ s.Tf then { s with Tf := 2 }.errOverrun now
  else if s.Tf < 1 / 2 then { s with Tf := 1 / 2 } else s

/-- The feedback step with its clamp. -/
def settle (t1 frameUsecs : Int) (setTfToUnity : Bool) : TimeInterpolator :=
  (s.feedback t1 frameUsecs setTfToUnity).clampTf t1

/-- `post_buffer` once `ROLLING`: aggregation within a quarter frame of `t0`, else the feedback
step and its `UNDERRUN` test. -/
def rollingUpdate (t1 frameUsecs : Int) (setTfToUnity : Bool) : TimeInterpolator :=
  if s.state = rolling ∧ t1 - s.t0 < frameUsecs.tdiv 4 then
    { s with queued := s.queued + frameUsecs }
  else if (s.settle t1 frameUsecs setTfToUnity).read ≤ (s.settle t1 frameUsecs setTfToUnity).pos0
  then (s.settle t1 frameUsecs setTfToUnity).errUnderrun
  else s.settle t1 frameUsecs setTfToUnity

/-- `post_buffer`: a cold start from `STOPPED`; from `PAUSED` the mode becomes `ROLLING` and
the next feedback step sets `Tf` to one. -/
def postBuffer (now frameUsecs : Int) : TimeInterpolator :=
  match s.state with
  | stopped => s.coldStart now frameUsecs
  | paused => { s with state := rolling }.rollingUpdate now frameUsecs true
  | rolling => s.rollingUpdate now frameUsecs false

end TimeInterpolator
end Android

namespace Android
namespace TimeInterpolator

open State

variable (s : TimeInterpolator) {now t1 frameUsecs : Int} {setTfToUnity : Bool}

/-! ## Frame lemmas -/

@[simp] theorem errOverrun_state : (s.errOverrun now).state = s.state := by
  unfold errOverrun; split <;> rfl

@[simp] theorem errOverrun_Tf : (s.errOverrun now).Tf = s.Tf := by
  unfold errOverrun; split <;> rfl

@[simp] theorem errOverrun_read : (s.errOverrun now).read = s.read := by
  unfold errOverrun; split <;> rfl

@[simp] theorem errOverrun_queued : (s.errOverrun now).queued = s.queued := by
  unfold errOverrun; split <;> rfl

@[simp] theorem errOverrun_latency : (s.errOverrun now).latency = s.latency := by
  unfold errOverrun; split <;> rfl

@[simp] theorem errOverrun_last : (s.errOverrun now).last = s.last := by
  unfold errOverrun; split <;> rfl

@[simp] theorem clampTf_state : (s.clampTf now).state = s.state := by
  unfold clampTf; split_ifs <;> simp

@[simp] theorem clampTf_read : (s.clampTf now).read = s.read := by
  unfold clampTf; split_ifs <;> simp

@[simp] theorem clampTf_queued : (s.clampTf now).queued = s.queued := by
  unfold clampTf; split_ifs <;> simp

@[simp] theorem clampTf_latency : (s.clampTf now).latency = s.latency := by
  unfold clampTf; split_ifs <;> simp

@[simp] theorem clampTf_last : (s.clampTf now).last = s.last := by
  unfold clampTf; split_ifs <;> simp

/-- The clamp of `m_Tf`: `2.0` on an overrun, `0.5` below it, untouched in between. -/
theorem clampTf_Tf :
    (s.clampTf now).Tf = if 2 ≤ s.Tf then 2 else if s.Tf < 1 / 2 then 1 / 2 else s.Tf := by
  unfold clampTf; split_ifs <;> simp

/-- Whatever `Tf` the feedback step computed, the clamp leaves it in `[0.5, 2.0]`. -/
theorem clampTf_Tf_mem : 1 / 2 ≤ (s.clampTf now).Tf ∧ (s.clampTf now).Tf ≤ 2 := by
  unfold clampTf
  split_ifs with h2 h1
  · norm_num
  · norm_num
  · exact ⟨not_lt.mp ‹_›, (not_le.mp h2).le⟩

/-- The clamp moves `pos0` only on an overrun of a rolling clock. -/
theorem clampTf_pos0 :
    (s.clampTf now).pos0 = if 2 ≤ s.Tf ∧ s.state = rolling then s.read - s.latency else s.pos0 := by
  unfold clampTf errOverrun
  by_cases h2 : 2 ≤ s.Tf <;> by_cases hr : s.state = rolling <;> simp [h2, hr] <;> split_ifs <;> rfl

@[simp] theorem settle_state : (s.settle t1 frameUsecs setTfToUnity).state = s.state := by
  simp [settle, feedback]

@[simp] theorem settle_read : (s.settle t1 frameUsecs setTfToUnity).read = s.read + s.queued := by
  simp [settle, feedback]

@[simp] theorem settle_queued : (s.settle t1 frameUsecs setTfToUnity).queued = frameUsecs := by
  simp [settle, feedback]

@[simp] theorem settle_latency : (s.settle t1 frameUsecs setTfToUnity).latency = s.latency := by
  simp [settle, feedback]

@[simp] theorem settle_last : (s.settle t1 frameUsecs setTfToUnity).last = s.last := by
  simp [settle, feedback]

@[simp] theorem settle_t0 : (s.settle t1 frameUsecs setTfToUnity).t0 = t1 := by
  simp only [settle, clampTf, errOverrun, feedback]; split_ifs <;> rfl

/-- The feedback step installs `pos1`, unless the clamp finds an overrun of the rolling clock
and re-pins it one latency behind `read`. -/
theorem settle_pos0 :
    (s.settle t1 frameUsecs setTfToUnity).pos0 =
      if 2 ≤ (s.feedback t1 frameUsecs setTfToUnity).Tf ∧ s.state = rolling then
        s.read + s.queued - s.latency
      else s.pos1 t1 := by
  rw [settle, clampTf_pos0]; rfl

theorem settle_Tf_mem :
    1 / 2 ≤ (s.settle t1 frameUsecs setTfToUnity).Tf ∧
      (s.settle t1 frameUsecs setTfToUnity).Tf ≤ 2 :=
  clampTf_Tf_mem _

/-- Setting the mode a state already has changes nothing. -/
theorem with_state_self {st : State} (h : s.state = st) : { s with state := st } = s := by
  cases s; cases h; rfl

/-- `post_buffer` from `ROLLING` or `PAUSED`: the rolling update of the state made rolling,
with `Tf` set to one on the feedback step exactly when it was paused. -/
theorem postBuffer_of_ne_stopped (h : s.state ≠ stopped) :
    s.postBuffer now frameUsecs =
      { s with state := rolling }.rollingUpdate now frameUsecs (s.state = paused) := by
  unfold postBuffer
  cases hs : s.state with
  | stopped => exact absurd hs h
  | paused => rfl
  | rolling => simp [with_state_self s hs]

theorem postBuffer_of_stopped (h : s.state = stopped) :
    s.postBuffer now frameUsecs = s.coldStart now frameUsecs := by
  simp [postBuffer, h]

/-- The clamp neither reads nor writes `m_last` and `m_now_last`. -/
theorem clampTf_with_last (x y t : Int) :
    ({ s with last := x, nowLast := y } : TimeInterpolator).clampTf t =
      { s.clampTf t with last := x, nowLast := y } := by
  unfold clampTf errOverrun; split_ifs <;> rfl

/-- Nor does the rolling update. -/
theorem rollingUpdate_with_last (x y t f : Int) (u : Bool) :
    ({ s with last := x, nowLast := y } : TimeInterpolator).rollingUpdate t f u =
      { s.rollingUpdate t f u with last := x, nowLast := y } := by
  have h := clampTf_with_last (s.feedback t f u) x y t
  unfold rollingUpdate settle
  rw [show ({ s with last := x, nowLast := y } : TimeInterpolator).feedback t f u =
    { s.feedback t f u with last := x, nowLast := y } from rfl, h]
  split_ifs <;> rfl

/-- `post_buffer` neither reads nor writes `m_last` and `m_now_last`: its rewind check only
logs. -/
theorem postBuffer_with_last (x y : Int) :
    ({ s with last := x, nowLast := y } : TimeInterpolator).postBuffer now frameUsecs =
      { s.postBuffer now frameUsecs with last := x, nowLast := y } := by
  by_cases hs : s.state = stopped
  · rw [postBuffer_of_stopped { s with last := x, nowLast := y } hs, postBuffer_of_stopped s hs]
    rfl
  · rw [postBuffer_of_ne_stopped { s with last := x, nowLast := y } hs,
      postBuffer_of_ne_stopped s hs]
    exact rollingUpdate_with_last { s with state := rolling } x y now frameUsecs _

end TimeInterpolator
end Android

namespace Android
namespace TimeInterpolator

open State

variable (s : TimeInterpolator) {now : Int}

/-- The time `get_stream_usecs` reports, branch by branch. -/
theorem getStreamUsecs_fst :
    (s.getStreamUsecs now).1 =
      if s.state = paused then s.pos0
      else if s.readPointer ≤ s.projection now ∧ s.state = rolling then s.readPointer
      else s.projection now := by
  unfold getStreamUsecs; split_ifs <;> rfl

/-- `stop()`: the mode becomes `STOPPED`, and the clock is re-pinned at the read pointer
unless that is negative, which the sentinel `seek_to = -1` reads as "no seek". -/
theorem pause_true :
    s.pause now true =
      if 0 ≤ s.readPointer then { s with state := stopped }.seek now s.readPointer
      else { s with state := stopped } := rfl

/-- `pause(true)` ends stopped, whatever the seek after its critical section does. -/
theorem pause_true_state : (s.pause now true).state = stopped := by
  rw [pause_true]; split_ifs <;> simp [TimeInterpolator.seek]

/-- `pause(false)` pauses a rolling clock at the last time reported, and does nothing else. -/
theorem pause_false :
    s.pause now false =
      if s.state = rolling then
        { s with state := paused, read := s.read + s.queued, pos0 := s.last, t0 := now,
                 queued := 0 }
      else s := by
  unfold pause pauseLocked; split_ifs <;> simp_all

/-- The projected line, the read pointer and `pos1` do not depend on the mode. -/
@[simp] theorem projection_with_state (st : State) :
    { s with state := st }.projection now = s.projection now := rfl

@[simp] theorem readPointer_with_state (st : State) :
    { s with state := st }.readPointer = s.readPointer := rfl

@[simp] theorem pos1_with_state (st : State) : { s with state := st }.pos1 now = s.pos1 now := rfl

/-- A frozen clock projects `pos0` at every reading. -/
theorem projection_of_Tf_eq_zero (h : s.Tf = 0) : s.projection now = s.pos0 := by
  simp [projection, h]

end TimeInterpolator
end Android
