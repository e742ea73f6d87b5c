import TimeInterpolator.Underrun

/-!
# TimeInterpolator — interleavings inside `stop()` and `forcibly_update_read_pointer`

`pause(true)` is two critical sections, and a reader between them gets the unclamped
projection of the epoch before `stop()`. `forcibly_update_read_pointer` takes no lock, and a
`post_buffer` between its load and its store tears the read pointer (`forcibly_torn_by_post`).
-/

namespace Android
namespace TimeInterpolator

open State

variable (s : TimeInterpolator)

theorem pauseLocked_true (now : Int) :
    s.pauseLocked now true = ({ s with state := stopped }, s.readPointer) := rfl

/-- A reader between `stop()`'s critical sections gets the projection of the epoch before: at
least what that state reports, and equal to it when it is stopped or short of `read`. -/
theorem stop_window_read_eq_projection (now c c' : Int) :
    ((s.pauseLocked now true).1.getStreamUsecs c).1 = s.projection c ∧
      (s.getStreamUsecs c).1 ≤ s.projection c ∧
      (s.state = stopped ∨ (s.state = rolling ∧ s.projection c < s.readPointer) →
        (s.getStreamUsecs c).1 = s.projection c) ∧
      (0 ≤ s.readPointer →
        ((s.pauseLocked now true).1.getStreamUsecs c).2.seek c' (s.pauseLocked now true).2 =
          s.stop c') := by
  refine ⟨by simp [pauseLocked_true, getStreamUsecs_fst], ?_, fun h => ?_, fun h => ?_⟩
  · rw [getStreamUsecs_fst]
    split_ifs with hp hu
    · exact pos0_le_projection
    · exact hu.1
    · exact le_rfl
  · rw [getStreamUsecs_fst]
    rcases h with h | ⟨h, hlt⟩ <;> simp [h]
    exact fun hle => absurd hle (not_le.mpr hlt)
  · simp [pauseLocked_true, stop, pause_true, h, getStreamUsecs, TimeInterpolator.seek]

/-- One second after a cold start the reader gets `940000`, where both states report `20000`. -/
theorem stop_window_read_differs :
    Reachable LegalCall coldStarted 0 ∧
      ((coldStarted.pauseLocked 1000000 true).1.getStreamUsecs 1000000).1 = 940000 ∧
      (coldStarted.getStreamUsecs 1000000).1 = 20000 ∧
      ∀ c', ((coldStarted.stop c').getStreamUsecs 1000000).1 = 20000 := by
  refine ⟨⟨0, [(0, .postBuffer 20000)], .cons le_rfl (show (0 : Int) ≤ 20000 by decide)
    (.nil _ _)⟩, ?_⟩
  simp [coldStarted, construct, unset, TimeInterpolator.seek, postBuffer_of_stopped, coldStart,
    pauseLocked_true, stop, pause_true, getStreamUsecs_fst, readPointer, projection,
    initialOffset, defaultAudioLatency, Int.tdiv_eq_ediv]

/-! ## A post inside `forcibly_update_read_pointer` -/

/-- The store of `forcibly_update_read_pointer(rp)`, with the `m_queued` it loaded. -/
def forciblyStore (q rp : Int) : TimeInterpolator := { s with read := rp - q }

/-- A post on a running or paused clock adds its frame to the read pointer, whether it is
aggregated, runs the feedback step or underruns. -/
theorem postBuffer_readPointer (hs : s.state ≠ stopped) (now f : Int) :
    (s.postBuffer now f).readPointer = s.readPointer + f := by
  rw [postBuffer_of_ne_stopped s hs]
  unfold rollingUpdate
  split_ifs <;> simp only [readPointer, errUnderrun, settle_read, settle_queued] <;> ring

/-- A `post_buffer(f)` between the load and the store moves the read pointer off `rp` by what it
did to `m_queued`: to an atomic order's value only if it kept `m_queued` or added `f`. -/
theorem forcibly_torn_by_post (hs : s.state ≠ stopped) (now f rp : Int) :
    ((s.forciblyUpdateReadPointer rp).postBuffer now f).readPointer = rp + f ∧
      ((s.postBuffer now f).forciblyUpdateReadPointer rp).readPointer = rp ∧
      ((s.postBuffer now f).forciblyStore s.queued rp).readPointer =
        rp - s.queued + (s.postBuffer now f).queued ∧
      (((s.postBuffer now f).forciblyStore s.queued rp).readPointer = rp + f ∨
          ((s.postBuffer now f).forciblyStore s.queued rp).readPointer = rp ↔
        (s.postBuffer now f).queued = s.queued + f ∨ (s.postBuffer now f).queued = s.queued) := by
  have hq : (s.forciblyUpdateReadPointer rp).readPointer = rp := by
    simp [forciblyUpdateReadPointer, readPointer]
  refine ⟨by rw [postBuffer_readPointer (s.forciblyUpdateReadPointer rp) hs, hq],
    by simp [forciblyUpdateReadPointer, readPointer], by simp only [forciblyStore, readPointer], ?_⟩
  simp only [forciblyStore, readPointer]
  omega

/-- A post of 20 ms inside `forcibly_update_read_pointer(1000000)` leaves `1010000`; the atomic
orders leave `1020000` and `1000000`. -/
theorem forcibly_torn_by_post_coldStarted :
    (coldStarted.postBuffer 20000 10000).state ≠ stopped ∧
      (((coldStarted.postBuffer 20000 10000).forciblyUpdateReadPointer 1000000).postBuffer
          30000 20000).readPointer = 1000000 + 20000 ∧
      (((coldStarted.postBuffer 20000 10000).postBuffer 30000 20000).forciblyUpdateReadPointer
          1000000).readPointer = 1000000 ∧
      (((coldStarted.postBuffer 20000 10000).postBuffer 30000 20000).forciblyStore
          (coldStarted.postBuffer 20000 10000).queued 1000000).readPointer =
        1000000 - (coldStarted.postBuffer 20000 10000).queued +
          ((coldStarted.postBuffer 20000 10000).postBuffer 30000 20000).queued ∧
      ((((coldStarted.postBuffer 20000 10000).postBuffer 30000 20000).forciblyStore
            (coldStarted.postBuffer 20000 10000).queued 1000000).readPointer = 1000000 + 20000 ∨
          (((coldStarted.postBuffer 20000 10000).postBuffer 30000 20000).forciblyStore
            (coldStarted.postBuffer 20000 10000).queued 1000000).readPointer = 1000000 ↔
        ((coldStarted.postBuffer 20000 10000).postBuffer 30000 20000).queued =
            (coldStarted.postBuffer 20000 10000).queued + 20000 ∨
          ((coldStarted.postBuffer 20000 10000).postBuffer 30000 20000).queued =
            (coldStarted.postBuffer 20000 10000).queued) ∧
      (((coldStarted.postBuffer 20000 10000).postBuffer 30000 20000).forciblyStore
          (coldStarted.postBuffer 20000 10000).queued 1000000).readPointer = 1010000 := by
  have hs : (coldStarted.postBuffer 20000 10000).state ≠ stopped := by
    norm_num [coldStarted, construct, unset, TimeInterpolator.seek, postBuffer_of_stopped,
      coldStart, postBuffer, rollingUpdate, settle, feedback, clampTf, errOverrun, errUnderrun,
      pos1, positionError, initialOffset, defaultAudioLatency, Int.tdiv_eq_ediv]
    decide
  obtain ⟨h1, h2, h3, h4⟩ := forcibly_torn_by_post _ hs 30000 20000 1000000
  refine ⟨hs, h1, h2, h3, h4, ?_⟩
  rw [h3]
  norm_num [coldStarted, construct, unset, TimeInterpolator.seek, postBuffer_of_stopped, coldStart,
    postBuffer, rollingUpdate, settle, feedback, clampTf, errOverrun, errUnderrun, pos1,
    positionError, initialOffset, defaultAudioLatency, Int.tdiv_eq_ediv]

end TimeInterpolator
end Android
