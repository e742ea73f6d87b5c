import TimeInterpolator.Invariants

/-!
# TimeInterpolator — no posted media is lost or counted twice

After `seek(m)`, the calls that write no position of their own keep the read pointer at `m`
plus everything posted since. A sink that converts byte counts buffer by buffer with
`bytes_to_usecs` posts less than it writes, by under a microsecond per buffer.
-/

namespace Android
namespace TimeInterpolator

open State

/-- The calls after the `seek(m)`: documented calls with no `seek`, `reset` or
`forcibly_update_read_pointer`. -/
def ConservingCall (s : TimeInterpolator) (_ : Int) (call : Call) : Prop :=
  call.Legal s ∧ call.Unpinned

/-- The bookkeeping invariant after `seek(m)` and posts of `p` microseconds in all. -/
structure Conserved (m p : Int) (s : TimeInterpolator) : Prop where
  readPointer_eq : s.readPointer = m + p
  queued_nonneg : 0 ≤ s.queued
  readPointer_nonneg : 0 ≤ s.readPointer
  stopped_queued : s.state = stopped → s.queued = 0

namespace Conserved

variable {m p : Int} {s : TimeInterpolator} (h : s.Conserved m p) {now : Int}
include h

/-- A call that changes neither the mode nor `read` nor `queued` keeps the bookkeeping. -/
theorem of_eq {s' : TimeInterpolator} (hs : s'.state = s.state) (hr : s'.read = s.read)
    (hq : s'.queued = s.queued) : s'.Conserved m p ∧ s.read ≤ s'.read := by
  have hR : s'.readPointer = s.readPointer := by simp [readPointer, hr, hq]
  exact ⟨⟨hR ▸ h.readPointer_eq, hq ▸ h.queued_nonneg, hR ▸ h.readPointer_nonneg,
    fun h' => hq ▸ h.stopped_queued (hs ▸ h')⟩, hr.ge⟩

theorem postBuffer {f : Int} (hf : 0 ≤ f) :
    (s.postBuffer now f).Conserved m (p + f) ∧ s.read ≤ (s.postBuffer now f).read := by
  have hR := h.readPointer_eq
  have hq := h.queued_nonneg
  have hR0 := h.readPointer_nonneg
  unfold readPointer at hR hR0
  by_cases hst : s.state = stopped
  · rw [postBuffer_of_stopped s hst]
    have hq0 := h.stopped_queued hst
    refine ⟨⟨?_, le_rfl, ?_, nofun⟩, ?_⟩ <;> simp [coldStart, readPointer] <;> linarith
  rw [postBuffer_of_ne_stopped s hst]
  unfold rollingUpdate
  split_ifs
  · refine ⟨⟨?_, ?_, ?_, nofun⟩, le_rfl⟩ <;> simp [readPointer] <;> linarith
  · refine ⟨⟨?_, le_rfl, ?_, fun _ => rfl⟩, ?_⟩ <;> simp [errUnderrun, readPointer] <;> linarith
  · refine ⟨⟨?_, by simpa using hf, ?_, by simp⟩, ?_⟩ <;> simp [readPointer] <;> linarith

theorem getStreamUsecs :
    (s.getStreamUsecs now).2.Conserved m p ∧ s.read ≤ (s.getStreamUsecs now).2.read := by
  have hR := h.readPointer_eq
  have hR0 := h.readPointer_nonneg
  unfold readPointer at hR hR0
  unfold TimeInterpolator.getStreamUsecs
  split_ifs
  · exact ⟨h, le_rfl⟩
  · refine ⟨⟨?_, le_rfl, ?_, fun _ => rfl⟩, ?_⟩ <;> simp [errUnderrun, readPointer] <;>
      linarith [h.queued_nonneg]
  · exact h.of_eq rfl rfl rfl

theorem pause (b : Bool) : (s.pause now b).Conserved m p ∧ s.read ≤ (s.pause now b).read := by
  have hR := h.readPointer_eq
  have hR0 := h.readPointer_nonneg
  have hq := h.queued_nonneg
  cases b with
  | true =>
    rw [pause_true, if_pos hR0]
    refine ⟨⟨?_, le_rfl, ?_, fun _ => rfl⟩, ?_⟩ <;>
      simp [TimeInterpolator.seek, readPointer] at hR hR0 ⊢ <;> linarith
  | false =>
    rw [pause_false]
    split_ifs
    · refine ⟨⟨?_, le_rfl, ?_, nofun⟩, ?_⟩ <;> simp [readPointer] at hR hR0 ⊢ <;> linarith
    · exact ⟨h, le_rfl⟩

/-- Every call of the domain keeps the bookkeeping, adds what it posts, and never moves
`read` back. -/
theorem exec {call : Call} (hok : ConservingCall s now call) :
    (call.exec s now).Conserved m (p + call.frames) ∧ s.read ≤ (call.exec s now).read := by
  obtain ⟨hleg, hun⟩ := hok
  cases call with
  | setLatency l => simp only [Call.frames, add_zero]; exact h.of_eq rfl rfl rfl
  | postBuffer f => exact h.postBuffer hleg
  | getStreamUsecs => simpa [Call.frames] using h.getStreamUsecs
  | pause b => simpa [Call.frames] using h.pause b
  | stop => simpa [Call.frames] using h.pause true
  | resume => simp only [Call.frames, add_zero]; exact h.of_eq rfl rfl rfl
  | seek _ | reset | forciblyUpdateReadPointer _ => exact hun.elim

end Conserved

/-- Along a run, the bookkeeping holds with everything posted added, and `read` never goes
back. -/
theorem Conserved.run {m p : Int} {s s' : TimeInterpolator} {c c' : Int}
    {cs : List (Int × Call)} (hrun : Run ConservingCall s c cs s' c') (h : s.Conserved m p) :
    s'.Conserved m (p + posted cs) ∧ s.read ≤ s'.read := by
  induction hrun generalizing p with
  | nil => simpa using h
  | cons _ hok _ ih =>
    obtain ⟨h₁, hr₁⟩ := h.exec hok
    obtain ⟨h₂, hr₂⟩ := ih h₁
    exact ⟨by simpa [add_assoc] using h₂, hr₁.trans hr₂⟩

/-- After `seek(m)` with `m >= 0`, along runs of calls that write no position, the read pointer
is `m` plus the media posted, `queued >= 0` and `read` never goes back. -/
theorem readPointer_eq_seek_add_posted (s : TimeInterpolator) {now m : Int} (hm : 0 ≤ m)
    {s₁ s₂ : TimeInterpolator} {c₁ c₂ : Int} {cs₁ cs₂ : List (Int × Call)}
    (h₁ : Run ConservingCall (s.seek now m) now cs₁ s₁ c₁)
    (h₂ : Run ConservingCall s₁ c₁ cs₂ s₂ c₂) :
    s₂.readPointer = m + posted (cs₁ ++ cs₂) ∧ 0 ≤ s₂.queued ∧ s₁.read ≤ s₂.read := by
  have h₀ : (s.seek now m).Conserved m 0 := by
    unfold TimeInterpolator.seek
    split_ifs <;> exact ⟨by simp [readPointer], le_rfl, by simpa [readPointer] using hm,
      fun _ => rfl⟩
  obtain ⟨hc₁, -⟩ := h₀.run h₁
  obtain ⟨hc₂, hread⟩ := hc₁.run h₂
  refine ⟨?_, hc₂.queued_nonneg, hread⟩
  rw [hc₂.readPointer_eq]
  simp [add_assoc]

/-- `halfRate` after a post at 24000, within a quarter frame of its epoch: aggregated. -/
def aggregatedPost : TimeInterpolator := halfRate.postBuffer 24000 20000

/-- A cold start, a feedback step, an aggregated post, and `stop()`'s seek to the read
pointer. -/
theorem readPointer_eq_seek_add_posted_aggregatedPost :
    aggregatedPost.queued = 40000 ∧ (aggregatedPost.stop 30000).state = stopped ∧
      (aggregatedPost.stop 30000).readPointer = 0 + posted ([(0, .postBuffer 20000),
          (20000, .postBuffer 20000), (24000, .postBuffer 20000)] ++ [(30000, .stop)]) ∧
      0 ≤ (aggregatedPost.stop 30000).queued ∧
      aggregatedPost.read ≤ (aggregatedPost.stop 30000).read := by
  have hpost : ∀ s c, ConservingCall s c (.postBuffer 20000) := fun _ _ =>
    ⟨show (0 : Int) ≤ 20000 by decide, trivial⟩
  have hq : aggregatedPost.queued = 40000 := by
    rw [aggregatedPost, halfRate_eq]
    norm_num [postBuffer, rollingUpdate, Int.tdiv_eq_ediv]
  refine ⟨hq, ?_, readPointer_eq_seek_add_posted unset le_rfl
    (.cons le_rfl (hpost _ _) (.cons (by decide) (hpost _ _) (.cons (by decide) (hpost _ _)
      (.nil _ _)))) (.cons (by decide) ⟨trivial, trivial⟩ (.nil _ _))⟩
  simp only [stop, pause_true, TimeInterpolator.seek]
  split_ifs <;> rfl

/-! ## Media posted from byte counts -/

/-- On whole frames, `bytes_to_usecs` is the duration rounded down. -/
theorem bytesToUsecs_frames {n F R : Int} (hn : 0 ≤ n) (hF : 0 < F) (hR : 0 < R) :
    bytesToUsecs (n * F) F R = n * 1000000 / R := by
  unfold bytesToUsecs
  rw [Int.tdiv_eq_ediv (mul_nonneg hn hF.le) hF.le, Int.mul_ediv_cancel _ hF.ne',
    Int.tdiv_eq_ediv (by positivity) hR.le]

/-- The durations of buffers of `nᵢ` frames at rate `R`, split into the whole microseconds of
each and the remainders that rounding down drops, at most `R - 1` per buffer. -/
theorem sum_duration_split (R : Int) (hR : 0 < R) (ns : List Int) :
    ns.sum * 1000000 =
        R * (ns.map fun n => n * 1000000 / R).sum + (ns.map fun n => n * 1000000 % R).sum ∧
      (ns.map fun n => n * 1000000 % R).sum ≤ ns.length * (R - 1) := by
  induction ns with
  | nil => simp
  | cons n ns ih =>
    have hd := Int.ediv_add_emod (n * 1000000) R
    have hhi := Int.emod_lt_of_pos (n * 1000000) hR
    simp only [List.sum_cons, List.map_cons, List.length_cons]
    push_cast
    exact ⟨by linarith [ih.1], by linarith [ih.2]⟩

/-- Converting buffer by buffer loses `(Σ rᵢ) / R` microseconds, `rᵢ = (nᵢ * 1000000) % R`:
less than one per buffer. -/
theorem bytesToUsecs_sum (F R : Int) (hF : 0 < F) (hR : 0 < R) (ns : List Int)
    (hns : ∀ n ∈ ns, 0 ≤ n) :
    bytesToUsecs (ns.sum * F) F R - (ns.map fun n => bytesToUsecs (n * F) F R).sum =
        (ns.map fun n => n * 1000000 % R).sum / R ∧
      (ns.map fun n => n * 1000000 % R).sum / R * R ≤ ns.length * (R - 1) := by
  have hsum : 0 ≤ ns.sum := by
    induction ns with
    | nil => exact le_rfl
    | cons n ns ih =>
      rw [List.sum_cons]
      exact add_nonneg (hns n (.head _)) (ih fun m hm => hns m (.tail _ hm))
  obtain ⟨hsplit, hle⟩ := sum_duration_split R hR ns
  have hconv : (ns.map fun n => bytesToUsecs (n * F) F R) = ns.map fun n => n * 1000000 / R :=
    List.map_congr_left fun n hn => bytesToUsecs_frames (hns n hn) hF hR
  rw [hconv, bytesToUsecs_frames hsum hF hR, hsplit, add_comm, Int.add_mul_ediv_left _ _ hR.ne']
  exact ⟨by ring, (Int.ediv_mul_le _ hR.ne').trans hle⟩

theorem bytesToUsecs_sum_44100 :
    (0 : Int) < 4 ∧ (0 : Int) < 44100 ∧ (∀ n ∈ ([1024, 1024, 1024] : List Int), 0 ≤ n) ∧
      bytesToUsecs (([1024, 1024, 1024] : List Int).sum * 4) 4 44100 -
          (([1024, 1024, 1024] : List Int).map fun n => bytesToUsecs (n * 4) 4 44100).sum =
        (([1024, 1024, 1024] : List Int).map fun n => n * 1000000 % 44100).sum / 44100 ∧
      (([1024, 1024, 1024] : List Int).map fun n => n * 1000000 % 44100).sum / 44100 * 44100 ≤
        (([1024, 1024, 1024] : List Int).length : Int) * (44100 - 1) :=
  ⟨by decide, by decide, by decide,
    bytesToUsecs_sum 4 44100 (by decide) (by decide) [1024, 1024, 1024] (by decide)⟩

/-- Three buffers of 1024 stereo 16-bit frames at 44.1 kHz post 2 µs less than they hold. -/
example : bytesToUsecs (3 * (1024 * 4)) 4 44100 - 3 * bytesToUsecs (1024 * 4) 4 44100 = 2 := by
  decide

end TimeInterpolator
end Android
