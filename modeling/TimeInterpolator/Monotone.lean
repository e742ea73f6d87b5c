import TimeInterpolator.Invariants

/-!
# TimeInterpolator — a running clock never goes back

From a rolling or paused state, along runs of posts, reads, latency changes, read-pointer
overrides, `pause(false)` and `resume()` with no `UNDERRUN`, the times `get_stream_usecs`
returns never decrease. The argument follows `reading`: the line while running, `pos0` paused.
-/

namespace Android
namespace TimeInterpolator

open State

/-- The calls of a steady run: documented calls that neither re-pin nor stop the clock, made
where they do not underrun. -/
def SteadyCall (s : TimeInterpolator) (now : Int) (call : Call) : Prop :=
  call.Legal s ∧ call.Steady ∧ ¬ call.Underruns s now

/-- The time `get_stream_usecs` returns when it does not underrun. -/
def reading (s : TimeInterpolator) (now : Int) : Int :=
  if s.state = paused then s.pos0 else s.projection now

variable {s : TimeInterpolator} {now now' : Int}

theorem getStreamUsecs_fst_of_not_underruns (h : ¬ Call.getStreamUsecs.Underruns s now) :
    (s.getStreamUsecs now).1 = s.reading now := by
  rw [getStreamUsecs_fst, reading]
  split_ifs with hp hu
  · rfl
  · exact absurd ⟨hp, hu.1, hu.2⟩ h
  · rfl

theorem projection_mono (hT : 0 ≤ s.Tf) (h : now ≤ now') :
    s.projection now ≤ s.projection now' := by
  unfold projection
  gcongr
  exact toInt64_mono (max_le_max (mul_le_mul_of_nonneg_left (by simpa using h) hT) le_rfl)

theorem pos0_le_projection : s.pos0 ≤ s.projection now := by
  unfold projection
  linarith [toInt64_nonneg (le_max_right (s.Tf * (now - s.t0)) 0)]

theorem reading_le_projection : s.reading now ≤ s.projection now := by
  unfold reading; split_ifs
  · exact pos0_le_projection
  · exact le_rfl

theorem reading_mono (hT : 0 ≤ s.Tf) (h : now ≤ now') : s.reading now ≤ s.reading now' := by
  unfold reading; split_ifs
  · exact le_rfl
  · exact projection_mono hT h

/-- Truncating the sum never falls behind the line: `pos1` is at or past the projection at
`t1`. -/
theorem projection_le_pos1 (hT : 0 ≤ s.Tf) (h : s.t0 ≤ now) : s.projection now ≤ s.pos1 now := by
  have hx : 0 ≤ s.Tf * (now - s.t0) := mul_nonneg hT (by simpa using h)
  unfold projection pos1
  rw [max_eq_left hx]
  exact add_toInt64_le _ hx

/-- The feedback step leaves the clock at `pos0` at the moment of the post. -/
theorem settle_reading {t1 f : Int} {u : Bool} (hs : s.state = rolling) :
    (s.settle t1 f u).reading t1 = (s.settle t1 f u).pos0 := by
  simp [reading, projection, hs]

/-- The feedback step overruns only when `pos1` is at least two latencies behind `read`:
`Tf = 1 - e / latency >= 2` is `e <= -latency`. -/
theorem pos1_le_of_overrun (hL : 0 < s.latency) {t1 f : Int} {u : Bool}
    (h2 : 2 ≤ (s.feedback t1 f u).Tf) : s.pos1 t1 ≤ s.read + s.queued - 2 * s.latency := by
  cases u with
  | true => simp [feedback] at h2
  | false =>
    simp only [feedback, positionError, Bool.false_eq_true, if_false] at h2
    have hL' : (0 : ℚ) < s.latency := by exact_mod_cast hL
    have he : (s.pos1 t1 - (s.read + s.queued - s.latency) : ℚ) / s.latency ≤ -1 := by linarith
    rw [div_le_iff₀ hL', neg_one_mul] at he
    have : (s.pos1 t1 : ℚ) ≤ s.read + s.queued - 2 * s.latency := by linarith
    exact_mod_cast this

/-- The feedback step moves the clock to at least `pos1`: an overrun re-pins it at
`read - latency`, past `pos1`. -/
theorem pos1_le_settle_pos0 (hL : 0 < s.latency) {t1 f : Int} {u : Bool} :
    s.pos1 t1 ≤ (s.settle t1 f u).pos0 := by
  rw [settle_pos0]
  split_ifs with h
  · linarith [pos1_le_of_overrun hL h.1]
  · exact le_rfl

/-! ## Steady runs -/

/-- What a steady run keeps, given the last time returned so far (`none` before the first read). -/
structure Steadied (r : Option Int) (s : TimeInterpolator) (c : Int) : Prop where
  sound : s.Sound
  not_stopped : s.state ≠ stopped
  last_eq : ∀ x ∈ r, x = s.last
  le_reading : ∀ x ∈ r, x ≤ s.reading c

theorem getStreamUsecs_snd_of_not_underruns (hp : s.state ≠ paused)
    (h : ¬ Call.getStreamUsecs.Underruns s now) :
    (s.getStreamUsecs now).2 = { s with last := s.projection now, nowLast := now } := by
  unfold getStreamUsecs
  rw [if_neg hp, if_neg fun hu => h ⟨hp, hu⟩]

namespace Steadied

variable {r : Option Int}

/-- The clock reads no less later on. -/
theorem advance {c : Int} (h : Steadied r s c) (hc : c ≤ now) : Steadied r s now :=
  ⟨h.sound, h.not_stopped, h.last_eq,
    fun x hx => (h.le_reading x hx).trans (reading_mono h.sound.Tf_nonneg hc)⟩

variable (h : Steadied r s now)
include h

theorem setLatency (l : Int) : Steadied r (s.setLatency l) now :=
  ⟨h.sound.setLatency l, h.not_stopped, h.last_eq, h.le_reading⟩

theorem forciblyUpdateReadPointer (rp : Int) : Steadied r (s.forciblyUpdateReadPointer rp) now :=
  ⟨h.sound.forciblyUpdateReadPointer rp, h.not_stopped, h.last_eq, h.le_reading⟩

/-- `resume()` while paused restarts the epoch's clock, which a paused read ignores. -/
theorem resume (hp : s.state = paused) : Steadied r (s.resume now) now :=
  ⟨h.sound.resume, h.not_stopped, h.last_eq, by
    simpa [reading, TimeInterpolator.resume, hp] using h.le_reading⟩

/-- `pause(false)` pins the clock at `last`, the previous time returned. -/
theorem pause_false : Steadied r (s.pause now false) now := by
  have hS : (s.pause now false).Sound := h.sound.pause false
  rw [TimeInterpolator.pause_false] at hS ⊢
  split_ifs at hS ⊢
  · exact ⟨hS, nofun, h.last_eq, fun x hxr => by simp [reading, h.last_eq x hxr]⟩
  · exact h

/-- A read that does not underrun returns the reading, which becomes `last`. -/
theorem getStreamUsecs (hun : ¬ Call.getStreamUsecs.Underruns s now) :
    Steadied (some (s.getStreamUsecs now).1) (s.getStreamUsecs now).2 now ∧
      ∀ x ∈ r, ∀ v ∈ some (s.getStreamUsecs now).1, x ≤ v := by
  have hS : (s.getStreamUsecs now).2.Sound := h.sound.getStreamUsecs
  rw [getStreamUsecs_fst_of_not_underruns hun]
  refine ⟨?_, fun x hxr v hv => Option.mem_some_iff.mp hv ▸ h.le_reading x hxr⟩
  by_cases hp : s.state = paused
  · have h2 : (s.getStreamUsecs now).2 = s := by simp [TimeInterpolator.getStreamUsecs, hp]
    rw [h2] at hS ⊢
    refine ⟨hS, h.not_stopped, fun x hx' => ?_, fun x hx' => ?_⟩ <;>
      obtain rfl := Option.mem_some_iff.mp hx'
    · simp [reading, hp, h.sound.paused_pos0 hp]
    · exact le_rfl
  · rw [getStreamUsecs_snd_of_not_underruns hp hun] at hS ⊢
    refine ⟨hS, h.not_stopped, fun x hx' => ?_, fun x hx' => ?_⟩ <;>
      obtain rfl := Option.mem_some_iff.mp hx' <;> simp [reading, hp, projection]

/-- A post that does not underrun is aggregated, which moves no line, or runs the feedback
step, which moves the clock to `pos1` or past it. -/
theorem postBuffer {f : Int} (hf : 0 ≤ f) (hun : ¬ (Call.postBuffer f).Underruns s now) :
    Steadied r (s.postBuffer now f) now := by
  have hst := h.not_stopped
  have hS : (s.postBuffer now f).Sound := h.sound.postBuffer f
  rw [postBuffer_of_ne_stopped s hst] at hS ⊢
  unfold rollingUpdate at hS ⊢
  split_ifs at hS ⊢ with hagg hund
  · refine ⟨hS, nofun, h.last_eq, fun x hxr => (h.le_reading x hxr).trans ?_⟩
    simpa [reading] using (reading_le_projection : s.reading now ≤ s.projection now)
  · exact absurd ⟨hst, fun h' => hagg ⟨rfl, h'⟩, hund⟩ hun
  · have hdt : s.t0 ≤ now := by
      have h4 : 0 ≤ f.tdiv 4 := Int.tdiv_nonneg hf (by norm_num)
      have : ¬ now - s.t0 < f.tdiv 4 := not_and.mp hagg rfl
      omega
    refine ⟨hS, by simp, by simpa using h.last_eq, fun x hxr => ?_⟩
    rw [settle_reading rfl]
    calc x ≤ s.reading now := h.le_reading x hxr
      _ ≤ s.projection now := reading_le_projection
      _ ≤ s.pos1 now := projection_le_pos1 h.sound.Tf_nonneg hdt
      _ ≤ _ := pos1_le_settle_pos0 (s := { s with state := rolling }) h.sound.latency_pos

end Steadied

/-- A steady call keeps `Steadied` with the time it returns, if any, as the last one, and
that time is at least the previous one. -/
theorem Steadied.exec {r : Option Int} {c : Int} {call : Call} (h : Steadied r s c)
    (hc : c ≤ now) (hok : SteadyCall s now call) :
    Steadied ((call.output s now).or r) (call.exec s now) now ∧
      ∀ x ∈ r, ∀ v ∈ call.output s now, x ≤ v := by
  obtain ⟨hleg, hsteady, hun⟩ := hok
  have h' := h.advance hc
  cases call with
  | setLatency l => exact ⟨h'.setLatency l, nofun⟩
  | forciblyUpdateReadPointer rp => exact ⟨h'.forciblyUpdateReadPointer rp, nofun⟩
  | resume => exact ⟨h'.resume hleg, nofun⟩
  | pause b =>
    cases b with
    | true => exact hsteady.elim
    | false => exact ⟨h'.pause_false, nofun⟩
  | getStreamUsecs => exact h'.getStreamUsecs hun
  | postBuffer f => exact ⟨h'.postBuffer hleg hun, nofun⟩
  | seek _ | reset | stop => exact hsteady.elim

/-- Along a steady run, the last time returned before it followed by the times returned in it
never decrease. -/
theorem Steadied.run {r : Option Int} {s' : TimeInterpolator} {c c' : Int}
    {cs : List (Int × Call)} (hrun : Run SteadyCall s c cs s' c') (h : Steadied r s c) :
    (r.toList ++ outputs s cs).Chain' (· ≤ ·) := by
  induction hrun generalizing r with
  | nil =>
    cases r with
    | none => trivial
    | some x => exact List.Chain.nil
  | @cons s c now call cs s' c' hc hok _ ih =>
    obtain ⟨h', hle⟩ := h.exec hc hok
    have ih' := ih h'
    simp only [outputs]
    cases ho : call.output s now with
    | none => simpa [ho] using ih'
    | some v =>
      rw [ho, Option.or_some] at ih'
      cases r with
      | none => simpa using ih'
      | some x => exact List.Chain.cons (hle x rfl v ho) ih'

/-- From a reachable rolling or paused state, the times `get_stream_usecs` returns along any
steady run with a clock that never goes back are non-decreasing. -/
theorem getStreamUsecs_monotone {s' : TimeInterpolator} {c c' : Int} {cs : List (Int × Call)}
    (hr : Reachable AnyCall s c) (hst : s.state ≠ stopped) (hrun : Run SteadyCall s c cs s' c') :
    (outputs s cs).Chain' (· ≤ ·) := by
  simpa using Steadied.run (r := none) hrun ⟨hr.sound, hst, nofun, nofun⟩

theorem getStreamUsecs_monotone_coldStarted :
    (outputs coldStarted
      [(10, .getStreamUsecs), (20, .postBuffer 20000), (30, .getStreamUsecs)]).Chain' (· ≤ ·) :=
  getStreamUsecs_monotone ⟨0, [(0, .postBuffer 20000)], .cons le_rfl trivial (.nil _ _)⟩
    (by decide)
    (.cons (by decide) ⟨trivial, trivial, by
        simp [Call.Underruns, coldStarted, construct, unset, TimeInterpolator.seek,
          postBuffer_of_stopped, coldStart, readPointer, projection, initialOffset,
          defaultAudioLatency, Int.tdiv_eq_ediv]⟩
      (.cons (by decide) ⟨show (0 : Int) ≤ 20000 by decide, trivial, by
          simp [Call.Underruns, PostUnderruns, Call.exec, coldStarted, construct, unset,
            TimeInterpolator.seek, postBuffer_of_stopped, coldStart, getStreamUsecs, readPointer,
            projection, initialOffset, defaultAudioLatency, Int.tdiv_eq_ediv]⟩
        (.cons (by decide) ⟨trivial, trivial, by
          simp [Call.Underruns, Call.exec, coldStarted, construct, unset, TimeInterpolator.seek,
            postBuffer, coldStart, getStreamUsecs, rollingUpdate, readPointer, projection,
            initialOffset, defaultAudioLatency, Int.tdiv_eq_ediv]⟩ (.nil _ _))))

end TimeInterpolator
end Android
