import TimeInterpolator.Readers
import TimeInterpolator.Pause

/-!
# TimeInterpolator — latency changes and seeks at the cadence

A latency change shifts the next error by the change of latency, and a seek of a rolling stream
restarts the clock a latency behind the new read pointer: both keep the clock in the loop. With
reads, latency changes and seeks in any order the cadence never underruns
(`sink_never_underruns`), and from any state in the loop it re-locks (`inLoop_relocks`).
-/

namespace Android
namespace TimeInterpolator

open State

/-- `set_latency` shifts the error of the next feedback step by the change of latency. -/
theorem feedbackError_setLatency (p : TimeInterpolator) {l : Int} (hl : 0 < l) (t : Int) :
    (p.setLatency l).feedbackError t = p.feedbackError t + (l - p.latency) := by
  simp only [feedbackError, setLatency, if_pos hl, pos1]
  ring

/-- The cold start puts a stopped clock in the loop when a frame is below both half the
latency and the cold start's offset. -/
theorem inLoop_coldStart {p : TimeInterpolator} (hp : p.state = stopped) {w f : Int}
    (hfL : 2 * f < p.latency) (hoff : f < initialOffset p.latency) :
    InLoop f (p.postBuffer w f) ∧ (p.postBuffer w f).t0 = w := by
  have he := coldStart_feedbackError p w f
  rw [postBuffer_of_stopped p hp]
  exact ⟨⟨rfl, hfL, zero_le_one, show (p.coldStart w f).feedbackError (w + f) < p.latency by
    omega⟩, rfl⟩

/-- A rolling clock at unit rate is in the loop when, a frame past its epoch, it is still
short of the read pointer. -/
theorem inLoop_of_Tf_eq_one {q : TimeInterpolator} {f : Int} (hr : q.state = rolling)
    (hfL : 2 * f < q.latency) (hT : q.Tf = 1) (hlt : q.pos0 + f < q.readPointer) :
    InLoop f q := by
  refine ⟨hr, hfL, by rw [hT]; exact zero_le_one, ?_⟩
  rw [feedbackError, pos1_of_Tf_eq_one hT]
  unfold readPointer at hlt
  omega

namespace InLoop

variable {f : Int} {p : TimeInterpolator} (h : InLoop f p)
include h

/-- A latency change keeps the clock in the loop when a frame stays below half the new
latency. -/
theorem setLatency {l : Int} (hl : 2 * f < l) (hf : 0 < f) : InLoop f (p.setLatency l) := by
  have hl0 : 0 < l := by omega
  have hlat : (p.setLatency l).latency = l := if_pos hl0
  have he := feedbackError_setLatency p hl0 (p.t0 + f)
  have hlt := h.error_lt
  exact ⟨h.rolling, by rw [hlat]; exact hl, h.Tf_nonneg, by
    rw [show (p.setLatency l).t0 = p.t0 from rfl, he, hlat]; omega⟩

/-- The post one frame past the epoch does not underrun; it leaves the clock locked a frame
later, at the same latency, and its error follows the abstract loop. -/
theorem postBuffer (hf : 0 < f) :
    ¬ p.PostUnderruns (p.t0 + f) f ∧ (p.postBuffer (p.t0 + f) f).t0 = p.t0 + f ∧
      (p.postBuffer (p.t0 + f) f).latency = p.latency ∧
      ErrorStep p.latency f (p.feedbackError (p.t0 + f))
        ((p.postBuffer (p.t0 + f) f).feedbackError ((p.postBuffer (p.t0 + f) f).t0 + f)) ∧
      InLoop f (p.postBuffer (p.t0 + f) f) := by
  have hL : 0 < p.latency := by have := h.latency_gt; omega
  obtain ⟨hu, hlock⟩ := postBuffer_locked h.rolling hL hf rfl h.error_lt
  have hstep : ErrorStep p.latency f (p.feedbackError (p.t0 + f))
      ((p.postBuffer (p.t0 + f) f).feedbackError ((p.postBuffer (p.t0 + f) f).t0 + f)) := by
    rw [hlock.t0_eq]; exact hlock.errorStep hL rfl
  refine ⟨hu, hlock.t0_eq, hlock.latency_eq, hstep, hlock.rolling,
    hlock.latency_eq ▸ h.latency_gt, ?_, ?_⟩
  · rw [hlock.Tf_eq]
    linarith [half_le_clampedTf p.latency (p.feedbackError (p.t0 + f))]
  · rw [hlock.latency_eq]
    exact (hstep.mem hf h.latency_gt h.error_lt).2

/-- A seek restarts the clock at unit rate one latency behind the new read pointer, so a frame
later its error is the frame: the clock stays in the loop, wherever the seek goes. -/
theorem seek (hf : 0 < f) (now m : Int) : InLoop f (p.seek now m) := by
  have hL := h.latency_gt
  rw [TimeInterpolator.seek, if_neg (by simp [h.rolling])]
  exact inLoop_of_Tf_eq_one h.rolling hL rfl (show m - p.latency + f < m + 0 by omega)

end InLoop

/-! ## A sink with latency changes and seeks -/

/-- The calls of the sink: the cadence with its readers, latency changes that keep the cold
start possible, and seeks. -/
def SinkCall (w f : Int) (s : TimeInterpolator) (now : Int) (call : Call) : Prop :=
  CadenceCall w f s now call ∨
    (∃ l, call = .setLatency l ∧ 2 * f < l ∧ f < initialOffset l) ∨ ∃ m, call = .seek m

/-- The sink before its cold start: stopped, with a latency that allows it. -/
def Cold (f : Int) (p : TimeInterpolator) : Prop :=
  p.state = stopped ∧ 2 * f < p.latency ∧ f < initialOffset p.latency

section SinkSteps

variable {w f : Int} {p : TimeInterpolator} {now : Int} {call : Call}

/-- In the loop, a call of the sink does not underrun and keeps the clock in the loop. -/
theorem InLoop.sinkStep (hf : 0 < f) (h : InLoop f p) (hok : SinkCall w f p now call) :
    ¬ call.Underruns p now ∧ InLoop f (call.exec p now) := by
  rcases hok with ⟨hle, rfl | ⟨rfl, hnow⟩⟩ | ⟨l, rfl, hl, -⟩ | ⟨m, rfl⟩
  · -- a read
    rw [nextPost, if_neg (by simp [h.rolling])] at hle
    exact h.getStreamUsecs hf hle
  · -- a post one frame past the epoch
    rw [nextPost, if_neg (by simp [h.rolling])] at hnow
    subst hnow
    obtain ⟨hu, -, -, -, hin⟩ := h.postBuffer hf
    exact ⟨hu, hin⟩
  · exact ⟨nofun, h.setLatency hl hf⟩
  · exact ⟨nofun, h.seek hf now m⟩

/-- Before the cold start, a call of the sink does not underrun: the post is the cold start and
puts the clock in the loop, and every other call keeps the sink cold. -/
theorem Cold.step (hf : 0 < f) (h : Cold f p) (hok : SinkCall w f p now call) :
    ¬ call.Underruns p now ∧ (call = .postBuffer f ∧ InLoop f (call.exec p now) ∨
      call ≠ .postBuffer f ∧ Cold f (call.exec p now)) := by
  obtain ⟨hst, hfL, hoff⟩ := h
  rcases hok with ⟨-, rfl | ⟨rfl, hnow⟩⟩ | ⟨l, rfl, hl, hlo⟩ | ⟨m, rfl⟩
  · -- a read
    have hu : ¬ Call.getStreamUsecs.Underruns p now := fun hu => by
      simp [Call.Underruns, hst] at hu
    have hq := upToReads_getStreamUsecs hu
    have hlat : (Call.getStreamUsecs.exec p now).latency = p.latency := hq.latency_eq
    exact ⟨hu, .inr ⟨nofun, hq.state_eq.trans hst, by rw [hlat]; exact hfL,
      by rw [hlat]; exact hoff⟩⟩
  · -- the cold start
    rw [nextPost, if_pos hst] at hnow
    exact ⟨fun hu => hu.1 hst, .inl ⟨rfl, (inLoop_coldStart hst hfL hoff).1⟩⟩
  · -- a latency change
    have hlat : ((Call.setLatency l).exec p now).latency = l := if_pos (by omega)
    exact ⟨nofun, .inr ⟨nofun, hst, by rw [hlat]; exact hl, by rw [hlat]; exact hlo⟩⟩
  · -- a seek keeps the mode and the latency
    refine ⟨nofun, .inr ⟨nofun, ?_⟩⟩
    rw [Call.exec, TimeInterpolator.seek, if_pos (.inl hst)]
    exact ⟨hst, hfL, hoff⟩

end SinkSteps

/-- A run of the sink from a cold state: no call underruns, and at its end the sink is still
cold with no post made, or in the loop. -/
theorem Cold.run {w f : Int} (hf : 0 < f) {p p' : TimeInterpolator} {c c' : Int}
    {cs : List (Int × Call)} (hrun : Run (SinkCall w f) p c cs p' c') (h : Cold f p) :
    Run (fun q now call => SinkCall w f q now call ∧ ¬ call.Underruns q now) p c cs p' c' ∧
      ((Cold f p' ∧ ∀ x ∈ cs, x.2 ≠ .postBuffer f) ∨ InLoop f p') := by
  induction hrun with
  | nil => exact ⟨.nil _ _, .inl ⟨h, nofun⟩⟩
  | cons hc hok hrest ih =>
    obtain ⟨hu, ⟨-, hin⟩ | ⟨hne, hcold⟩⟩ := h.step hf hok
    · -- the cold start: the rest of the run stays in the loop
      obtain ⟨hrun', hend⟩ := hrest.strengthen (fun h hok => h.sinkStep hf hok) hin
      exact ⟨.cons hc ⟨hok, hu⟩ hrun', .inr hend⟩
    · obtain ⟨hrun', hend⟩ := ih hcold
      refine ⟨.cons hc ⟨hok, hu⟩ hrun', hend.imp (fun ⟨hc', hno⟩ => ⟨hc', ?_⟩) id⟩
      simpa [hne] using hno

/-- A sink at the cadence with readers, latency changes and seeks in any order: no call
underruns, and once the cold start is made the clock is in the loop. -/
theorem sink_never_underruns (s : TimeInterpolator) (w f : Int) (hs : s.state = stopped)
    (hf : 0 < f) (hfL : 2 * f < s.latency) (hoff : f < initialOffset s.latency)
    {c c' : Int} {cs : List (Int × Call)} {s' : TimeInterpolator}
    (hrun : Run (SinkCall w f) s c cs s' c') :
    Run (fun p now call => SinkCall w f p now call ∧ ¬ call.Underruns p now) s c cs s' c' ∧
      ((s'.state = stopped ∧ ∀ x ∈ cs, x.2 ≠ .postBuffer f) ∨ InLoop f s') := by
  obtain ⟨hrun', hend⟩ := Cold.run hf hrun ⟨hs, hfL, hoff⟩
  exact ⟨hrun', hend.imp (fun h => ⟨h.1.1, h.2⟩) id⟩

/-- The calls of a sink: a latency change, the cold start, a read, a second latency change, a
seek of the rolling stream and the post a frame after it. -/
def sinkCalls : List (Int × Call) :=
  [(0, .setLatency 120000), (0, .postBuffer 20000), (10000, .getStreamUsecs),
    (15000, .setLatency 200000), (18000, .seek 500000), (38000, .postBuffer 20000)]

/-- The state at the end of `sinkCalls`. -/
def sinkEnd : TimeInterpolator :=
  (Call.postBuffer 20000).exec ((Call.seek 500000).exec ((Call.setLatency 200000).exec
    (Call.getStreamUsecs.exec ((Call.postBuffer 20000).exec
      ((Call.setLatency 120000).exec (construct 0) 0) 0) 10000) 15000) 18000) 38000

theorem sink_never_underruns_sinkCalls :
    (construct 0).state = stopped ∧ (0 : Int) < 20000 ∧ 2 * 20000 < (construct 0).latency ∧
      20000 < initialOffset (construct 0).latency ∧
      Run (fun p now call => SinkCall 0 20000 p now call ∧ ¬ call.Underruns p now)
        (construct 0) 0 sinkCalls sinkEnd 38000 ∧
      ((sinkEnd.state = stopped ∧ ∀ x ∈ sinkCalls, x.2 ≠ .postBuffer 20000) ∨
        InLoop 20000 sinkEnd) := by
  refine ⟨by decide, by decide, by decide, by decide,
    sink_never_underruns (construct 0) 0 20000 (by decide) (by decide) (by decide) (by decide)
      (.cons le_rfl (.inr (.inl ⟨120000, rfl, by decide, by decide⟩))
        (.cons le_rfl (.inl ⟨?_, .inr ⟨rfl, ?_⟩⟩)
          (.cons (by decide) (.inl ⟨?_, .inl rfl⟩)
            (.cons (by decide) (.inr (.inl ⟨200000, rfl, by decide, by decide⟩))
              (.cons (by decide) (.inr (.inr ⟨500000, rfl⟩))
                (.cons (by decide) (.inl ⟨?_, .inr ⟨rfl, ?_⟩⟩) (.nil _ _)))))))⟩
  all_goals simp [Call.exec, getStreamUsecs, nextPost, construct, unset, TimeInterpolator.seek,
    TimeInterpolator.setLatency, postBuffer, coldStart, readPointer, projection, initialOffset,
    defaultAudioLatency, Int.tdiv_eq_ediv]

/-! ## Pausing and resuming -/

/-- The first post after `resume()` puts the clock in the loop when it comes before the
paused time, restarted at the resume, reaches the read pointer. -/
theorem postBuffer_of_resumed_inLoop {p : TimeInterpolator} {t1 f : Int} (hp : p.state = paused)
    (hT : p.Tf = 1) (hq0 : p.queued = 0) (hfL : 2 * f < p.latency) (ht : p.t0 ≤ t1)
    (hlate : p.pos0 + (t1 - p.t0) < p.read) :
    ¬ p.PostUnderruns t1 f ∧ InLoop f (p.postBuffer t1 f) := by
  have hsr : ({ p with state := rolling }.settle t1 f true).read = p.read := by simp [hq0]
  have hsp : ({ p with state := rolling }.settle t1 f true).pos0 = p.pos0 + (t1 - p.t0) := by
    rw [settle_pos0]
    simp [feedback, pos1_of_Tf_eq_one hT]
  have hu : ¬ p.PostUnderruns t1 f := fun ⟨_, _, h⟩ => by
    simp only [hp, decide_True] at h
    rw [hsr, hsp] at h
    omega
  refine ⟨hu, ?_⟩
  rw [postBuffer_of_ne_stopped p (by simp [hp]), hp,
    show decide (paused = paused) = true from rfl, rollingUpdate]
  split_ifs with hagg hund
  · -- aggregated into the resumed epoch
    refine inLoop_of_Tf_eq_one rfl hfL hT ?_
    simp only [readPointer, hq0]
    omega
  · rw [hsr, hsp] at hund
    omega
  · -- the feedback step, with `Tf` set to one
    have hTf : ({ p with state := rolling }.settle t1 f true).Tf = 1 := by
      norm_num [settle, clampTf_Tf, feedback]
    refine inLoop_of_Tf_eq_one (by simp) (by simpa using hfL) hTf ?_
    rw [readPointer, hsp, settle_queued, hsr]
    omega

/-- `pause(false)`, `resume()` at `tr` and a post at `t1 >= tr` put a rolling sink back in the
loop when `m_last + (t1 - tr) < read_pointer()`, without an underrun. -/
theorem pause_resume_inLoop (s : TimeInterpolator) {tp tr t1 f : Int} (hs : s.state = rolling)
    (hfL : 2 * f < s.latency) (ht : tr ≤ t1) (hlate : s.last + (t1 - tr) < s.readPointer) :
    ¬ ((s.pause tp false).resume tr).PostUnderruns t1 f ∧
      InLoop f (((s.pause tp false).resume tr).postBuffer t1 f) :=
  postBuffer_of_resumed_inLoop (by simp [resume, pause_false, hs]) rfl
    (by simp [resume, pause_false, hs]) (by simpa [resume, pause_false, hs] using hfL) ht
    (by simpa [resume, pause_false, hs, readPointer] using hlate)

theorem pause_resume_inLoop_coldStarted :
    coldStarted.state = rolling ∧ 2 * 20000 < coldStarted.latency ∧ (5000 : Int) ≤ 10000 ∧
      coldStarted.last + (10000 - 5000) < coldStarted.readPointer ∧
      ¬ ((coldStarted.pause 1000 false).resume 5000).PostUnderruns 10000 20000 ∧
      InLoop 20000 (((coldStarted.pause 1000 false).resume 5000).postBuffer 10000 20000) :=
  ⟨by decide, by decide, by decide, by decide,
    pause_resume_inLoop coldStarted (by decide) (by decide) (by decide) (by decide)⟩

/-! ## Re-locking -/

/-- The cadence continued from a state: each post is one frame past the epoch of the one
before. -/
def cadenceFrom (p : TimeInterpolator) (f : Int) : ℕ → TimeInterpolator
  | 0 => p
  | k + 1 => (cadenceFrom p f k).postBuffer ((cadenceFrom p f k).t0 + f) f

section Relock

variable {f : Int} {p : TimeInterpolator} (hf : 0 < f) (h : InLoop f p)
include hf h

/-- The cadence from a state in the loop stays in the loop at its latency. -/
theorem cadenceFrom_inLoop (k : ℕ) :
    InLoop f (cadenceFrom p f k) ∧ (cadenceFrom p f k).latency = p.latency := by
  induction k with
  | zero => exact ⟨h, rfl⟩
  | succ k ih =>
    obtain ⟨-, -, hlat, -, hin⟩ := ih.1.postBuffer hf
    exact ⟨hin, hlat.trans ih.2⟩

/-- The errors of the cadence's feedback steps follow the abstract loop at the latency of the
start. -/
theorem cadenceFrom_errorStep (k : ℕ) :
    ErrorStep p.latency f ((cadenceFrom p f k).feedbackError ((cadenceFrom p f k).t0 + f))
      ((cadenceFrom p f (k + 1)).feedbackError ((cadenceFrom p f (k + 1)).t0 + f)) := by
  obtain ⟨hin, hlat⟩ := cadenceFrom_inLoop hf h k
  have := (hin.postBuffer hf).2.2.2.1
  rwa [hlat] at this

/-- From any state in the loop the cadence never underruns, and from some post on every error
is below `latency / f`. -/
theorem inLoop_relocks :
    (∀ k : ℕ, ¬ (cadenceFrom p f k).PostUnderruns ((cadenceFrom p f k).t0 + f) f) ∧
      ∃ K : ℕ, ∀ k, K ≤ k →
        |(cadenceFrom p f k).feedbackError ((cadenceFrom p f k).t0 + f)| * f < p.latency :=
  ⟨fun k => ((cadenceFrom_inLoop hf h k).1.postBuffer hf).1,
    errorRun_settles _ (cadenceFrom_errorStep hf h) hf h.latency_gt h.error_lt⟩

/-- From any state in the loop the `k`-th error is at most `(1 - f / (2 * latency)) ^ k` times
the first, plus `2 * latency / f`. -/
theorem inLoop_error_decays (k : ℕ) :
    |((cadenceFrom p f k).feedbackError ((cadenceFrom p f k).t0 + f) : ℚ)| ≤
      (1 - f / (2 * p.latency)) ^ k * |(p.feedbackError (p.t0 + f) : ℚ)| + 2 * p.latency / f :=
  errorRun_decays _ (cadenceFrom_errorStep hf h) hf h.latency_gt h.error_lt k

end Relock

theorem inLoop_relocks_coldStarted :
    (0 : Int) < 20000 ∧ InLoop 20000 coldStarted ∧
      (∀ k : ℕ, ¬ (cadenceFrom coldStarted 20000 k).PostUnderruns
        ((cadenceFrom coldStarted 20000 k).t0 + 20000) 20000) ∧
      ∃ K : ℕ, ∀ k, K ≤ k →
        |(cadenceFrom coldStarted 20000 k).feedbackError
          ((cadenceFrom coldStarted 20000 k).t0 + 20000)| * 20000 < coldStarted.latency :=
  have h : InLoop 20000 coldStarted := (inLoop_coldStart (w := 0) rfl (by decide) (by decide)).1
  ⟨by decide, h, inLoop_relocks (by decide) h⟩

theorem inLoop_error_decays_coldStarted :
    (0 : Int) < 20000 ∧ InLoop 20000 coldStarted ∧
      ∀ k : ℕ, |((cadenceFrom coldStarted 20000 k).feedbackError
          ((cadenceFrom coldStarted 20000 k).t0 + 20000) : ℚ)| ≤
        (1 - 20000 / (2 * coldStarted.latency)) ^ k *
          |(coldStarted.feedbackError (coldStarted.t0 + 20000) : ℚ)| +
          2 * coldStarted.latency / 20000 :=
  have h : InLoop 20000 coldStarted := (inLoop_coldStart (w := 0) rfl (by decide) (by decide)).1
  ⟨by decide, h, inLoop_error_decays (by decide) h⟩

end TimeInterpolator
end Android
