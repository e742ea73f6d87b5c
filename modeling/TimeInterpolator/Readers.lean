import TimeInterpolator.Cadence

/-!
# TimeInterpolator — one writer and any number of readers

A read that does not underrun writes only `m_last` and `m_now_last`, which only `pause(false)`
reads: erasing such reads from a run leaves a run of the writer's calls (`reads_invisible`). At
the steady cadence reads up to the next post never underrun (`cadence_with_readers`).
-/

namespace Android
namespace TimeInterpolator

open State

/-! ## States up to what reads write -/

/-- `s` is `c` but for `m_last` and `m_now_last`, the members a read writes. -/
def UpToReads (c s : TimeInterpolator) : Prop :=
  s = { c with last := s.last, nowLast := s.nowLast }

namespace UpToReads

variable {c s : TimeInterpolator}

theorem refl (s : TimeInterpolator) : UpToReads s s := rfl

theorem state_eq (h : UpToReads c s) : s.state = c.state := by rw [h]

theorem t0_eq (h : UpToReads c s) : s.t0 = c.t0 := by rw [h]

theorem latency_eq (h : UpToReads c s) : s.latency = c.latency := by rw [h]

theorem projection_eq (h : UpToReads c s) (now : Int) : s.projection now = c.projection now := by
  rw [h]; rfl

theorem readPointer_eq (h : UpToReads c s) : s.readPointer = c.readPointer := by rw [h]; rfl

theorem postUnderruns_iff (h : UpToReads c s) (now f : Int) :
    s.PostUnderruns now f ↔ c.PostUnderruns now f := by
  rw [h]; exact postUnderruns_with_last c _ _ now f

theorem postBuffer (h : UpToReads c s) (now f : Int) :
    UpToReads (c.postBuffer now f) (s.postBuffer now f) := by
  unfold UpToReads at *
  rw [h, postBuffer_with_last, postBuffer_with_last]

/-- `seek` overwrites what reads write. -/
theorem seek_eq (h : UpToReads c s) (now m : Int) : s.seek now m = c.seek now m := by
  rw [h]; rfl

theorem trans {a : TimeInterpolator} (h₁ : UpToReads a c) (h₂ : UpToReads c s) :
    UpToReads a s := by
  unfold UpToReads at *
  rw [h₂, h₁]

/-- Every call but `pause(false)` keeps two states equal up to what reads write. -/
theorem exec (h : UpToReads c s) {call : Call} (hp : call ≠ .pause false) (now : Int) :
    UpToReads (call.exec c now) (call.exec s now) := by
  have hstop : UpToReads (c.pause now true) (s.pause now true) := by
    have h' : UpToReads { c with state := stopped } { s with state := stopped } := by rw [h]; rfl
    rw [pause_true, pause_true, h.readPointer_eq, h'.seek_eq]
    split_ifs
    · exact refl _
    · exact h'
  cases call with
  | setLatency l => rw [h]; rfl
  | seek m => rw [Call.exec, Call.exec, h.seek_eq]; exact refl _
  | postBuffer f => exact h.postBuffer now f
  | getStreamUsecs =>
    simp only [Call.exec, getStreamUsecs, h.state_eq, h.readPointer_eq, h.projection_eq]
    split_ifs
    · exact h
    all_goals rw [h]; rfl
  | pause b =>
    cases b with
    | true => exact hstop
    | false => exact absurd rfl hp
  | stop => exact hstop
  | resume => rw [h]; rfl
  | reset => rw [Call.exec, Call.exec, TimeInterpolator.reset, TimeInterpolator.reset,
      TimeInterpolator.stop, TimeInterpolator.stop, hstop.seek_eq]; exact refl _
  | forciblyUpdateReadPointer rp => rw [h]; rfl

end UpToReads

/-! ## Reads are invisible to the writer -/

/-- A read that does not underrun writes nothing but `m_last` and `m_now_last`. -/
theorem upToReads_getStreamUsecs {s : TimeInterpolator} {now : Int}
    (hu : ¬ Call.getStreamUsecs.Underruns s now) : UpToReads s (s.getStreamUsecs now).2 := by
  by_cases hp : s.state = paused
  · simp only [getStreamUsecs, if_pos hp]; exact .refl s
  · rw [getStreamUsecs_snd_of_not_underruns hp hu]; rfl

/-- The calls of a run whose reads do not underrun, and with no `pause(false)`. -/
def QuietCall (s : TimeInterpolator) (now : Int) (call : Call) : Prop :=
  call ≠ .pause false ∧ (call = .getStreamUsecs → ¬ call.Underruns s now)

/-- The calls of a list but its reads. -/
def writes (cs : List (Int × Call)) : List (Int × Call) :=
  cs.filter fun p => p.2 != .getStreamUsecs

/-- Erasing the reads from a run whose start is `a` up to what reads write. -/
theorem Run.erase_reads {s s' : TimeInterpolator} {c c' : Int} {cs : List (Int × Call)}
    (h : Run QuietCall s c cs s' c') :
    ∀ (a : TimeInterpolator) (c₀ : Int), UpToReads a s → c₀ ≤ c →
      ∃ a' c'', Run AnyCall a c₀ (writes cs) a' c'' ∧ UpToReads a' s' := by
  induction h with
  | nil s c => exact fun a c₀ ha _ => ⟨a, c₀, .nil _ _, ha⟩
  | @cons s c now call cs s' c' hc hok _ ih =>
    intro a c₀ ha hc₀
    by_cases hr : call = .getStreamUsecs
    · subst hr
      have hw : writes ((now, Call.getStreamUsecs) :: cs) = writes cs := by simp [writes]
      rw [hw]
      exact ih a c₀ (ha.trans (upToReads_getStreamUsecs (hok.2 rfl))) (hc₀.trans hc)
    · have hw : writes ((now, call) :: cs) = (now, call) :: writes cs := by simp [writes, hr]
      obtain ⟨a', c'', hrun, ha'⟩ := ih (call.exec a now) now (ha.exec hok.1 now) le_rfl
      exact ⟨a', c'', hw ▸ .cons (hc₀.trans hc) trivial hrun, ha'⟩

/-- Erasing every read from a run without read underruns or `pause(false)` leaves a run that
ends in the same state up to what the reads wrote. -/
theorem reads_invisible {s s' : TimeInterpolator} {c c' : Int} {cs : List (Int × Call)}
    (h : Run QuietCall s c cs s' c') :
    ∃ s'' c'', Run AnyCall s c (writes cs) s'' c'' ∧ UpToReads s'' s' :=
  Run.erase_reads h s c (.refl s) le_rfl

theorem reads_invisible_coldStarted :
    Run QuietCall coldStarted 0
        [(10, .getStreamUsecs), (1000, .postBuffer 20000), (2000, .getStreamUsecs)]
        (Call.getStreamUsecs.exec ((Call.postBuffer 20000).exec
          (Call.getStreamUsecs.exec coldStarted 10) 1000) 2000) 2000 ∧
      ∃ s'' c'', Run AnyCall coldStarted 0
          (writes [(10, .getStreamUsecs), (1000, .postBuffer 20000), (2000, .getStreamUsecs)])
          s'' c'' ∧
        UpToReads s'' (Call.getStreamUsecs.exec ((Call.postBuffer 20000).exec
          (Call.getStreamUsecs.exec coldStarted 10) 1000) 2000) := by
  have h : Run QuietCall coldStarted 0
      [(10, .getStreamUsecs), (1000, .postBuffer 20000), (2000, .getStreamUsecs)]
      (Call.getStreamUsecs.exec ((Call.postBuffer 20000).exec
        (Call.getStreamUsecs.exec coldStarted 10) 1000) 2000) 2000 := by
    refine .cons (by decide) ⟨by decide, fun _ => ?_⟩ (.cons (by decide) ⟨by decide, nofun⟩
      (.cons (by decide) ⟨by decide, fun _ => ?_⟩ (.nil _ _)))
    all_goals simp [Call.Underruns, Call.exec, coldStarted, construct, unset,
      TimeInterpolator.seek, postBuffer, coldStart, getStreamUsecs, rollingUpdate, readPointer,
      projection, initialOffset, defaultAudioLatency, Int.tdiv_eq_ediv]
  exact ⟨h, reads_invisible h⟩

/-! ## The loop between posts -/

/-- A rolling clock in the feedback loop at cadence `f`: the latency exceeds two frames, and
the feedback step one frame past the epoch will find the clock behind the read pointer. -/
structure InLoop (f : Int) (p : TimeInterpolator) : Prop where
  rolling : p.state = rolling
  latency_gt : 2 * f < p.latency
  Tf_nonneg : 0 ≤ p.Tf
  error_lt : p.feedbackError (p.t0 + f) < p.latency

namespace InLoop

variable {f : Int} {p : TimeInterpolator} (h : InLoop f p)
include h

/-- Up to the next post the clock is short of the read pointer: the projection there stays
below `pos1`, which the next feedback step finds behind the read pointer. -/
theorem read_safe (hf : 0 < f) {now : Int} (hnow : now ≤ p.t0 + f) :
    p.projection now < p.readPointer := by
  have hlt := h.error_lt
  rw [feedbackError] at hlt
  calc p.projection now ≤ p.projection (p.t0 + f) := projection_mono h.Tf_nonneg hnow
    _ ≤ p.pos1 (p.t0 + f) := projection_le_pos1 h.Tf_nonneg (by omega)
    _ < p.readPointer := by unfold readPointer; omega

theorem of_upToReads {q : TimeInterpolator} (hq : UpToReads p q) : InLoop f q := by
  rw [hq]; exact ⟨h.rolling, h.latency_gt, h.Tf_nonneg, h.error_lt⟩

/-- A read up to the next post does not underrun, and the clock stays in the loop. -/
theorem getStreamUsecs (hf : 0 < f) {now : Int} (hnow : now ≤ p.t0 + f) :
    ¬ Call.getStreamUsecs.Underruns p now ∧ InLoop f (p.getStreamUsecs now).2 := by
  have hu : ¬ Call.getStreamUsecs.Underruns p now := fun hu =>
    absurd hu.2.1 (not_le.mpr (h.read_safe hf hnow))
  exact ⟨hu, h.of_upToReads (upToReads_getStreamUsecs hu)⟩

end InLoop

/-! ## Reads between posts at the cadence -/

/-- The clock reading of the writer's next post: the cold start at `w` while stopped, then one
frame past the epoch. -/
def nextPost (w f : Int) (s : TimeInterpolator) : Int :=
  if s.state = stopped then w else s.t0 + f

/-- The calls of a writer keeping the cadence and of its readers: a post of one frame at the
next scheduled reading, or a read at any reading up to it. -/
def CadenceCall (w f : Int) (s : TimeInterpolator) (now : Int) (call : Call) : Prop :=
  now ≤ s.nextPost w f ∧ (call = .getStreamUsecs ∨ call = .postBuffer f ∧ now = s.nextPost w f)

/-- Every state of the cadence is sound, whatever the stopped state it starts from. -/
theorem cadence_sound {s : TimeInterpolator} (hs : s.state = stopped) (hL : 0 < s.latency)
    (w f : Int) (k : ℕ) : (cadence s w f k).Sound := by
  induction k with
  | zero =>
    rw [cadence, postBuffer_of_stopped s hs]
    exact ⟨hL, zero_le_one, one_le_two, nofun⟩
  | succ k ih => exact ih.postBuffer _

section Readers

variable {s : TimeInterpolator} {w f : Int} (hs : s.state = stopped) (hf : 0 < f)
  (hfL : 2 * f < s.latency) (hoff : f < initialOffset s.latency)
include hs hf hfL hoff

/-- Every state of the cadence is in the loop. -/
theorem cadence_inLoop (k : ℕ) : InLoop f (cadence s w f k) := by
  obtain ⟨hr, ht, hlat, hlt⟩ := cadence_rolling (w := w) hs hf hfL hoff k
  have hnext : w + (k + 1) * f = (cadence s w f k).t0 + f := by rw [ht]; ring
  rw [hnext] at hlt
  exact ⟨hr, hlat ▸ hfL, (cadence_sound hs (by omega) w f k).Tf_nonneg, hlat ▸ hlt⟩

/-- The states of an interleaved run: the start or a state of the reader-free cadence, up to
what reads write. -/
def Tracks (s : TimeInterpolator) (w f : Int) (p : TimeInterpolator) : Prop :=
  UpToReads s p ∨ ∃ k : ℕ, UpToReads (cadence s w f k) p

/-- One call of the writer or a reader: it does not underrun, and the run stays on the
cadence. -/
theorem Tracks.step {p : TimeInterpolator} {now : Int} {call : Call} (h : Tracks s w f p)
    (hok : CadenceCall w f p now call) :
    ¬ call.Underruns p now ∧ Tracks s w f (call.exec p now) := by
  obtain ⟨hle, rfl | ⟨rfl, hnow⟩⟩ := hok
  all_goals rcases h with hp | ⟨k, hp⟩
  · -- a read before the cold start
    have hst : p.state = stopped := hp.state_eq.trans hs
    have hu : ¬ Call.getStreamUsecs.Underruns p now := fun hu => by simp [Call.Underruns, hst] at hu
    exact ⟨hu, .inl (hp.trans (upToReads_getStreamUsecs hu))⟩
  · -- a read between two posts
    have hin : InLoop f p := (cadence_inLoop hs hf hfL hoff k).of_upToReads hp
    rw [nextPost, if_neg (by simp [hin.rolling])] at hle
    have hu := (hin.getStreamUsecs hf hle).1
    exact ⟨hu, .inr ⟨k, hp.trans (upToReads_getStreamUsecs hu)⟩⟩
  · -- the cold start
    have hst : p.state = stopped := hp.state_eq.trans hs
    rw [nextPost, if_pos hst] at hnow
    subst hnow
    exact ⟨fun hu => hu.1 hst, .inr ⟨0, hp.postBuffer _ _⟩⟩
  · -- a post one frame past the epoch
    obtain ⟨hr, ht, -⟩ := cadence_rolling (w := w) hs hf hfL hoff k
    have hst : p.state = rolling := hp.state_eq.trans hr
    rw [nextPost, if_neg (by simp [hst]), hp.t0_eq, ht] at hnow
    have hnext : now = w + ((k : Int) + 1) * f := by rw [hnow]; ring
    subst hnext
    exact ⟨fun hu => (cadence_locked hs hf hfL hoff k).1 ((hp.postUnderruns_iff _ _).mp hu),
      .inr ⟨k + 1, hp.postBuffer _ _⟩⟩

end Readers

/-- A writer at the cadence and any readers, in any order: no call underruns, and the run ends
in a state of the reader-free cadence up to what the reads wrote. -/
theorem cadence_with_readers (s : TimeInterpolator) (w f : Int) (hs : s.state = stopped)
    (hf : 0 < f) (hfL : 2 * f < s.latency) (hoff : f < initialOffset s.latency)
    {c c' : Int} {cs : List (Int × Call)} {s' : TimeInterpolator}
    (hrun : Run (CadenceCall w f) s c cs s' c') :
    Run (fun p now call => CadenceCall w f p now call ∧ ¬ call.Underruns p now) s c cs s' c' ∧
      (UpToReads s s' ∨ ∃ k : ℕ, UpToReads (cadence s w f k) s') :=
  hrun.strengthen (fun h hok => Tracks.step hs hf hfL hoff h hok) (.inl (.refl s))

theorem cadence_with_readers_construct :
    (construct 0).state = stopped ∧ (0 : Int) < 20000 ∧ 2 * 20000 < (construct 0).latency ∧
      20000 < initialOffset (construct 0).latency ∧
      Run (fun p now call => CadenceCall 0 20000 p now call ∧ ¬ call.Underruns p now)
        (construct 0) 0
        [(0, .getStreamUsecs), (0, .postBuffer 20000), (10000, .getStreamUsecs),
          (20000, .postBuffer 20000)]
        ((Call.postBuffer 20000).exec (Call.getStreamUsecs.exec ((Call.postBuffer 20000).exec
          (Call.getStreamUsecs.exec (construct 0) 0) 0) 10000) 20000) 20000 ∧
      (UpToReads (construct 0) ((Call.postBuffer 20000).exec (Call.getStreamUsecs.exec
          ((Call.postBuffer 20000).exec (Call.getStreamUsecs.exec (construct 0) 0) 0) 10000)
          20000) ∨
        ∃ k : ℕ, UpToReads (cadence (construct 0) 0 20000 k) ((Call.postBuffer 20000).exec
          (Call.getStreamUsecs.exec ((Call.postBuffer 20000).exec
            (Call.getStreamUsecs.exec (construct 0) 0) 0) 10000) 20000)) := by
  refine ⟨by decide, by decide, by decide, by decide,
    cadence_with_readers (construct 0) 0 20000 (by decide) (by decide) (by decide) (by decide)
      (.cons le_rfl ⟨by decide, .inl rfl⟩ (.cons le_rfl ⟨?_, .inr ⟨rfl, ?_⟩⟩
        (.cons (by decide) ⟨?_, .inl rfl⟩ (.cons (by decide) ⟨?_, .inr ⟨rfl, ?_⟩⟩ (.nil _ _)))))⟩
  all_goals simp [Call.exec, getStreamUsecs, nextPost, construct, unset, TimeInterpolator.seek,
    postBuffer, coldStart, readPointer, projection, initialOffset, defaultAudioLatency,
    Int.tdiv_eq_ediv]

end TimeInterpolator
end Android
