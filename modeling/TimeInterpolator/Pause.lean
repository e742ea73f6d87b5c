import TimeInterpolator.Underrun

/-!
# TimeInterpolator — pause, resume and reset

`pause(false)` holds the time at `m_last` until the next post, which restarts the clock at unit
rate from the paused time (`pause_resume_post`). `resume()` on a stopped stream sets its clock
running past the data (`stray_resume_runs_clock`). `reset()` rebuilds the constructed state.
-/

namespace Android
namespace TimeInterpolator

open State

/-! ## Holding the time while paused -/

/-- The calls a paused stream takes while it holds its time: those a stopped stream takes while
it waits (reads, latency changes, `pause(false)`) and `resume()`. -/
def HoldCall (s : TimeInterpolator) (now : Int) (call : Call) : Prop :=
  IdleCall s now call ∨ call = .resume

/-- A paused clock held at `v`. -/
structure Held (v : Int) (s : TimeInterpolator) : Prop where
  paused : s.state = paused
  pos0_eq : s.pos0 = v

/-- A read of a paused clock returns `pos0` and changes nothing, not even `m_last`. -/
theorem getStreamUsecs_of_paused {s : TimeInterpolator} {now : Int} (h : s.state = paused) :
    s.getStreamUsecs now = (s.pos0, s) := by
  simp [getStreamUsecs, h]

/-- A call of a holding stream keeps it paused at `v`, and a read returns `v`. -/
theorem Held.exec {v : Int} {p : TimeInterpolator} {now : Int} {call : Call} (h : Held v p)
    (hok : HoldCall p now call) : Held v (call.exec p now) ∧ ∀ x ∈ call.output p now, x = v := by
  have hst := h.paused
  rcases hok with (rfl | ⟨l, rfl⟩ | rfl) | rfl
  · simp only [Call.exec, Call.output, getStreamUsecs_of_paused hst, Option.mem_some_iff]
    exact ⟨h, fun x hx => hx ▸ h.pos0_eq⟩
  · exact ⟨⟨hst, h.pos0_eq⟩, nofun⟩
  · exact ⟨by simpa [Call.exec, pause_false, hst] using h, nofun⟩
  · exact ⟨⟨hst, h.pos0_eq⟩, nofun⟩

/-- While it holds, a paused clock stays paused at `v` and every read returns `v`. -/
theorem Held.run {v : Int} {p p' : TimeInterpolator} {c c' : Int} {cs : List (Int × Call)}
    (hrun : Run HoldCall p c cs p' c') (h : Held v p) :
    Held v p' ∧ ∀ x ∈ outputs p cs, x = v :=
  hrun.outputs_eq (fun h hok => h.exec hok) h

/-- After `pause(false)` every read returns `m_last`, across `resume()`, until a post, a seek, a
stop, a reset or a read-pointer override. -/
theorem pause_holds_last {s p : TimeInterpolator} {now c : Int} {cs : List (Int × Call)}
    (hs : s.state = rolling) (hrun : Run HoldCall (s.pause now false) now cs p c) :
    p.state = paused ∧ ∀ x ∈ outputs (s.pause now false) cs, x = s.last := by
  have h0 : Held s.last (s.pause now false) := by rw [pause_false, if_pos hs]; exact ⟨rfl, rfl⟩
  obtain ⟨hp, hout⟩ := h0.run hrun
  exact ⟨hp.paused, hout⟩

theorem pause_holds_last_coldStarted :
    coldStarted.state = rolling ∧
      (Call.getStreamUsecs.exec (Call.resume.exec
        (Call.getStreamUsecs.exec (coldStarted.pause 0 false) 1) 2) 3).state = paused ∧
      ∀ x ∈ outputs (coldStarted.pause 0 false)
        [(1, .getStreamUsecs), (2, .resume), (3, .getStreamUsecs)], x = coldStarted.last :=
  have hs : coldStarted.state = rolling := by decide
  ⟨hs, pause_holds_last hs (.cons (by decide) (.inl (.inl rfl))
    (.cons (by decide) (.inr rfl) (.cons (by decide) (.inl (.inl rfl)) (.nil _ _))))⟩

/-! ## Resuming -/

/-- At unit rate, the clock reads `pos0` plus the time since `t0`. -/
theorem projection_of_Tf_eq_one {s : TimeInterpolator} {t : Int} (hT : s.Tf = 1)
    (ht : s.t0 ≤ t) : s.projection t = s.pos0 + (t - s.t0) := by
  have hx : (0 : ℚ) ≤ ((t - s.t0 : Int) : ℚ) := by exact_mod_cast sub_nonneg.mpr ht
  rw [projection, hT, one_mul, ← Int.cast_sub, max_eq_left hx, toInt64_intCast]

/-- At unit rate, `pos1` is `pos0` plus the time since `t0`, exactly. -/
theorem pos1_of_Tf_eq_one {s : TimeInterpolator} (hT : s.Tf = 1) (t : Int) :
    s.pos1 t = s.pos0 + (t - s.t0) := by
  rw [pos1, hT, one_mul, ← Int.cast_sub, ← Int.cast_add, toInt64_intCast]

/-- The first post after `resume()`, if it does not underrun, leaves a rolling clock at unit rate
on the same line `pos0 + (t - t0)`, aggregated or not. -/
theorem postBuffer_of_resumed {p : TimeInterpolator} {t1 f : Int} (hp : p.state = paused)
    (hT : p.Tf = 1) (ht : p.t0 ≤ t1) (hu : ¬ p.PostUnderruns t1 f) :
    (p.postBuffer t1 f).state = rolling ∧ (p.postBuffer t1 f).Tf = 1 ∧
      ∀ t, t1 ≤ t → (p.postBuffer t1 f).projection t = p.pos0 + (t - p.t0) := by
  rw [postBuffer_of_ne_stopped p (by simp [hp]), rollingUpdate]
  split_ifs with hagg hund
  · -- aggregated into the resumed epoch
    exact ⟨rfl, hT, fun t htt => projection_of_Tf_eq_one hT (ht.trans htt)⟩
  · exact absurd ⟨by simp [hp], fun h => hagg ⟨rfl, h⟩, hund⟩ hu
  · -- the feedback step, with `Tf` set to one
    have hTf : ({ p with state := rolling }.settle t1 f (p.state = paused)).Tf = 1 := by
      norm_num [settle, clampTf_Tf, feedback, hp]
    have hpos1 := pos1_of_Tf_eq_one hT t1
    refine ⟨by simp, hTf, fun t htt => ?_⟩
    rw [projection_of_Tf_eq_one hTf (by simpa using htt), settle_pos0, settle_t0]
    simp [feedback, hp]
    omega

/-- `pause(false)`, then `resume()` at `tr`: the first post leaves a clock that reads
`m_last + (t - tr)`, unless it underruns. -/
theorem pause_resume_post (s : TimeInterpolator) {tp tr t1 f : Int} (hs : s.state = rolling)
    (ht : tr ≤ t1) (hu : ¬ ((s.pause tp false).resume tr).PostUnderruns t1 f) :
    (((s.pause tp false).resume tr).postBuffer t1 f).state = rolling ∧
      (((s.pause tp false).resume tr).postBuffer t1 f).Tf = 1 ∧
      ∀ t, t1 ≤ t →
        (((s.pause tp false).resume tr).postBuffer t1 f).projection t = s.last + (t - tr) := by
  have hp : ((s.pause tp false).resume tr).state = paused := by simp [resume, pause_false, hs]
  have hpos0 : ((s.pause tp false).resume tr).pos0 = s.last := by simp [resume, pause_false, hs]
  have h := postBuffer_of_resumed hp rfl ht hu
  rwa [hpos0] at h

theorem pause_resume_post_coldStarted :
    coldStarted.state = rolling ∧ (5000 : Int) ≤ 10000 ∧
      ¬ ((coldStarted.pause 1000 false).resume 5000).PostUnderruns 10000 20000 ∧
      (((coldStarted.pause 1000 false).resume 5000).postBuffer 10000 20000).state = rolling ∧
      (((coldStarted.pause 1000 false).resume 5000).postBuffer 10000 20000).Tf = 1 ∧
      ∀ t, 10000 ≤ t → (((coldStarted.pause 1000 false).resume 5000).postBuffer 10000
        20000).projection t = coldStarted.last + (t - 5000) := by
  have hs : coldStarted.state = rolling := by decide
  have hu : ¬ ((coldStarted.pause 1000 false).resume 5000).PostUnderruns 10000 20000 := by
    norm_num [PostUnderruns, settle_pos0, feedback, pos1, resume, pause_false, hs, coldStarted,
      construct, unset, TimeInterpolator.seek, postBuffer_of_stopped, coldStart,
      defaultAudioLatency, Int.tdiv_eq_ediv]
  exact ⟨hs, by decide, hu, pause_resume_post coldStarted hs (by decide) hu⟩

/-! ## `resume()` outside `PAUSED` -/

/-- A stopped clock that a stray `resume()` at `tr` set running at unit rate from `v`. -/
structure StrayRunning (tr v : Int) (s : TimeInterpolator) : Prop where
  stopped : s.state = stopped
  Tf_eq : s.Tf = 1
  t0_eq : s.t0 = tr
  pos0_eq : s.pos0 = v

/-- A read of such a clock at `now >= tr` reports `v + (now - tr)`, unclamped. -/
theorem StrayRunning.getStreamUsecs {tr v now : Int} {p : TimeInterpolator}
    (h : StrayRunning tr v p) (ht : tr ≤ now) :
    (p.getStreamUsecs now).1 = v + (now - tr) ∧ StrayRunning tr v (p.getStreamUsecs now).2 := by
  have hproj : p.projection now = v + (now - tr) := by
    rw [projection_of_Tf_eq_one h.Tf_eq (h.t0_eq ▸ ht), h.pos0_eq, h.t0_eq]
  have hread : p.getStreamUsecs now =
      (p.projection now, { p with last := p.projection now, nowLast := now }) := by
    simp [TimeInterpolator.getStreamUsecs, h.stopped]
  rw [hread]
  exact ⟨hproj, h.stopped, h.Tf_eq, h.t0_eq, h.pos0_eq⟩

/-- Along any run of reads, such a clock reports `v` plus the time since `tr` at every read. -/
theorem StrayRunning.run {tr v c c' : Int} {p p' : TimeInterpolator} {cs : List (Int × Call)}
    (h : StrayRunning tr v p) (hc : tr ≤ c)
    (hrun : Run (fun _ _ call => call = .getStreamUsecs) p c cs p' c') :
    StrayRunning tr v p' ∧ outputs p cs = cs.map fun x => v + (x.1 - tr) := by
  induction hrun with
  | nil => exact ⟨h, rfl⟩
  | @cons p _ now call _ _ _ hle hok _ ih =>
    obtain rfl : call = .getStreamUsecs := hok
    obtain ⟨hout, h'⟩ := h.getStreamUsecs (hc.trans hle)
    obtain ⟨hend, hrest⟩ := ih h' (hc.trans hle)
    refine ⟨hend, ?_⟩
    rw [outputs, hrest]
    simp [Call.output, hout]

/-- `resume()` on a stopped stream sets its clock running from `pos0` while the mode stays
`STOPPED`: every later read reports `pos0` plus the time since, without bound. -/
theorem stray_resume_runs_clock (s : TimeInterpolator) (hs : s.state = stopped) {tr c' : Int}
    {cs : List (Int × Call)} {s' : TimeInterpolator}
    (hrun : Run (fun _ _ call => call = .getStreamUsecs) (s.resume tr) tr cs s' c') :
    s'.state = stopped ∧ outputs (s.resume tr) cs = cs.map fun x => s.pos0 + (x.1 - tr) :=
  have h0 : StrayRunning tr s.pos0 (s.resume tr) := ⟨hs, rfl, rfl, rfl⟩
  have h := h0.run le_rfl hrun
  ⟨h.1.stopped, h.2⟩

/-- The constructed stream, with nothing posted, resumed at clock 0 and read a second later,
reports one second. -/
theorem stray_resume_runs_clock_construct :
    (construct 0).state = stopped ∧
      Run (fun _ _ call => call = .getStreamUsecs) ((construct 0).resume 0) 0
        [(1000000, .getStreamUsecs)] (Call.getStreamUsecs.exec ((construct 0).resume 0) 1000000)
        1000000 ∧
      (Call.getStreamUsecs.exec ((construct 0).resume 0) 1000000).state = stopped ∧
      outputs ((construct 0).resume 0) [(1000000, .getStreamUsecs)] =
        [(1000000, Call.getStreamUsecs)].map fun x => (construct 0).pos0 + (x.1 - 0) :=
  have hs : (construct 0).state = stopped := by decide
  have hrun : Run (fun _ _ call => call = .getStreamUsecs) ((construct 0).resume 0) 0
      [(1000000, .getStreamUsecs)] (Call.getStreamUsecs.exec ((construct 0).resume 0) 1000000)
      1000000 := .cons (by decide) rfl (.nil _ _)
  ⟨hs, hrun, stray_resume_runs_clock (construct 0) hs hrun⟩

/-! ## Reset -/

/-- `reset()` from any state leaves the state the constructor builds at that clock reading,
with the latency kept: `STOPPED`, `Tf = 0`, `pos0 = read = last = 0`, nothing queued. -/
theorem reset_eq_construct (s : TimeInterpolator) (now : Int) :
    s.reset now = { construct now with latency := s.latency } := by
  rw [reset, stop, pause_true]
  split_ifs <;> simp [TimeInterpolator.seek, construct, unset]

end TimeInterpolator
end Android
