import TimeInterpolator.Machine

/-!
# TimeInterpolator — the mode chart and `set_state`

`set_state(s, i)` logs an `ALOGE` for a change of mode the chart above it does not draw: its
checks are the chart exactly (`setStateErrs_eq_false_iff`). Along every run the calls'
`set_state`s form one walk of the chart (`run_walks_chart`).
-/

namespace Android
namespace TimeInterpolator

open State

/-- `input_t`: why `set_state` is called. Only its checks and its log messages read it. -/
inductive Input
  | stop
  | seek
  | pause
  | postBuffer
  | errUnderrun
  | errOverrun
  deriving DecidableEq, Repr

/-- Whether `set_state(s, i)` from mode `m` logs one of its `ALOGE`s; a call that keeps the
mode returns before the checks. -/
def setStateErrs (m s : State) (i : Input) : Bool :=
  m != s &&
    match m with
    | stopped => (s == rolling && i != .postBuffer) || s != rolling
    | rolling =>
        (s == paused && i != .pause) || (s == stopped && i != .stop && i != .errUnderrun) ||
          (s != paused && s != stopped)
    | paused =>
        (s == rolling && i != .postBuffer) || (s == stopped && i != .stop && i != .seek) ||
          (s != rolling && s != stopped)

/-- The arrows of the transition chart, each with the call that labels it. -/
def chartEdge : State → State → Input → Bool
  | stopped, rolling, .postBuffer => true
  | rolling, paused, .pause => true
  | rolling, stopped, .errUnderrun => true
  | rolling, stopped, .stop => true
  | paused, rolling, .postBuffer => true
  | paused, stopped, .stop => true
  | paused, stopped, .seek => true
  | _, _, _ => false

/-- The checks of `set_state` are the chart: a call is quiet exactly when it keeps the mode or
follows an arrow with its label. -/
theorem setStateErrs_eq_false_iff (m s : State) (i : Input) :
    setStateErrs m s i = false ↔ m = s ∨ chartEdge m s i = true := by
  cases m <;> cases s <;> cases i <;> decide

/-- `Walk m tr m'`: the `set_state` calls `tr`, made from mode `m`, follow the chart, each
keeping the mode or taking an arrow with its label, and leave the mode `m'`. -/
inductive Walk : State → List (State × Input) → State → Prop
  | nil (m : State) : Walk m [] m
  | cons {m t m' : State} {i : Input} {tr : List (State × Input)} :
      (m = t ∨ chartEdge m t i = true) → Walk t tr m' → Walk m ((t, i) :: tr) m'

theorem Walk.append {m₁ m₂ m₃ : State} {tr₁ tr₂ : List (State × Input)}
    (h₁ : Walk m₁ tr₁ m₂) (h₂ : Walk m₂ tr₂ m₃) : Walk m₁ (tr₁ ++ tr₂) m₃ := by
  induction h₁ with
  | nil => exact h₂
  | cons he _ ih => exact .cons he (ih h₂)

/-- The `set_state` calls of `post_buffer` once the mode is `ROLLING`: the underrun of the
feedback step, unless the post is aggregated. -/
def rollingStates (s : TimeInterpolator) (t1 frameUsecs : Int) (setTfToUnity : Bool) :
    List (State × Input) :=
  if s.state = rolling ∧ t1 - s.t0 < frameUsecs.tdiv 4 then []
  else if (s.settle t1 frameUsecs setTfToUnity).read ≤ (s.settle t1 frameUsecs setTfToUnity).pos0
  then [(stopped, .errUnderrun)]
  else []

/-- No call passes `SEEK` or `ERR_OVERRUN`. -/
def Ordinary (p : State × Input) : Prop := p.2 ≠ .seek ∧ p.2 ≠ .errOverrun

/-- The rolling update walks the chart from `ROLLING` to the mode it leaves. -/
theorem walk_rollingUpdate (s : TimeInterpolator) (hs : s.state = rolling) (t1 f : Int)
    (u : Bool) :
    Walk rolling (rollingStates s t1 f u) (s.rollingUpdate t1 f u).state ∧
      ∀ p ∈ rollingStates s t1 f u, Ordinary p := by
  unfold rollingStates rollingUpdate
  split_ifs
  · exact ⟨by simpa [hs] using Walk.nil rolling, nofun⟩
  · exact ⟨.cons (.inr rfl) (.nil _), by simp [Ordinary]⟩
  · exact ⟨by simpa [hs] using Walk.nil rolling, nofun⟩

end TimeInterpolator

namespace Call

open TimeInterpolator State

/-- The `set_state` calls a call makes, in order. -/
def setStates : Call → TimeInterpolator → Int → List (State × Input)
  | .postBuffer f, s, now =>
      match s.state with
      | stopped => [(rolling, .postBuffer)]
      | paused => (rolling, .postBuffer) :: rollingStates { s with state := rolling } now f true
      | rolling => rollingStates s now f false
  | .getStreamUsecs, s, now =>
      if s.state = paused then []
      else if s.readPointer ≤ s.projection now ∧ s.state = rolling then [(stopped, .errUnderrun)]
      else []
  | .pause true, _, _ => [(stopped, .stop)]
  | .pause false, s, _ => if s.state = rolling then [(paused, .pause)] else []
  | .stop, _, _ => [(stopped, .stop)]
  | .reset, _, _ => [(stopped, .stop)]
  | _, _, _ => []

/-- From any state, with any arguments, the `set_state` calls of a call walk the chart to the
mode the call leaves, and none passes `SEEK` or `ERR_OVERRUN`. -/
theorem walk (call : Call) (s : TimeInterpolator) (now : Int) :
    Walk s.state (call.setStates s now) (call.exec s now).state ∧
      ∀ p ∈ call.setStates s now, Ordinary p := by
  have hstop : Walk s.state [(stopped, .stop)] stopped :=
    .cons (by cases s.state <;> decide) (.nil _)
  cases call with
  | setLatency l => exact ⟨.nil _, nofun⟩
  | seek m =>
    refine ⟨?_, nofun⟩
    show Walk s.state [] (s.seek now m).state
    unfold TimeInterpolator.seek; split <;> exact .nil _
  | postBuffer f =>
    simp only [setStates, Call.exec]
    cases hs : s.state with
    | stopped =>
      have hw : Walk stopped [(rolling, .postBuffer)] rolling := .cons (.inr rfl) (.nil _)
      rw [postBuffer_of_stopped s hs]
      exact ⟨hw, by simp [Ordinary]⟩
    | paused =>
      obtain ⟨hw, ho⟩ := walk_rollingUpdate { s with state := rolling } rfl now f true
      rw [postBuffer_of_ne_stopped s (by simp [hs]), hs]
      exact ⟨.cons (.inr rfl) hw, List.forall_mem_cons.mpr ⟨⟨nofun, nofun⟩, ho⟩⟩
    | rolling =>
      rw [postBuffer_of_ne_stopped s (by simp [hs]), hs, with_state_self s hs]
      exact walk_rollingUpdate s hs now f false
  | getStreamUsecs =>
    simp only [setStates, Call.exec, TimeInterpolator.getStreamUsecs]
    split_ifs with hp hu
    · exact ⟨.nil _, nofun⟩
    · exact ⟨.cons (.inr (by rw [hu.2]; rfl)) (.nil _), by simp [Ordinary]⟩
    · exact ⟨.nil _, nofun⟩
  | pause b =>
    cases b with
    | true => exact ⟨by simpa [setStates, Call.exec, pause_true_state] using hstop,
        by simp [setStates, Ordinary]⟩
    | false =>
      simp only [setStates, Call.exec, pause_false]
      split_ifs with hs
      · exact ⟨.cons (.inr (by rw [hs]; rfl)) (.nil _), by simp [Ordinary]⟩
      · exact ⟨.nil _, nofun⟩
  | stop =>
    exact ⟨by simpa [setStates, Call.exec, TimeInterpolator.stop, pause_true_state] using hstop,
      by simp [setStates, Ordinary]⟩
  | resume => exact ⟨.nil _, nofun⟩
  | reset =>
    refine ⟨?_, by simp [setStates, Ordinary]⟩
    have h : (s.reset now).state = stopped := by
      have hp : (s.pause now true).state = stopped := pause_true_state s
      rw [TimeInterpolator.reset, TimeInterpolator.seek, if_pos (.inl hp)]
      exact hp
    simpa [setStates, Call.exec, h] using hstop
  | forciblyUpdateReadPointer rp => exact ⟨.nil _, nofun⟩

end Call

namespace TimeInterpolator

open State

/-- The `set_state` calls along a list of timed calls. -/
def stateTrace : TimeInterpolator → List (Int × Call) → List (State × Input)
  | _, [] => []
  | s, (now, call) :: cs => call.setStates s now ++ stateTrace (call.exec s now) cs

/-- Along every run the mode changes only along the chart's arrows, with no check logging and
never through `SEEK` or `ERR_OVERRUN`. -/
theorem run_walks_chart {ok : TimeInterpolator → Int → Call → Prop} {s s' : TimeInterpolator}
    {c c' : Int} {cs : List (Int × Call)} (h : Run ok s c cs s' c') :
    Walk s.state (stateTrace s cs) s'.state ∧ ∀ p ∈ stateTrace s cs, Ordinary p := by
  induction h with
  | nil => exact ⟨.nil _, nofun⟩
  | @cons s _ now call _ _ _ _ _ _ ih =>
    obtain ⟨hw, ho⟩ := call.walk s now
    refine ⟨hw.append ih.1, fun p hp => ?_⟩
    rcases List.mem_append.mp hp with hp | hp
    · exact ho p hp
    · exact ih.2 p hp

theorem run_walks_chart_construct :
    Walk (construct 0).state
        (stateTrace (construct 0) [(0, .postBuffer 20000), (10, .pause false), (20, .stop)])
        (Call.stop.exec ((Call.pause false).exec
          ((Call.postBuffer 20000).exec (construct 0) 0) 10) 20).state ∧
      ∀ p ∈ stateTrace (construct 0) [(0, .postBuffer 20000), (10, .pause false), (20, .stop)],
        Ordinary p := by
  have h : Run AnyCall (construct 0) 0 [(0, .postBuffer 20000), (10, .pause false), (20, .stop)]
      (Call.stop.exec ((Call.pause false).exec
        ((Call.postBuffer 20000).exec (construct 0) 0) 10) 20) 20 :=
    .cons le_rfl trivial (.cons (by decide) trivial (.cons (by decide) trivial (.nil _ _)))
  exact run_walks_chart h

end TimeInterpolator
end Android
