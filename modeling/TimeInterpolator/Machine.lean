import TimeInterpolator.Ops

/-!
# TimeInterpolator — calls, runs and reachable states

A `Call` is one public operation; a run is a list of calls at non-decreasing clock readings, each
allowed by a predicate `ok`. `Reachable ok` is every state a run from the constructor reaches.
-/

namespace Android
namespace TimeInterpolator

open State

/-- Whether `post_buffer` calls `err_underrun`: from `ROLLING` or `PAUSED`, a post that is not
aggregated runs the feedback step, which underruns when `pos0` has reached `read`. -/
def PostUnderruns (s : TimeInterpolator) (now frameUsecs : Int) : Prop :=
  s.state ≠ stopped ∧ ¬ now - s.t0 < frameUsecs.tdiv 4 ∧
    ({ s with state := rolling }.settle now frameUsecs (s.state = paused)).read ≤
      ({ s with state := rolling }.settle now frameUsecs (s.state = paused)).pos0

/-- The underrun check of `post_buffer` does not read `m_last` or `m_now_last`. -/
theorem postUnderruns_with_last (s : TimeInterpolator) (x y now f : Int) :
    ({ s with last := x, nowLast := y } : TimeInterpolator).PostUnderruns now f ↔
      s.PostUnderruns now f := by
  simp only [PostUnderruns, settle_read, settle_pos0, feedback, pos1, positionError]

end TimeInterpolator

/-- The public operations of `TimeInterpolator.h` that a thread calls. -/
inductive Call
  | setLatency (latUsecs : Int)
  | seek (mediaTime : Int)
  | postBuffer (frameUsecs : Int)
  | getStreamUsecs
  | pause (flushingFifo : Bool)
  | stop
  | resume
  | reset
  | forciblyUpdateReadPointer (readPointer : Int)
  deriving DecidableEq, Repr

namespace Call

open TimeInterpolator State

/-- The state a call leaves, made at clock reading `now`. -/
def exec : Call → TimeInterpolator → Int → TimeInterpolator
  | setLatency l, s, _ => s.setLatency l
  | seek m, s, now => s.seek now m
  | postBuffer f, s, now => s.postBuffer now f
  | getStreamUsecs, s, now => (s.getStreamUsecs now).2
  | pause b, s, now => s.pause now b
  | stop, s, now => s.stop now
  | resume, s, now => s.resume now
  | reset, s, now => s.reset now
  | forciblyUpdateReadPointer rp, s, _ => s.forciblyUpdateReadPointer rp

/-- What a call returns: `get_stream_usecs` returns a time, the others nothing. -/
def output : Call → TimeInterpolator → Int → Option Int
  | getStreamUsecs, s, now => some (s.getStreamUsecs now).1
  | _, _, _ => none

/-- Whether the call runs `err_underrun`: the two tests of the source that call it. -/
def Underruns : Call → TimeInterpolator → Int → Prop
  | getStreamUsecs, s, now =>
      s.state ≠ paused ∧ s.readPointer ≤ s.projection now ∧ s.state = rolling
  | postBuffer f, s, now => s.PostUnderruns now f
  | _, _, _ => False

/-- The media a call posts. -/
def frames : Call → Int
  | postBuffer f => f
  | _ => 0

/-- The calls the interface documents: posts of non-negative media, `resume()` only while
paused. -/
def Legal : Call → TimeInterpolator → Prop
  | postBuffer f, _ => 0 ≤ f
  | resume, s => s.state = paused
  | _, _ => True

/-- The calls that write no media position of their own: no `seek`, `reset` or
`forcibly_update_read_pointer`. -/
def Unpinned : Call → Prop
  | seek _ | reset | forciblyUpdateReadPointer _ => False
  | _ => True

/-- The calls that neither re-pin the clock at a position of their own nor stop it: no
`seek`, `reset`, `stop()` or `pause(true)`. -/
def Steady : Call → Prop
  | seek _ | reset | stop | pause true => False
  | _ => True

/-- The calls that write only non-negative media positions: seek targets at or past zero, and
no `forcibly_update_read_pointer`. -/
def Forward : Call → Prop
  | seek m => 0 ≤ m
  | forciblyUpdateReadPointer _ => False
  | _ => True

theorem Unpinned.forward {call : Call} (h : call.Unpinned) : call.Forward := by
  cases call <;> simp_all [Unpinned, Forward]

end Call

namespace TimeInterpolator

open State

/-- `Run ok s c cs s' c'`: the timed calls `cs` lead from `s`, its clock last read at `c`, to `s'`
at `c'`, each at a reading no earlier than the one before and allowed by `ok`. -/
inductive Run (ok : TimeInterpolator → Int → Call → Prop) :
    TimeInterpolator → Int → List (Int × Call) → TimeInterpolator → Int → Prop
  | nil (s : TimeInterpolator) (c : Int) : Run ok s c [] s c
  | cons {s : TimeInterpolator} {c now : Int} {call : Call} {cs : List (Int × Call)}
      {s' : TimeInterpolator} {c' : Int} :
      c ≤ now → ok s now call → Run ok (call.exec s now) now cs s' c' →
      Run ok s c ((now, call) :: cs) s' c'

/-- Any call with any arguments. -/
def AnyCall (_ : TimeInterpolator) (_ : Int) (_ : Call) : Prop := True

/-- The calls the interface documents. -/
def LegalCall (s : TimeInterpolator) (_ : Int) (call : Call) : Prop := call.Legal s

/-- The states a run from the constructor reaches, with the clock's last reading. -/
def Reachable (ok : TimeInterpolator → Int → Call → Prop) (s : TimeInterpolator) (c : Int) :
    Prop :=
  ∃ c₀ cs, Run ok (construct c₀) c₀ cs s c

/-- The values `get_stream_usecs` returns along a list of timed calls. -/
def outputs : TimeInterpolator → List (Int × Call) → List Int
  | _, [] => []
  | s, (now, call) :: cs => (call.output s now).toList ++ outputs (call.exec s now) cs

/-- The media posted by a list of calls. -/
def posted (cs : List (Int × Call)) : Int := (cs.map fun p => p.2.frames).sum

@[simp] theorem posted_nil : posted [] = 0 := rfl

@[simp] theorem posted_cons (p : Int × Call) (cs : List (Int × Call)) :
    posted (p :: cs) = p.2.frames + posted cs := by
  simp [posted]

@[simp] theorem posted_append (cs₁ cs₂ : List (Int × Call)) :
    posted (cs₁ ++ cs₂) = posted cs₁ + posted cs₂ := by
  induction cs₁ with
  | nil => simp
  | cons p cs ih => simp [ih, add_assoc]

section Runs

variable {ok : TimeInterpolator → Int → Call → Prop}

/-- A property of the state and the clock that every allowed call keeps holds at the end of
every run. -/
theorem Run.invariant {I : TimeInterpolator → Int → Prop}
    (step : ∀ {s c now call}, I s c → c ≤ now → ok s now call → I (call.exec s now) now)
    {s s' : TimeInterpolator} {c c' : Int} {cs : List (Int × Call)}
    (h : Run ok s c cs s' c') (hI : I s c) : I s' c' := by
  induction h with
  | nil => exact hI
  | cons hc hok _ ih => exact ih (step hI hc hok)

/-- An invariant under which every call returns `v` holds along every run, and every value
returned along it is `v`. -/
theorem Run.outputs_eq {I : TimeInterpolator → Prop} {v : Int}
    (step : ∀ {s now call}, I s → ok s now call →
      I (call.exec s now) ∧ ∀ x ∈ call.output s now, x = v)
    {s s' : TimeInterpolator} {c c' : Int} {cs : List (Int × Call)}
    (h : Run ok s c cs s' c') (hI : I s) : I s' ∧ ∀ x ∈ outputs s cs, x = v := by
  induction h with
  | nil => exact ⟨hI, nofun⟩
  | cons _ hok _ ih =>
    obtain ⟨hI', hout⟩ := step hI hok
    obtain ⟨hend, hrest⟩ := ih hI'
    refine ⟨hend, fun x hx => ?_⟩
    simp only [outputs, List.mem_append, Option.mem_toList] at hx
    exact hx.elim (hout x) (hrest x)

/-- An invariant under which every allowed call also satisfies `P`: every run is a run of
calls allowed and satisfying `P`, and ends in the invariant. -/
theorem Run.strengthen {I : TimeInterpolator → Prop} {P : TimeInterpolator → Int → Call → Prop}
    (step : ∀ {s now call}, I s → ok s now call → P s now call ∧ I (call.exec s now))
    {s s' : TimeInterpolator} {c c' : Int} {cs : List (Int × Call)}
    (h : Run ok s c cs s' c') (hI : I s) :
    Run (fun s now call => ok s now call ∧ P s now call) s c cs s' c' ∧ I s' := by
  induction h with
  | nil => exact ⟨.nil _ _, hI⟩
  | cons hc hok _ ih =>
    obtain ⟨hP, hI'⟩ := step hI hok
    obtain ⟨hrun, hend⟩ := ih hI'
    exact ⟨.cons hc ⟨hok, hP⟩ hrun, hend⟩

/-- Two runs in a row are one run. -/
theorem Run.append {s₁ s₂ s₃ : TimeInterpolator} {c₁ c₂ c₃ : Int} {cs₁ cs₂ : List (Int × Call)}
    (h₁ : Run ok s₁ c₁ cs₁ s₂ c₂) (h₂ : Run ok s₂ c₂ cs₂ s₃ c₃) :
    Run ok s₁ c₁ (cs₁ ++ cs₂) s₃ c₃ := by
  induction h₁ with
  | nil => exact h₂
  | cons hc h _ ih => exact .cons hc h (ih h₂)

/-- A reachable state followed by a run is reachable. -/
theorem Reachable.run {s s' : TimeInterpolator} {c c' : Int} {cs : List (Int × Call)}
    (hr : Reachable ok s c) (h : Run ok s c cs s' c') : Reachable ok s' c' :=
  let ⟨c₀, cs₀, h₀⟩ := hr
  ⟨c₀, cs₀ ++ cs, h₀.append h⟩

/-- An invariant that holds of the constructed state and that every allowed call keeps holds
of every reachable state. -/
theorem Reachable.invariant {I : TimeInterpolator → Int → Prop}
    (init : ∀ c, I (construct c) c)
    (step : ∀ {s c now call}, I s c → c ≤ now → ok s now call → I (call.exec s now) now)
    {s : TimeInterpolator} {c : Int} (hr : Reachable ok s c) : I s c :=
  let ⟨c₀, _, h⟩ := hr
  h.invariant step (init c₀)

/-! ## Runs along `CLOCK_MONOTONIC` -/

/-- `get_system_usecs` never goes back along `CLOCK_MONOTONIC`. -/
theorem getSystemUsecs_mono {a b : Timespec} (h : a.Le b) :
    getSystemUsecs a ≤ getSystemUsecs b := by
  have := a.tvNsec_lt
  have := b.tvNsec_nonneg
  unfold getSystemUsecs
  rw [Int.tdiv_eq_ediv a.tvNsec_nonneg (by decide), Int.tdiv_eq_ediv b.tvNsec_nonneg (by decide)]
  rcases h with h | ⟨h, h'⟩ <;> omega

/-- Calls in the order they take the mutex, each at the `CLOCK_MONOTONIC` reading it takes in its
critical section: their `get_system_usecs` readings never go back, so they make a run. -/
theorem run_of_timespecs : ∀ (s : TimeInterpolator) (tv : Timespec) (ts : List (Timespec × Call)),
    List.Chain Timespec.Le tv (ts.map Prod.fst) →
      ∃ s' c', Run AnyCall s (getSystemUsecs tv) (ts.map fun x => (getSystemUsecs x.1, x.2)) s' c'
  | s, _, [], _ => ⟨s, _, .nil _ _⟩
  | s, _, (tv', call) :: ts, h => by
    rw [List.map_cons, List.chain_cons] at h
    obtain ⟨s', c', hrun⟩ := run_of_timespecs (call.exec s (getSystemUsecs tv')) tv' ts h.2
    exact ⟨s', c', .cons (getSystemUsecs_mono h.1) trivial hrun⟩

/-- A read one nanosecond after the constructor, across a second boundary. -/
theorem run_of_timespecs_second :
    List.Chain Timespec.Le ⟨0, 999999999, by decide, by decide⟩
        ([(⟨1, 0, by decide, by decide⟩, Call.getStreamUsecs)].map Prod.fst) ∧
      ∃ s' c', Run AnyCall (construct 999999) (getSystemUsecs ⟨0, 999999999, by decide, by decide⟩)
        ([((⟨1, 0, by decide, by decide⟩ : Timespec), Call.getStreamUsecs)].map
          fun x => (getSystemUsecs x.1, x.2)) s' c' :=
  have h : List.Chain Timespec.Le ⟨0, 999999999, by decide, by decide⟩
      ([(⟨1, 0, by decide, by decide⟩, Call.getStreamUsecs)].map Prod.fst) :=
    .cons (Or.inl (by decide)) .nil
  ⟨h, run_of_timespecs _ _ _ h⟩

end Runs

end TimeInterpolator
end Android
