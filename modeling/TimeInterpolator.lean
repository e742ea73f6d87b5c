import TimeInterpolator.Basic
import TimeInterpolator.Ops
import TimeInterpolator.Machine
import TimeInterpolator.Invariants
import TimeInterpolator.Envelope
import TimeInterpolator.Conservation
import TimeInterpolator.Monotone
import TimeInterpolator.Underrun
import TimeInterpolator.Concurrency
import TimeInterpolator.Seek
import TimeInterpolator.Recurrence
import TimeInterpolator.Cadence
import TimeInterpolator.Pause
import TimeInterpolator.Readers
import TimeInterpolator.Chart
import TimeInterpolator.Sink
import TimeInterpolator.Jitter
