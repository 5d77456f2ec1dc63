import TestBench.Inspect
import TestBench.Main
import TestBench.Script.Meaning
import TestBench.Script.Turns
import TestBench.Proofs.Async.Spans
import TestBench.Proofs.Async.Paths
import TestBench.Proofs.World.Leaving
import TestBench.Proofs.World.Silence
import TestBench.Proofs.World.Returns
import TestBench.Proofs.World.Plays
import TestBench.Proofs.Hook
import TestBench.Proofs.Case.Course
import TestBench.Proofs.Case.Classification
import TestBench.Proofs.Summary
import TestBench.Proofs.Set.Course
import TestBench.Proofs.Set.Passage
import TestBench.Proofs.Set.Memory
import TestBench.Proofs.Set.Completeness
import TestBench.Proofs.Case.Isolation
import TestBench.Proofs.Set.Isolation
import TestBench.Proofs.Signal.Discipline
import TestBench.Proofs.Signal.History
import TestBench.Proofs.Signal.Turn
import TestBench.Proofs.Signal.Schedule
import TestBench.Proofs.Signal.CalleePanic
import TestBench.Proofs.Signal.FirstSignal
import TestBench.Proofs.Signal.Point
import TestBench.Proofs.Signal.Pace
import TestBench.Proofs.Signal.Record
import TestBench.Proofs.Signal.Alert
import TestBench.Proofs.Signal.Closure
import TestBench.Proofs.Signal.Owner
import TestBench.Proofs.Signal.Timing
import TestBench.Proofs.Signal.Scripts
import TestBench.Proofs.Signal.Retiming
import TestBench.Proofs.Signal.Twin
import TestBench.Proofs.Signal.Lockstep
import TestBench.Proofs.Signal.TwinSteps
import TestBench.Proofs.Signal.LongerTimeout
import TestBench.Proofs.Panic.Frames
import TestBench.Proofs.Panic.Scripts
import TestBench.Proofs.Panic.Containment
import TestBench.Proofs.Outcome.Dealing
import TestBench.Proofs.Outcome.Scripts
import TestBench.Proofs.Outcome.Books
import TestBench.Proofs.Outcome.Desk
import TestBench.Proofs.Outcome.Identity
import TestBench.Proofs.World.Sifting
import TestBench.Proofs.Set.Printing
import TestBench.Proofs.World.Halting
import TestBench.Proofs.Set.Lines
import TestBench.Proofs.Set.Steps
import TestBench.Proofs.SelfTest.Chores
import TestBench.Proofs.SelfTest.Waiting
import TestBench.Proofs.SelfTest.Ticker
import TestBench.Proofs.SelfTest.Suite
import TestBench.Proofs.SelfTest.Verdict
import TestBench.Proofs.SelfTest.Reruns
import TestBench.Proofs.Signal.Plan
import TestBench.Proofs.Signal.Lasting
import TestBench.Proofs.Signal.Fairness
import TestBench.Proofs.Signal.Detached
import TestBench.Proofs.Tally.Sentence
import TestBench.Proofs.Tally.Reading
import TestBench.Proofs.Outcome.Gathering
import TestBench.Proofs.Case.Cause
import TestBench.Proofs.Case.Raising
import TestBench.Proofs.Signal.Early
import TestBench.Proofs.Signal.Origin
import TestBench.Proofs.World.Played
import TestBench.Proofs.Case.Account
import TestBench.Proofs.Set.Account
import TestBench.Proofs.World.Nest
import TestBench.Proofs.Set.Nested
import TestBench.Proofs.Outcome.Rendering
import TestBench.Proofs.Outcome.Causes
import TestBench.Proofs.Set.Console
import TestBench.Proofs.Set.Aborts
