import DurableCalc.CommandLine.Machine
import DurableCalc.Main
import DurableCalc.Proofs.Cutoff
import DurableCalc.Proofs.Excuse
import DurableCalc.Proofs.Execution
import DurableCalc.Proofs.Patience
import DurableCalc.Proofs.Proper
import DurableCalc.Proofs.Resume
import DurableCalc.Proofs.Silence
import DurableCalc.Proofs.Told
import DurableCalc.Proofs.Wire
import DurableCalc.Replay.Console
import DurableCalc.Simulation.Client
import DurableCalc.Simulation.Lifetimes
import DurableCalc.Proofs.Task
import DurableCalc.Proofs.Course
import DurableCalc.Proofs.Outcome
import DurableCalc.Proofs.Integrity
import DurableCalc.Proofs.Smooth
import DurableCalc.Proofs.Ending
import DurableCalc.Proofs.Series
import DurableCalc.Proofs.Survival
import DurableCalc.Proofs.Delivery
import DurableCalc.Proofs.Orbit
import DurableCalc.Calculator
import DurableCalc.Proofs.Calm
import DurableCalc.Proofs.Reference
import DurableCalc.Proofs.Client
import DurableCalc.Proofs.Transparency
import DurableCalc.Proofs.Ledger
import DurableCalc.Proofs.Coherence
import DurableCalc.Proofs.Acceptance
import DurableCalc.Sitting
import DurableCalc.Proofs.Takeover
import DurableCalc.Proofs.Rewriting
import DurableCalc.Proofs.Succession
import DurableCalc.Proofs.Exactness
import DurableCalc.Proofs.Period
import DurableCalc.Session.Minutes
import DurableCalc.Proofs.Progress
import DurableCalc.Replay.Stack
import DurableCalc.Proofs.Stack
import DurableCalc.Device.Requests
import DurableCalc.Proofs.Paths
import DurableCalc.Proofs.Places
import DurableCalc.Proofs.Directories
import DurableCalc.Proofs.FileReading
import DurableCalc.Proofs.FileWriting
import DurableCalc.Proofs.FileCell
import DurableCalc.Proofs.Seams
import DurableCalc.Proofs.Numerals
