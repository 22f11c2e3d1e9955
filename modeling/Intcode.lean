import Intcode.Memory.Diff
import Intcode.Memory.Dump
import Intcode.Instruction.Listing
import Intcode.Source
import Intcode.NounVerb
import Intcode.Amplifier.Tuning
import Intcode.Console
import Intcode.Console.Script
import Intcode.Console.Loopback
import Intcode.Log
import Intcode.Text.Utf8
import Intcode.Main
import Intcode.Proofs.Machine.Execution
import Intcode.Proofs.Instruction.Digits
import Intcode.Proofs.Width.Range
import Intcode.Proofs.Machine.Reference
import Intcode.Proofs.Lockstep
import Intcode.Proofs.Machine.Lockstep
import Intcode.Proofs.Machine.Run
import Intcode.Proofs.Machine.Supply
import Intcode.Proofs.Machine.Hazard
import Intcode.Proofs.Machine.Stop
import Intcode.Proofs.Program.Schedule
import Intcode.Proofs.Amplifier.Network
import Intcode.Proofs.Machine.Confinement
import Intcode.Proofs.Machine.Widening
import Intcode.Proofs.Machine.Overflow
import Intcode.Proofs.Program.Widening
import Intcode.Proofs.Machine.Padding
import Intcode.Proofs.Program.Padding
import Intcode.Proofs.Amplifier.Padding
import Intcode.Proofs.Machine.Abort
import Intcode.Proofs.Program.Use
import Intcode.Proofs.Program.Blame
import Intcode.Proofs.Program.Lifetime
import Intcode.Proofs.Machine.Effect
import Intcode.Proofs.Machine.Trail
import Intcode.Proofs.Program.History
import Intcode.Proofs.Machine.Intake
import Intcode.Proofs.Program.Intake
import Intcode.Proofs.Machine.Operation
import Intcode.Proofs.Machine.Overlook
import Intcode.Proofs.Machine.Tracing
import Intcode.Proofs.Machine.Writing
import Intcode.Proofs.Memory.Patch
import Intcode.Proofs.Machine.Watching
import Intcode.Proofs.Amplifier.Breakdown
import Intcode.Proofs.Amplifier.Standstill
import Intcode.Proofs.Console.Exchange
import Intcode.Proofs.Text.Numeral
import Intcode.Proofs.Console.Account
import Intcode.Proofs.Console.Script
import Intcode.Proofs.Console.Service
import Intcode.Proofs.Console.Retry
import Intcode.Proofs.Amplifier.Rounds
import Intcode.Proofs.Console.Fifo
import Intcode.Proofs.Console.Loopback
import Intcode.Proofs.Amplifier.Confinement
import Intcode.Proofs.Amplifier.FirstRound
import Intcode.Proofs.Program.Sameness
import Intcode.Proofs.Amplifier.LastSignal
import Intcode.Proofs.CommandLine.Arguments
import Intcode.Proofs.CommandLine.Conversation
import Intcode.Proofs.CommandLine.Directory
import Intcode.Proofs.CommandLine.Run
import Intcode.Proofs.CommandLine.Interactive
import Intcode.Proofs.CommandLine.Observers
import Intcode.Proofs.Console.Pursuit
import Intcode.Proofs.Console.Refusal
import Intcode.Proofs.Instruction.Encoding
import Intcode.Proofs.Console.Cut
import Intcode.Proofs.Failing
import Intcode.Proofs.Program.Failing
import Intcode.Proofs.Amplifier.Failing
import Intcode.Proofs.Console.Failing
import Intcode.Proofs.CommandLine.Hollow
import Intcode.Proofs.CommandLine.Trouble
import Intcode.Proofs.CommandLine.Exit
import Intcode.Proofs.Text.Joining
import Intcode.Proofs.Text.Literal
import Intcode.Proofs.Source.Fields
import Intcode.Proofs.Source.Format
import Intcode.Proofs.Amplifier.Draining
import Intcode.Proofs.Program.Ending
import Intcode.Proofs.Program.Search
import Intcode.Proofs.Amplifier.Tuning
import Intcode.Proofs.Memory.History
import Intcode.Proofs.Instruction.Rendering
import Intcode.Proofs.Instruction.Listing
import Intcode.Proofs.Program.Handover
import Intcode.Proofs.Machine.Addressing
import Intcode.Proofs.Machine.Difference
import Intcode.Proofs.Memory.Dump
import Intcode.Proofs.CommandLine.Answers
import Intcode.Proofs.CommandLine.Reproduction
