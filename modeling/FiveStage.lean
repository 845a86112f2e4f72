import FiveStage.Main
import FiveStage.Command.Batch
import FiveStage.Command.Check
import FiveStage.Command.Directory
import FiveStage.Command.Menu
import FiveStage.Command.Prompt
import FiveStage.Simulator.Action
import FiveStage.Proofs.Cycle
import FiveStage.Proofs.History
import FiveStage.Proofs.Completion
import FiveStage.Proofs.Conservation
import FiveStage.Proofs.Accounting
import FiveStage.Proofs.Schedule.Basic
import FiveStage.Proofs.Schedule.Pipeline
import FiveStage.Proofs.Schedule.HazardLog
import FiveStage.Proofs.Schedule.Length
import FiveStage.Proofs.Schedule.Staircase
import FiveStage.Proofs.Schedule.Forwarding
import FiveStage.Proofs.Lockstep
import FiveStage.Proofs.Status
import FiveStage.Proofs.Ticks.Exchange
import FiveStage.Proofs.Ticks.Handles
import FiveStage.Proofs.Ticks.Pending
import FiveStage.Proofs.Ticks.Timers
import FiveStage.Proofs.Ticks.Deliveries
import FiveStage.Proofs.Ticks.Queue
import FiveStage.Proofs.Ticks.AutomaticRun
import FiveStage.Proofs.Ticks.Leftover
import FiveStage.Proofs.Stalling
import FiveStage.Proofs.Restart
import FiveStage.Proofs.Loading
import FiveStage.Proofs.Reading.Lines
import FiveStage.Proofs.Reading.Fields
import FiveStage.Proofs.Reading.Operand
import FiveStage.Proofs.Reading.Statement
import FiveStage.Proofs.Reading.Printing
import FiveStage.Proofs.Reading.Rereading
import FiveStage.Proofs.Reading.Listing
import FiveStage.Proofs.Refusals
import FiveStage.Proofs.Observers
import FiveStage.Proofs.Dependences
import FiveStage.Proofs.Detection
import FiveStage.Proofs.Reading.Acceptance
import FiveStage.Proofs.Sessions.Calls
import FiveStage.Proofs.Sessions.Batch
import FiveStage.Proofs.Sessions.Menu
import FiveStage.Proofs.Sessions.Limits
import FiveStage.Proofs.Freezing
import FiveStage.Proofs.Reading.Numeral
import FiveStage.Proofs.Reading.Cleaning
import FiveStage.Proofs.Reading.Extras
import FiveStage.Proofs.Reading.Answers
import FiveStage.Proofs.Reading.Addresses
import FiveStage.Proofs.Reading.Layout
import FiveStage.Proofs.Reading.Sources
import FiveStage.Proofs.Grid
