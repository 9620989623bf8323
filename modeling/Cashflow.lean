import Cashflow.Amount
import Cashflow.Keyed
import Cashflow.Text.Quoted
import Cashflow.Decimal.Layout
import Cashflow.Decimal.Rounding
import Cashflow.Calendar.Key
import Cashflow.Calendar.Civil
import Cashflow.Calendar.Iso
import Cashflow.Document.Access
import Cashflow.Scenario.Build
import Cashflow.Scenario.Wire
import Cashflow.Scenario.Describe
import Cashflow.Document.Json.Reader
import Cashflow.Document.Json.Writer
import Cashflow.Simulation.Run
import Cashflow.Document.File
import Cashflow.Review.Lint
import Cashflow.Review.Audit
import Cashflow.Report.Kpi
import Cashflow.Report.Export
import Cashflow.Report.Table
import Cashflow.Report.Overview
import Cashflow.Command.Perform
import Cashflow.Main
import Cashflow.Proofs.Simulation.Schedule
import Cashflow.Proofs.Ledger.Solvency
import Cashflow.Proofs.Document.Reading
import Cashflow.Proofs.Document.Contract
import Cashflow.Proofs.Document.Written
import Cashflow.Proofs.Calendar.DateText
import Cashflow.Proofs.Document.Defaults
import Cashflow.Proofs.Document.Agreement
import Cashflow.Proofs.Simulation.Separation
import Cashflow.Proofs.Simulation.Superposition
import Cashflow.Proofs.Simulation.Reordering
import Cashflow.Proofs.Simulation.Idle
import Cashflow.Proofs.Simulation.Causality
import Cashflow.Proofs.Simulation.InStep
import Cashflow.Proofs.Paired
import Cashflow.Proofs.Review.DeadEvents
import Cashflow.Proofs.Review.ForwardReference
import Cashflow.Proofs.Ledger.Currency
import Cashflow.Proofs.Calendar.Years
import Cashflow.Proofs.Simulation.YearShift
import Cashflow.Proofs.Simulation.MonthResolution
import Cashflow.Proofs.Simulation.Recurrences
import Cashflow.Proofs.Ledger.HeadStart
import Cashflow.Proofs.Scenario.Codec
import Cashflow.Proofs.Simulation.Wiring
import Cashflow.Proofs.Simulation.Anniversary
import Cashflow.Proofs.Report.Blocks
import Cashflow.Proofs.Report.KeyPlace
import Cashflow.Proofs.Report.Totals
import Cashflow.Proofs.Report.Rows
import Cashflow.Proofs.Report.Frequencies
import Cashflow.Proofs.Document.LoadedDates
import Cashflow.Proofs.Document.Shorthands
import Cashflow.Proofs.Document.EventByEvent
import Cashflow.Proofs.Review.Auditing
import Cashflow.Proofs.Report.Nesting
import Cashflow.Proofs.Review.Reasons
import Cashflow.Proofs.Calendar.Decembers
import Cashflow.Proofs.Report.Statements
import Cashflow.Proofs.Report.YearEnds
import Cashflow.Proofs.Simulation.ConditionOrder
import Cashflow.Proofs.Simulation.MonthLoop
import Cashflow.Proofs.Report.Extremes
import Cashflow.Proofs.Command.Window
import Cashflow.Proofs.Calendar.Decoding
