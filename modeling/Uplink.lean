import Uplink.Main
import Uplink.Post.Exchange
import Uplink.Proofs.Ring.Bounded
import Uplink.Proofs.Session.Move
import Uplink.Proofs.Session.Work
import Uplink.Session.Operation
import Uplink.Proofs.Session.Hands
import Uplink.Proofs.Session.Invariant
import Uplink.Proofs.Kpi.Changes
import Uplink.Proofs.Kpi.Conservation
import Uplink.Proofs.Dispatch.Ledger
import Uplink.Proofs.Dispatch.Order
import Uplink.Proofs.Dispatch.Accounting
import Uplink.Proofs.Service.Chronicle
import Uplink.Proofs.Service.History
import Uplink.Proofs.Kpi.Line
import Uplink.Proofs.Kpi.Waiting
import Uplink.Proofs.Kpi.Apart
import Uplink.Proofs.Kpi.Flushers
import Uplink.Proofs.Kpi.Exclusion
import Uplink.Proofs.Kpi.Stamps
import Uplink.Proofs.Kpi.Settlement
import Uplink.Proofs.Kpi.Schedule
import Uplink.Proofs.Kpi.Punctual
import Uplink.Proofs.Json.Numerals
import Uplink.Proofs.Json.Quoted
import Uplink.Proofs.Json.Tokens
import Uplink.Proofs.Json.Outlines
import Uplink.Proofs.Json.Nesting
import Uplink.Proofs.Json.Valid
import Uplink.Proofs.Record.Bodies
import Uplink.Proofs.Record.Rows
import Uplink.Proofs.Record.RoundTrip
import Uplink.Proofs.Record.Grammar
import Uplink.Proofs.Record.Acceptance
import Uplink.Proofs.Record.Sources
import Uplink.Proofs.Record.Forwarding
import Uplink.Proofs.Session.Turns
import Uplink.Proofs.Session.Load
import Uplink.Proofs.Session.Settling
import Uplink.Proofs.Session.Course
import Uplink.Proofs.Session.Postings
import Uplink.Proofs.Dispatch.Attendance
import Uplink.Proofs.Session.Labor
import Uplink.Proofs.Dispatch.InFlight
import Uplink.Proofs.Dispatch.Endings
import Uplink.Proofs.Service.Front
import Uplink.Proofs.Session.Patience
import Uplink.Proofs.Session.Delivering
import Uplink.Proofs.Dispatch.Room
import Uplink.Proofs.Dispatch.Failures
import Uplink.Proofs.Service.Isolation
import Uplink.Proofs.Kpi.Account
import Uplink.Proofs.Kpi.Told
import Uplink.Proofs.Session.Trace
import Uplink.Proofs.Kpi.Archive
import Uplink.Proofs.Kpi.Acknowledged
import Uplink.Proofs.Double.Rounding
import Uplink.Proofs.Kpi.Thousandths
import Uplink.Proofs.Kpi.Deeds
import Uplink.Proofs.Kpi.Unsent
import Uplink.Proofs.Dispatch.Staff
import Uplink.Proofs.Dispatch.Initialization
import Uplink.Proofs.Session.Likeness
import Uplink.Proofs.Session.Alike
import Uplink.Proofs.Session.Ignored
import Uplink.Proofs.Ring.Occupancy
import Uplink.Proofs.Text.Trimming
import Uplink.Proofs.Text.Casing
import Uplink.Proofs.Agent.Endpoints
import Uplink.Proofs.Agent.Variables
import Uplink.Proofs.Service.Numbering
import Uplink.Proofs.Demo.Records
import Uplink.Proofs.Demo.Trail
import Uplink.Proofs.Demo.Course
import Uplink.Proofs.Demo.Reckoning
