import ScanCatalog.Document.ScriptedClient
import ScanCatalog.Main
import ScanCatalog.Motor.ScriptedDriver
import ScanCatalog.Stated
import ScanCatalog.Proofs.Action.Accounted
import ScanCatalog.Proofs.Action.Batch
import ScanCatalog.Proofs.Action.Leads
import ScanCatalog.Proofs.Action.Outcome
import ScanCatalog.Proofs.Binary64.Equality
import ScanCatalog.Proofs.Binary64.Integers
import ScanCatalog.Proofs.Binary64.Overflow
import ScanCatalog.Proofs.Json.Atoms
import ScanCatalog.Proofs.Json.Read
import ScanCatalog.Proofs.Json.Numerals
import ScanCatalog.Proofs.Json.Strings
import ScanCatalog.Proofs.Json.Written
import ScanCatalog.Proofs.Value.Entries
import ScanCatalog.Proofs.Value.Numbers
import ScanCatalog.Proofs.Value.Sorting
import ScanCatalog.Proofs.Value.Updates
import ScanCatalog.Proofs.Filter.Drafts
import ScanCatalog.Proofs.Filter.AnyOrder
import ScanCatalog.Proofs.Filter.Parts
import ScanCatalog.Proofs.Filter.Grammar
import ScanCatalog.Proofs.Routing.Owners
import ScanCatalog.Proofs.Motor.Connection
import ScanCatalog.Proofs.Motor.Reachable
import ScanCatalog.Proofs.Motor.Checked
import ScanCatalog.Proofs.Motor.Failures
import ScanCatalog.Proofs.Motor.Holdings
import ScanCatalog.Proofs.Motor.Transactions
import ScanCatalog.Proofs.Motor.Grouping
import ScanCatalog.Proofs.Motor.Compiled
import ScanCatalog.Proofs.Motor.Satisfaction
import ScanCatalog.Proofs.Motor.Sessions
import ScanCatalog.Proofs.Motor.Lookup
import ScanCatalog.Proofs.Motor.History
import ScanCatalog.Proofs.Motor.Evaluation
import ScanCatalog.Proofs.Motor.Operators
import ScanCatalog.Proofs.Motor.AnyOrder
import ScanCatalog.Proofs.Motor.Conjunction
import ScanCatalog.Proofs.Motor.Consistent
import ScanCatalog.Proofs.Motor.Statements
import ScanCatalog.Proofs.Motor.OpenTransactions
import ScanCatalog.Proofs.Motor.Connecting
import ScanCatalog.Proofs.Motor.Dotted
import ScanCatalog.Proofs.Motor.DriverErrors
import ScanCatalog.Proofs.Document.Change
import ScanCatalog.Proofs.Document.Find
import ScanCatalog.Proofs.Document.Faults
import ScanCatalog.Proofs.Document.ClientErrors
import ScanCatalog.Proofs.Motor.Faults
import ScanCatalog.Proofs.Motor.Refusals
import ScanCatalog.Proofs.Motor.Reopened
import ScanCatalog.Proofs.Motor.Used
import ScanCatalog.Proofs.Motor.Changes
import ScanCatalog.Proofs.Record.Ascending
import ScanCatalog.Proofs.Record.Faults
import ScanCatalog.Proofs.Record.Body
import ScanCatalog.Proofs.Record.Permitted
import ScanCatalog.Proofs.Record.Reflexive
import ScanCatalog.Proofs.Record.SidClock
import ScanCatalog.Proofs.Record.Validated
import ScanCatalog.Proofs.Catalog.Join
import ScanCatalog.Proofs.Catalog.Search
import ScanCatalog.Proofs.Catalog.Paired
import ScanCatalog.Proofs.Catalog.BySid
import ScanCatalog.Proofs.Catalog.Merged
import ScanCatalog.Proofs.Catalog.Edited
import ScanCatalog.Proofs.Catalog.Reached
import ScanCatalog.Proofs.Catalog.Additions
import ScanCatalog.Proofs.Catalog.Named
import ScanCatalog.Proofs.Catalog.Counted
import ScanCatalog.Proofs.Catalog.Keyed
import ScanCatalog.Proofs.Catalog.Found
import ScanCatalog.Proofs.Catalog.RecordFaults
import ScanCatalog.Proofs.Catalog.Paged
import ScanCatalog.Proofs.Catalog.Dotted
import ScanCatalog.Proofs.Catalog.Valid
import ScanCatalog.Proofs.Catalog.Overridden
import ScanCatalog.Proofs.Catalog.Independent
import ScanCatalog.Proofs.Catalog.Reported
import ScanCatalog.Proofs.Catalog.QueryFaults
import ScanCatalog.Proofs.Catalog.Served
import ScanCatalog.Proofs.CommandLine.Search
import ScanCatalog.Proofs.Routing.Divided
import ScanCatalog.Proofs.Routing.Assignments
import ScanCatalog.Proofs.Files.Loaded
import ScanCatalog.Proofs.Record.Completed
import ScanCatalog.Proofs.Record.Resubmitted
import ScanCatalog.Proofs.Record.Finite
import ScanCatalog.Proofs.Catalog.Forced
