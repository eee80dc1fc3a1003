import Dispatch.Text.Basic
import Dispatch.Text.Numeral
import Dispatch.Json.Printer
import Dispatch.Json.Reader
import Dispatch.Instant.Rfc3339
import Dispatch.Digest.Blake3
import Dispatch.Identifier.Template
import Dispatch.Directory.AuthSystem
import Dispatch.Session.Record
import Dispatch.Job.Record
import Dispatch.Shell.Target
import Dispatch.Batch.Report
import Dispatch.Batch.Queue
import Dispatch.Backend.Script
import Dispatch.Cloud.Handle
import Dispatch.Cloud.Description
import Dispatch.Cloud.Progress
import Dispatch.Cloud.Reply
import Dispatch.Server.Config
import Dispatch.Plan
import Dispatch.Session.Login
import Dispatch.Session.Closing
import Dispatch.Directory.Registry
import Dispatch.Batch.Frontend
import Dispatch.Cloud.Fleet
import Dispatch.Backend.Place
import Dispatch.Job.Submission
import Dispatch.Job.Retrieval
import Dispatch.Server.Background
import Dispatch.Rehearsal.Fixture
import Dispatch.Cloud.Exchange
import Dispatch.Shell.Address
import Dispatch.Shell.Obstacle
import Dispatch.Failure.Record
import Dispatch.Store.Record
import Dispatch.Rehearsal.Transcript
import Dispatch.Rehearsal.Transfer
import Dispatch.Rehearsal.Server
import Dispatch.Proofs.Shell.CommandLines
import Dispatch.Proofs.Job.Stops
import Dispatch.Proofs.Job.Lifecycle
import Dispatch.Proofs.Session.Standing
import Dispatch.Proofs.Plan.Record
import Dispatch.Proofs.Session.Refusal
import Dispatch.Proofs.Cloud.Calls
import Dispatch.Proofs.Cloud.Submission
import Dispatch.Proofs.Job.Docket
import Dispatch.Proofs.Job.Releases
import Dispatch.Proofs.Session.Life
import Dispatch.Proofs.Session.Lifecycle
import Dispatch.Proofs.Store.Transactions
import Dispatch.Proofs.Identifier.Sharing
import Dispatch.Proofs.Session.Isolation
import Dispatch.Proofs.Script.Preservation
import Dispatch.Proofs.Cloud.Handover
import Dispatch.Proofs.Job.Reach
import Dispatch.Proofs.Session.Refresh
import Dispatch.Proofs.Directory.Lifecycle
import Dispatch.Proofs.Session.Connection
import Dispatch.Proofs.Backend.Delivery
import Dispatch.Proofs.Job.Submission
import Dispatch.Proofs.Session.Sweep
import Dispatch.Proofs.Job.Staging
import Dispatch.Proofs.Job.Retrieval
import Dispatch.Proofs.Job.Files
import Dispatch.Proofs.Store.Entries
import Dispatch.Proofs.Job.Paths
import Dispatch.Proofs.Session.Recording
import Dispatch.Proofs.Session.Outcomes
import Dispatch.Proofs.Batch.Status
import Dispatch.Proofs.Plan.Amid
import Dispatch.Proofs.Session.Company
import Dispatch.Proofs.Job.Retries
import Dispatch.Proofs.Session.Closing
import Dispatch.Proofs.Session.Completion
import Dispatch.Proofs.Batch.Demands
import Dispatch.Proofs.Cloud.Description
import Dispatch.Proofs.Directory.Changes
import Dispatch.Proofs.Session.Return
import Dispatch.Proofs.Batch.Receipts
import Dispatch.Proofs.Script.Mentions
import Dispatch.Proofs.Identifier.Rendering
import Dispatch.Proofs.Job.Monitor
import Dispatch.Proofs.Server.Config
