import RubySupervisor.Debugging.Configuration
import RubySupervisor.Explorer.Listing
import RubySupervisor.Host.Script
import RubySupervisor.Main
import RubySupervisor.Telemetry.Report
import RubySupervisor.Workspace.Report
import RubySupervisor.Workspace.Watch
import RubySupervisor.Proofs.Text.Writing
import RubySupervisor.Proofs.Text.Ordering
import RubySupervisor.Proofs.Text.Cutting
import RubySupervisor.Proofs.Json.Writing
import RubySupervisor.Proofs.Server.Framing
import RubySupervisor.Proofs.Server.Messages
import RubySupervisor.Proofs.Host.Trace
import RubySupervisor.Proofs.Host.Moments
import RubySupervisor.Proofs.Host.Interference
import RubySupervisor.Proofs.Transport.Settlement
import RubySupervisor.Proofs.Transport.Streams
import RubySupervisor.Proofs.Telemetry.Sampling
import RubySupervisor.Proofs.Session.Conduct
import RubySupervisor.Proofs.Session.Chronicle
import RubySupervisor.Proofs.Session.History
import RubySupervisor.Proofs.Session.Endurance
import RubySupervisor.Proofs.Session.Interleaving
import RubySupervisor.Proofs.Transport.Processes
import RubySupervisor.Proofs.Session.Custody
import RubySupervisor.Proofs.Session.Speech
import RubySupervisor.Proofs.Session.Display
import RubySupervisor.Proofs.Session.Launching
import RubySupervisor.Proofs.Workspace.Silence
import RubySupervisor.Proofs.Workspace.Custody
import RubySupervisor.Proofs.Workspace.Exclusion
import RubySupervisor.Proofs.Workspace.Stages
import RubySupervisor.Proofs.Workspace.Display
import RubySupervisor.Proofs.Workspace.Course
import RubySupervisor.Proofs.Workspace.StagedStart
import RubySupervisor.Proofs.Workspace.Constancy
import RubySupervisor.Proofs.Workspace.Renewal
import RubySupervisor.Proofs.Workspace.Operations
import RubySupervisor.Proofs.Workspace.Launches
import RubySupervisor.Proofs.Session.Answering
import RubySupervisor.Proofs.Ruby.Assembly
import RubySupervisor.Proofs.Ruby.InterpreterOptions
import RubySupervisor.Proofs.State.Memory
import RubySupervisor.Proofs.Ruby.Finding
import RubySupervisor.Proofs.Ruby.Remembering
import RubySupervisor.Proofs.Ruby.Searching
import RubySupervisor.Proofs.Ruby.Spelling
import RubySupervisor.Proofs.Ruby.ToolEntries
import RubySupervisor.Proofs.Ruby.Attempts
import RubySupervisor.Proofs.Workspace.Flags
import RubySupervisor.Proofs.Server.Kinds
import RubySupervisor.Proofs.Host.Stretch
import RubySupervisor.Proofs.Session.Introduction
import RubySupervisor.Proofs.Session.Asking
import RubySupervisor.Proofs.Session.Precedence
import RubySupervisor.Proofs.Explorer.Verdicts
import RubySupervisor.Proofs.Explorer.Showing
import RubySupervisor.Proofs.Explorer.Selection
import RubySupervisor.Proofs.Explorer.Scheduling
import RubySupervisor.Proofs.Explorer.Attribution
import RubySupervisor.Proofs.Explorer.Nesting
import RubySupervisor.Proofs.Explorer.Commands
import RubySupervisor.Proofs.Explorer.Reports
import RubySupervisor.Proofs.Files.Walking
import RubySupervisor.Proofs.Files.Naming
import RubySupervisor.Proofs.Files.Making
import RubySupervisor.Proofs.Files.Replacing
import RubySupervisor.Proofs.Files.Settling
import RubySupervisor.Proofs.Json.Rereading
import RubySupervisor.Proofs.State.Filing
import RubySupervisor.Proofs.State.Keeping
import RubySupervisor.Proofs.State.Failing
import RubySupervisor.Proofs.State.Apart
import RubySupervisor.Proofs.State.Racing
import RubySupervisor.Proofs.Files.Listing
import RubySupervisor.Proofs.Ruby.Numbering
import RubySupervisor.Proofs.Ruby.Installed
import RubySupervisor.Proofs.Explorer.Filters
import RubySupervisor.Proofs.Telemetry.Redaction
import RubySupervisor.Proofs.Ruby.Activations
import RubySupervisor.Proofs.Workspace.Updating
import RubySupervisor.Proofs.Workspace.Presence
import RubySupervisor.Proofs.Settings.Layering
import RubySupervisor.Proofs.Settings.Reactivation
import RubySupervisor.Proofs.Debugging.Listening
