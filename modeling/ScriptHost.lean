import ScriptHost.Compiler.Directives
import ScriptHost.Console.Image
import ScriptHost.Engine.Echo
import ScriptHost.Inspector.Handle
import ScriptHost.Main
import ScriptHost.Schedule.Timeline
import ScriptHost.Service.Call
import ScriptHost.Service.Tasks
import ScriptHost.Settings.Json
import ScriptHost.Proofs.Cache.Soundness
import ScriptHost.Proofs.Cache.Transparency
import ScriptHost.Proofs.CommandLine.Grammar
import ScriptHost.Proofs.CommandLine.Quoting
import ScriptHost.Proofs.Engine.Dispatch
import ScriptHost.Proofs.Engine.Registry
import ScriptHost.Proofs.Environment
import ScriptHost.Proofs.Job.Flattening
import ScriptHost.Proofs.Resource.Spelling
import ScriptHost.Proofs.Storage.Refinement
import ScriptHost.Proofs.World.Simulation
import ScriptHost.Proofs.Environment.Precedence
import ScriptHost.Cache.Call
import ScriptHost.Proofs.Cache.Slots
import ScriptHost.Proofs.Cache.Bookkeeping
import ScriptHost.Proofs.Diagnostic.Printing
import ScriptHost.Proofs.Diagnostic.Reading
import ScriptHost.Proofs.Diagnostic.RoundTrip
import ScriptHost.Proofs.Diagnostic.Streams
import ScriptHost.Proofs.Cache.Concurrent
import ScriptHost.Proofs.Cache.Wiring
import ScriptHost.Proofs.Cache.SingleFlight
import ScriptHost.Proofs.Cache.Alone
import ScriptHost.Proofs.Compiler.Verdict
import ScriptHost.Proofs.Settings.Discovery
import ScriptHost.Proofs.Job.Termination
import ScriptHost.Schedule.Fleet
import ScriptHost.Proofs.Schedule.Shutdown
import ScriptHost.Proofs.Schedule.Timeline
import ScriptHost.Proofs.Schedule.Status
import ScriptHost.Proofs.Engine.Metrics
import ScriptHost.Proofs.Metrics.Counters
import ScriptHost.Proofs.Job.Journal
import ScriptHost.Proofs.Metrics.Executions
import ScriptHost.Proofs.Storage.Mirror
import ScriptHost.Proofs.Storage.WrittenForm
import ScriptHost.Storage.Session
import ScriptHost.Proofs.Files.Tree
import ScriptHost.Proofs.Storage.Reopening
import ScriptHost.Proofs.Calendar
import ScriptHost.Proofs.Storage.Contents
import ScriptHost.Proofs.Metrics.Retention
import ScriptHost.Engine.Call
import ScriptHost.Proofs.Engine.Namespace
import ScriptHost.Inspector.Course
import ScriptHost.Proofs.Cache.Leftovers
import ScriptHost.Proofs.Inspector.Publication
import ScriptHost.Proofs.Inspector.Watching
import ScriptHost.Inspector.Watching
import ScriptHost.Proofs.Text.Substitution
import ScriptHost.Proofs.Compiler.Rendering
import ScriptHost.Proofs.Compiler.WorkDirectories
import ScriptHost.Proofs.Resource.Fingerprints
import ScriptHost.Proofs.Files.Directories
import ScriptHost.Proofs.Files.Names
import ScriptHost.Proofs.Resource.Agreement
import ScriptHost.Proofs.Resource.Confinement
import ScriptHost.Proofs.Settings.Origins
import ScriptHost.Proofs.Toml.Integers
import ScriptHost.Proofs.Settings.Documents
import ScriptHost.Proofs.Runner.Ceiling
import ScriptHost.Proofs.Runner.Limits
import ScriptHost.Proofs.Diagnostic.Parts
import ScriptHost.Proofs.Diagnostic.Recognition
import ScriptHost.Proofs.Metrics.Totals
import ScriptHost.Proofs.CommandLine.Faults
import ScriptHost.Proofs.Repeats
import ScriptHost.Proofs.Engine.Selection
import ScriptHost.Schedule.Call
import ScriptHost.Proofs.Schedule.Registration
import ScriptHost.Proofs.Environment.Block
import ScriptHost.Proofs.Environment.Processes
