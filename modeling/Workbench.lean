import Workbench.Address.Basic
import Workbench.Address.Reader
import Workbench.Bundle.Output
import Workbench.Bundle.Run
import Workbench.Bundle.Source
import Workbench.Calendar
import Workbench.Config.Basic
import Workbench.Config.Store
import Workbench.Console.Arguments
import Workbench.Console.Echo
import Workbench.Console.Run
import Workbench.Console.Screen
import Workbench.Disk.Atomic
import Workbench.Disk.Basic
import Workbench.Disk.Change
import Workbench.Disk.Copy
import Workbench.Disk.Edit
import Workbench.Disk.Fault
import Workbench.Disk.Outline
import Workbench.Disk.Trace
import Workbench.Disk.Walk
import Workbench.Editor.Basic
import Workbench.Editor.Operation
import Workbench.Error
import Workbench.Host.Basic
import Workbench.Host.Image
import Workbench.Host.Shell.Basic
import Workbench.Host.Shell.Format
import Workbench.Host.Shell.Reader
import Workbench.Host.Shell.Step
import Workbench.Host.Shell.Sum
import Workbench.Host.Shell.Utility
import Workbench.Json.Basic
import Workbench.Json.Printer
import Workbench.Json.Reader
import Workbench.Log.Basic
import Workbench.Log.Filter
import Workbench.Main
import Workbench.Path.Basic
import Workbench.Pattern.Basic
import Workbench.Pattern.Rewrite
import Workbench.Pattern.Search
import Workbench.Program.Basic
import Workbench.Project.Basic
import Workbench.Project.BuildRecord
import Workbench.Project.Registry
import Workbench.Project.Starter
import Workbench.Proofs.Address.Reader
import Workbench.Proofs.Bundle.Confinement
import Workbench.Proofs.Bundle.Discovery
import Workbench.Proofs.Bundle.Document
import Workbench.Proofs.Bundle.Frame
import Workbench.Proofs.Bundle.Order
import Workbench.Proofs.Bundle.Output
import Workbench.Proofs.Bundle.References
import Workbench.Proofs.Bundle.Sources
import Workbench.Proofs.Bundle.Success
import Workbench.Proofs.Config.Document
import Workbench.Proofs.Config.Store
import Workbench.Proofs.Console.Call
import Workbench.Proofs.Console.Echo
import Workbench.Proofs.Console.Watch
import Workbench.Proofs.Disk.Aim
import Workbench.Proofs.Disk.Atomicity
import Workbench.Proofs.Disk.Canonical
import Workbench.Proofs.Disk.Copy
import Workbench.Proofs.Disk.Creation
import Workbench.Proofs.Disk.Forest
import Workbench.Proofs.Disk.Formed
import Workbench.Proofs.Disk.Leftover
import Workbench.Proofs.Disk.Likeness
import Workbench.Proofs.Disk.Listing
import Workbench.Proofs.Disk.Move
import Workbench.Proofs.Disk.Order
import Workbench.Proofs.Disk.Outline
import Workbench.Proofs.Disk.Overlay
import Workbench.Proofs.Disk.Place
import Workbench.Proofs.Disk.Replace
import Workbench.Proofs.Disk.Spot
import Workbench.Proofs.Disk.Stock
import Workbench.Proofs.Disk.Swap
import Workbench.Proofs.Disk.Task
import Workbench.Proofs.Disk.Trace
import Workbench.Proofs.Disk.Write
import Workbench.Proofs.Editor.Act
import Workbench.Proofs.Editor.Admission
import Workbench.Proofs.Editor.Answer
import Workbench.Proofs.Editor.Buffer
import Workbench.Proofs.Editor.Containment
import Workbench.Proofs.Editor.Deletion
import Workbench.Proofs.Editor.Outline
import Workbench.Proofs.Editor.Run
import Workbench.Proofs.Editor.Sight
import Workbench.Proofs.Json.Scalar
import Workbench.Proofs.Json.Value
import Workbench.Proofs.Log.Account
import Workbench.Proofs.Log.Broadcast
import Workbench.Proofs.Log.Order
import Workbench.Proofs.Path.Child
import Workbench.Proofs.Path.Descent
import Workbench.Proofs.Path.Location
import Workbench.Proofs.Path.Relative
import Workbench.Proofs.Path.Sibling
import Workbench.Proofs.Pattern.Choice
import Workbench.Proofs.Pattern.Cut
import Workbench.Proofs.Pattern.Front
import Workbench.Proofs.Program.Lines
import Workbench.Proofs.Program.Streaming
import Workbench.Proofs.Project.Calls
import Workbench.Proofs.Project.Confinement
import Workbench.Proofs.Project.Distinct
import Workbench.Proofs.Project.FirstBuild
import Workbench.Proofs.Project.Naming
import Workbench.Proofs.Project.Persistence
import Workbench.Proofs.Project.Reading
import Workbench.Proofs.Project.Registry
import Workbench.Proofs.Project.Scaffold
import Workbench.Proofs.Project.Starter
import Workbench.Proofs.Project.Texts
import Workbench.Proofs.Script.Following
import Workbench.Proofs.Script.Imports
import Workbench.Proofs.Script.Interface
import Workbench.Proofs.Script.Layout
import Workbench.Proofs.Script.Rules
import Workbench.Proofs.Script.Signature
import Workbench.Proofs.Serve.Containment
import Workbench.Proofs.Serve.Decision
import Workbench.Proofs.Serve.Encoded
import Workbench.Proofs.Serve.Lifecycle
import Workbench.Proofs.Serve.Secrecy
import Workbench.Proofs.Strategy.Address
import Workbench.Proofs.Strategy.Carrying
import Workbench.Proofs.Strategy.Toolchain
import Workbench.Proofs.Supervisor.Hold
import Workbench.Proofs.Supervisor.Live
import Workbench.Proofs.Supervisor.Outcome
import Workbench.Proofs.Supervisor.Sessions
import Workbench.Proofs.Supervisor.Status
import Workbench.Proofs.Supervisor.Stop
import Workbench.Proofs.Supervisor.Transitions
import Workbench.Proofs.Supervisor.World
import Workbench.Proofs.Text.Lossy
import Workbench.Proofs.Text.Split
import Workbench.Proofs.Toml.Document
import Workbench.Proofs.Toml.Quoted
import Workbench.Proofs.Toml.Value
import Workbench.Script.Rules
import Workbench.Serve.Server
import Workbench.Serve.Response
import Workbench.Serve.Sandbox
import Workbench.Strategy.Basic
import Workbench.Strategy.Plan
import Workbench.Supervisor.Basic
import Workbench.Supervisor.Live
import Workbench.Supervisor.Stage
import Workbench.Text.Basic
import Workbench.Text.Lossy
import Workbench.Text.LowerCase
import Workbench.Text.Numeral
import Workbench.Text.Word
import Workbench.Toml.Assembly
import Workbench.Toml.Basic
import Workbench.Toml.Printer
import Workbench.Toml.Quoted
import Workbench.Toml.Reader
import Workbench.Toml.Scalar
