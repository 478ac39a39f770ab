import OfflineSupply.Calendar
import OfflineSupply.Command.Basic
import OfflineSupply.Command.Error
import OfflineSupply.Command.Run
import OfflineSupply.CommandLine.Invocation
import OfflineSupply.CommandLine.Option
import OfflineSupply.CommandLine.Reader
import OfflineSupply.CommandLine.Run
import OfflineSupply.Datum.Basic
import OfflineSupply.Datum.Document
import OfflineSupply.Datum.Literal
import OfflineSupply.Datum.Scalar
import OfflineSupply.Discovery.Basic
import OfflineSupply.Discovery.Error
import OfflineSupply.Discovery.Images
import OfflineSupply.Discovery.Listing
import OfflineSupply.Failure
import OfflineSupply.FileTree.Basic
import OfflineSupply.FileTree.Error
import OfflineSupply.Install.Plan
import OfflineSupply.Install.Run
import OfflineSupply.Json.Basic
import OfflineSupply.Json.Error
import OfflineSupply.Json.Reader
import OfflineSupply.Json.Writer
import OfflineSupply.Log
import OfflineSupply.Main
import OfflineSupply.Manifest.Basic
import OfflineSupply.Manifest.Document
import OfflineSupply.Manifest.Error
import OfflineSupply.Manifest.File
import OfflineSupply.Number.Double
import OfflineSupply.Number.Shortest
import OfflineSupply.Path
import OfflineSupply.Platform
import OfflineSupply.Proofs.Command.Display
import OfflineSupply.Proofs.Command.Ending
import OfflineSupply.Proofs.Command.Issued
import OfflineSupply.Proofs.Command.Launch
import OfflineSupply.Proofs.CommandLine.Listing
import OfflineSupply.Proofs.Discovery.Answering
import OfflineSupply.Proofs.Discovery.Answers
import OfflineSupply.Proofs.Discovery.Asked
import OfflineSupply.Proofs.Discovery.Charts
import OfflineSupply.Proofs.Discovery.Complete
import OfflineSupply.Proofs.Discovery.Encoding
import OfflineSupply.Proofs.Discovery.ImagePositions
import OfflineSupply.Proofs.Discovery.Listing
import OfflineSupply.Proofs.Discovery.Stages
import OfflineSupply.Proofs.Discovery.Walk
import OfflineSupply.Proofs.DryRun
import OfflineSupply.Proofs.FileTree.Change
import OfflineSupply.Proofs.FileTree.Directories
import OfflineSupply.Proofs.FileTree.Enter
import OfflineSupply.Proofs.Install.Agreement
import OfflineSupply.Proofs.Install.Forecast
import OfflineSupply.Proofs.Install.Order
import OfflineSupply.Proofs.Install.Plan
import OfflineSupply.Proofs.Json.Document
import OfflineSupply.Proofs.Json.LongNumber
import OfflineSupply.Proofs.Json.Text
import OfflineSupply.Proofs.Manifest.File
import OfflineSupply.Proofs.Manifest.Loading
import OfflineSupply.Proofs.Pull.Agreement
import OfflineSupply.Proofs.Pull.Archive
import OfflineSupply.Proofs.Pull.CacheOnly
import OfflineSupply.Proofs.Pull.Chart
import OfflineSupply.Proofs.Pull.Commit
import OfflineSupply.Proofs.Pull.Complete
import OfflineSupply.Proofs.Pull.DryRun
import OfflineSupply.Proofs.Pull.Errand
import OfflineSupply.Proofs.Pull.Held
import OfflineSupply.Proofs.Pull.InOrder
import OfflineSupply.Proofs.Pull.Planned
import OfflineSupply.Proofs.Pull.Reached
import OfflineSupply.Proofs.Pull.Repeat
import OfflineSupply.Proofs.Pull.SharedFile
import OfflineSupply.Proofs.Pull.Stages
import OfflineSupply.Proofs.Pull.Started
import OfflineSupply.Proofs.Pull.Trial
import OfflineSupply.Proofs.Push.Attempted
import OfflineSupply.Proofs.Push.Carry
import OfflineSupply.Proofs.Push.Category
import OfflineSupply.Proofs.Push.Forecast
import OfflineSupply.Proofs.Push.Isolation
import OfflineSupply.Proofs.Push.Quiet
import OfflineSupply.Proofs.Reference.Image
import OfflineSupply.Proofs.Reference.Parts
import OfflineSupply.Proofs.Reference.Policy
import OfflineSupply.Proofs.Reference.RegistryPolicy
import OfflineSupply.Proofs.Reference.Spelling
import OfflineSupply.Proofs.Reference.Target
import OfflineSupply.Proofs.Session.Ensures
import OfflineSupply.Proofs.Session.Frame
import OfflineSupply.Proofs.Session.Judged
import OfflineSupply.Proofs.Session.Returns
import OfflineSupply.Proofs.Shell.Words
import OfflineSupply.Proofs.Stage.Performed
import OfflineSupply.Proofs.Stores
import OfflineSupply.Proofs.Yaml.Cursor
import OfflineSupply.Proofs.Yaml.Listing
import OfflineSupply.Proofs.Yaml.Plain
import OfflineSupply.Proofs.Yaml.Quoted
import OfflineSupply.Proofs.Yaml.Tokens
import OfflineSupply.Proofs.Yaml.Written
import OfflineSupply.Pull
import OfflineSupply.Push
import OfflineSupply.Reference.Basic
import OfflineSupply.Reference.Chart
import OfflineSupply.Reference.Error
import OfflineSupply.Reference.Image
import OfflineSupply.Reference.Policy
import OfflineSupply.Rehearsal
import OfflineSupply.Requirements
import OfflineSupply.Session.Action
import OfflineSupply.Session.Basic
import OfflineSupply.Session.Host
import OfflineSupply.Settings
import OfflineSupply.Shell.Quote
import OfflineSupply.Shell.Words
import OfflineSupply.Stage.Basic
import OfflineSupply.Stage.Outline
import OfflineSupply.Stores.Charts
import OfflineSupply.Stores.Images
import OfflineSupply.Stores.Policies
import OfflineSupply.Stores.Releases
import OfflineSupply.Text.Blank
import OfflineSupply.Text.Cut
import OfflineSupply.Text.Digit
import OfflineSupply.Text.Lines
import OfflineSupply.Text.Printable
import OfflineSupply.Text.Quoted
import OfflineSupply.Text.Raw
import OfflineSupply.Text.Utf8
import OfflineSupply.Yaml.Cursor
import OfflineSupply.Yaml.Load
import OfflineSupply.Yaml.Node
import OfflineSupply.Yaml.Node.Merge
import OfflineSupply.Yaml.Node.Reader
import OfflineSupply.Yaml.ScalarWriter
import OfflineSupply.Yaml.Tag
import OfflineSupply.Yaml.Token
import OfflineSupply.Yaml.Token.Lexer
import OfflineSupply.Yaml.Token.Row
import OfflineSupply.Yaml.Token.Scalar
import OfflineSupply.Yaml.Token.Tag
import OfflineSupply.Yaml.Value
