import JobHierarchy.BuildResult
import JobHierarchy.Builds
import JobHierarchy.CommandLine.Argument
import JobHierarchy.CommandLine.Command
import JobHierarchy.CommandLine.ConnectionFlags
import JobHierarchy.CommandLine.Failure
import JobHierarchy.CommandLine.Grammar
import JobHierarchy.CommandLine.Perform
import JobHierarchy.CommandLine.Scan
import JobHierarchy.CommandLine.Session
import JobHierarchy.Connection
import JobHierarchy.Documents
import JobHierarchy.Error
import JobHierarchy.FileTree
import JobHierarchy.FolderPath
import JobHierarchy.Handle
import JobHierarchy.Http.Message
import JobHierarchy.Http.Readiness
import JobHierarchy.Http.Server
import JobHierarchy.Http.Url
import JobHierarchy.Http.Wire
import JobHierarchy.Json.Decode
import JobHierarchy.Json.Printer
import JobHierarchy.Json.Reader
import JobHierarchy.Json.Value
import JobHierarchy.Lifecycle
import JobHierarchy.Log
import JobHierarchy.Main
import JobHierarchy.Memory.Address
import JobHierarchy.Memory.Arrange
import JobHierarchy.Memory.Server
import JobHierarchy.Memory.Tree
import JobHierarchy.Memory.World
import JobHierarchy.Network
import JobHierarchy.Output.Item
import JobHierarchy.Output.Table
import JobHierarchy.Poller
import JobHierarchy.Program
import JobHierarchy.Proofs.Abort
import JobHierarchy.Proofs.Accounts
import JobHierarchy.Proofs.Addresses
import JobHierarchy.Proofs.Alterations
import JobHierarchy.Proofs.Basics
import JobHierarchy.Proofs.BuildHandles
import JobHierarchy.Proofs.Clients
import JobHierarchy.Proofs.Codes
import JobHierarchy.Proofs.CommandLines
import JobHierarchy.Proofs.ConfinedOperations
import JobHierarchy.Proofs.Confinement
import JobHierarchy.Proofs.DefinitionKinds
import JobHierarchy.Proofs.Deletions
import JobHierarchy.Proofs.DeletionsByPath
import JobHierarchy.Proofs.FolderChains
import JobHierarchy.Proofs.Folders
import JobHierarchy.Proofs.Handles
import JobHierarchy.Proofs.Hierarchy
import JobHierarchy.Proofs.Histories
import JobHierarchy.Proofs.Independence
import JobHierarchy.Proofs.Items
import JobHierarchy.Proofs.KeptBuilds
import JobHierarchy.Proofs.LazyFolders
import JobHierarchy.Proofs.Listings
import JobHierarchy.Proofs.Lookups
import JobHierarchy.Proofs.Outcomes
import JobHierarchy.Proofs.Overrides
import JobHierarchy.Proofs.PartialAbort
import JobHierarchy.Proofs.Parts
import JobHierarchy.Proofs.PathTexts
import JobHierarchy.Proofs.Pieces
import JobHierarchy.Proofs.Placeholders
import JobHierarchy.Proofs.PlainJobs
import JobHierarchy.Proofs.PollTiming
import JobHierarchy.Proofs.Polling
import JobHierarchy.Proofs.Precedence
import JobHierarchy.Proofs.Removals
import JobHierarchy.Proofs.Replacements
import JobHierarchy.Proofs.Resolutions
import JobHierarchy.Proofs.Running
import JobHierarchy.Proofs.SharedFolders
import JobHierarchy.Proofs.Target
import JobHierarchy.Proofs.TimeLimits
import JobHierarchy.Proofs.Traversal
import JobHierarchy.Proofs.Trees
import JobHierarchy.Proofs.Triggers
import JobHierarchy.Proofs.Visits
import JobHierarchy.Proofs.Waiting
import JobHierarchy.Proofs.Walks
import JobHierarchy.Request
import JobHierarchy.Resolver
import JobHierarchy.Scenario.Directory
import JobHierarchy.Scenario.Document
import JobHierarchy.Scenario.Error
import JobHierarchy.Scenario.Report
import JobHierarchy.Scenario.Run
import JobHierarchy.Scenario.Spec
import JobHierarchy.Settings
import JobHierarchy.Template.BuiltIn
import JobHierarchy.Template.Kind
import JobHierarchy.Template.Source
import JobHierarchy.Template.Substitute
import JobHierarchy.Text.Base64
import JobHierarchy.Text.Blank
import JobHierarchy.Text.Combining
import JobHierarchy.Text.Number
import JobHierarchy.Text.Quoted
import JobHierarchy.Text.Split
import JobHierarchy.Text.Utf8
import JobHierarchy.Text.Width
import JobHierarchy.Time.Calendar
import JobHierarchy.Time.Duration
import JobHierarchy.Time.Moment
import JobHierarchy.Toml.Reader
import JobHierarchy.Toml.Scalar
import JobHierarchy.Toml.Table
import JobHierarchy.Url.Segment
import JobHierarchy.Yaml.Cursor
import JobHierarchy.Yaml.Decode
import JobHierarchy.Yaml.Lexer
import JobHierarchy.Yaml.Meaning
import JobHierarchy.Yaml.Node
import JobHierarchy.Yaml.Printer
import JobHierarchy.Yaml.ScalarText
import JobHierarchy.Yaml.Token
