import GitRemote.CommandLine.Arguments
import GitRemote.CommandLine.Basic
import GitRemote.Config.Basic
import GitRemote.Config.Double
import GitRemote.Config.Load
import GitRemote.Config.Path
import GitRemote.Config.Setting
import GitRemote.Config.Toml.Basic
import GitRemote.Config.Toml.Moment
import GitRemote.Config.Toml.Number
import GitRemote.Config.Toml.Quoted
import GitRemote.Config.Toml.Table
import GitRemote.Fetch.Walk
import GitRemote.Http.Client
import GitRemote.Http.Credential
import GitRemote.Http.Message
import GitRemote.Http.Server
import GitRemote.Main
import GitRemote.Object.Basic
import GitRemote.Object.Error
import GitRemote.Object.Id
import GitRemote.Object.Links
import GitRemote.Object.Loose
import GitRemote.Object.Sha1
import GitRemote.Object.Source
import GitRemote.Pathspec.Basic
import GitRemote.Pathspec.Error
import GitRemote.Pathspec.Glob
import GitRemote.Pathspec.Item
import GitRemote.Pathspec.Match
import GitRemote.Pathspec.Wildcard
import GitRemote.Process.Child
import GitRemote.Process.Command
import GitRemote.Process.Failure
import GitRemote.Process.Program
import GitRemote.Proofs.Diff.Agreement
import GitRemote.Proofs.Diff.Differs
import GitRemote.Proofs.Diff.Exact
import GitRemote.Proofs.Diff.Filtered
import GitRemote.Proofs.Diff.Kept
import GitRemote.Proofs.Diff.Leaves
import GitRemote.Proofs.Diff.Level
import GitRemote.Proofs.Diff.Limited
import GitRemote.Proofs.Diff.Lookup
import GitRemote.Proofs.Diff.Passed
import GitRemote.Proofs.Diff.Sides
import GitRemote.Proofs.Diff.Wanted
import GitRemote.Proofs.Fetch.Complete
import GitRemote.Proofs.Fetch.Download
import GitRemote.Proofs.Fetch.Nesting
import GitRemote.Proofs.Http.Client
import GitRemote.Proofs.Http.Discipline
import GitRemote.Proofs.Http.Turn
import GitRemote.Proofs.Object.Ancestry
import GitRemote.Proofs.Object.Header
import GitRemote.Proofs.Object.Id
import GitRemote.Proofs.Object.Loose
import GitRemote.Proofs.Pathspec.Ancestors
import GitRemote.Proofs.Pathspec.Answer
import GitRemote.Proofs.Pathspec.Backtracking
import GitRemote.Proofs.Pathspec.Compare
import GitRemote.Proofs.Pathspec.Compiling
import GitRemote.Proofs.Pathspec.Exclusion
import GitRemote.Proofs.Pathspec.Folded
import GitRemote.Proofs.Pathspec.Globbing
import GitRemote.Proofs.Pathspec.Matching
import GitRemote.Proofs.Pathspec.Meaning
import GitRemote.Proofs.Pathspec.Parts
import GitRemote.Proofs.Pathspec.Plain
import GitRemote.Proofs.Pathspec.Reach
import GitRemote.Proofs.Pathspec.Reading
import GitRemote.Proofs.Pathspec.Shortcut
import GitRemote.Proofs.Pathspec.Side
import GitRemote.Proofs.Pathspec.Translation
import GitRemote.Proofs.Pathspec.Union
import GitRemote.Proofs.Push.Carried
import GitRemote.Proofs.Push.Commands
import GitRemote.Proofs.Push.Deletion
import GitRemote.Proofs.Push.DryRun
import GitRemote.Proofs.Push.Failure
import GitRemote.Proofs.Push.History
import GitRemote.Proofs.Push.Matching
import GitRemote.Proofs.Push.Messages
import GitRemote.Proofs.Push.Reading
import GitRemote.Proofs.Push.Received
import GitRemote.Proofs.Push.Report
import GitRemote.Proofs.Push.Request
import GitRemote.Proofs.Push.Scan
import GitRemote.Proofs.Push.SideBand
import GitRemote.Proofs.Push.StatusLines
import GitRemote.Proofs.Push.Success
import GitRemote.Proofs.Push.Transition
import GitRemote.Proofs.Remote.Buffering
import GitRemote.Proofs.Remote.Names
import GitRemote.Proofs.Remote.Relay
import GitRemote.Proofs.Remote.Request
import GitRemote.Proofs.Remote.Streaming
import GitRemote.Proofs.Session.Listing
import GitRemote.Proofs.Text.Digits
import GitRemote.Proofs.Text.Lines
import GitRemote.Proofs.Text.Utf8
import GitRemote.Proofs.Tree.Find
import GitRemote.Proofs.Tree.Indexed
import GitRemote.Proofs.Tree.Names
import GitRemote.Proofs.Tree.Order
import GitRemote.Proofs.Tree.Path
import GitRemote.Proofs.Tree.Record
import GitRemote.Proofs.Tree.Sorted
import GitRemote.Proofs.Tree.WellFormed
import GitRemote.Proofs.Tree.Written
import GitRemote.Proofs.Walk.Consumption
import GitRemote.Proofs.Walk.Coverage
import GitRemote.Proofs.Walk.Lane
import GitRemote.Proofs.Walk.Level
import GitRemote.Proofs.Walk.Log
import GitRemote.Proofs.Walk.NameOrder
import GitRemote.Proofs.Walk.Pruning
import GitRemote.Proofs.Walk.Unordered
import GitRemote.Proofs.Wire.Advertised
import GitRemote.Proofs.Wire.Capabilities
import GitRemote.Proofs.Wire.Codec
import GitRemote.Proofs.Wire.InfoRefs
import GitRemote.Proofs.Wire.Lengthened
import GitRemote.Proofs.Wire.Lines
import GitRemote.Proofs.Wire.Lossless
import GitRemote.Proofs.Wire.Multiplex
import GitRemote.Proofs.Wire.Packets
import GitRemote.Proofs.Zlib.Stored
import GitRemote.Push.Matching
import GitRemote.Push.Pack
import GitRemote.Push.Plumbing
import GitRemote.Push.Producer
import GitRemote.Push.Ref
import GitRemote.Push.Refspec
import GitRemote.Push.Report
import GitRemote.Push.Send
import GitRemote.Push.Stateless
import GitRemote.Push.StatusReport
import GitRemote.Remote.Discovery
import GitRemote.Remote.Error
import GitRemote.Remote.Exchange
import GitRemote.Remote.Options
import GitRemote.Remote.Rpc
import GitRemote.Script.Arithmetic
import GitRemote.Script.Pattern
import GitRemote.Script.Reader
import GitRemote.Script.Run
import GitRemote.Script.Term
import GitRemote.Script.Utility
import GitRemote.Session.Basic
import GitRemote.Session.Request
import GitRemote.Text.Blank
import GitRemote.Text.Hex
import GitRemote.Text.Literal
import GitRemote.Text.Number
import GitRemote.Text.Printable
import GitRemote.Text.Quoted
import GitRemote.Text.Utf8
import GitRemote.Tree.Cursor
import GitRemote.Tree.Diff
import GitRemote.Tree.Entry
import GitRemote.Tree.Error
import GitRemote.Tree.Frame
import GitRemote.Tree.Lookup
import GitRemote.Tree.Order
import GitRemote.Tree.Walk
import GitRemote.Tree.Written
import GitRemote.Unicode.Combining
import GitRemote.Unicode.Composed
import GitRemote.Unicode.Decomposition
import GitRemote.Unicode.Direction
import GitRemote.Unicode.Joining
import GitRemote.Unicode.Table
import GitRemote.Url.Basic
import GitRemote.Url.Domain.Basic
import GitRemote.Url.Domain.Label
import GitRemote.Url.Domain.Mapping
import GitRemote.Url.Error
import GitRemote.Url.Host
import GitRemote.Url.Path
import GitRemote.Url.Percent
import GitRemote.Url.Punycode
import GitRemote.Wire.Advertisement
import GitRemote.Wire.Capabilities
import GitRemote.Wire.Error
import GitRemote.Wire.Packet
import GitRemote.Wire.Sideband
import GitRemote.Wire.Source
import GitRemote.Zlib.Inflate
import GitRemote.Zlib.Stored
