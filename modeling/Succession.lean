import Succession.Bench.Channels
import Succession.Bench.Readings
import Succession.Bytes
import Succession.Channel.Activation
import Succession.Channel.Endpoint
import Succession.Channel.Manifest
import Succession.Channel.Set
import Succession.ClientMode
import Succession.CommandLine.Options
import Succession.CommandLine.Parse
import Succession.Descriptor.Map
import Succession.Descriptor.Stream
import Succession.Descriptor.Table
import Succession.Display.Connection
import Succession.Display.Event
import Succession.Display.Features
import Succession.Display.Request
import Succession.Display.Root
import Succession.Display.Screen
import Succession.Display.Server
import Succession.Environment
import Succession.EventLoop.Feed
import Succession.EventLoop.Source
import Succession.Fault
import Succession.Fault.System
import Succession.FileSystem.Basic
import Succession.FileSystem.Cursor
import Succession.FileSystem.Operations
import Succession.FileSystem.Resolve
import Succession.FileSystem.Standard
import Succession.Image.Arguments
import Succession.Image.Exec
import Succession.Image.Inheritance
import Succession.Journal
import Succession.Lookup
import Succession.Json.Lexer
import Succession.Json.Reader
import Succession.Json.Value
import Succession.Json.Writer
import Succession.Main
import Succession.Path
import Succession.Phase
import Succession.Process.Host
import Succession.Request.Command
import Succession.Request.Exchange
import Succession.Request.PartialLine
import Succession.RingLog
import Succession.Session.Basic
import Succession.Session.Process
import Succession.Settings.Basic
import Succession.Settings.Source
import Succession.Shell.Run
import Succession.Shell.Tools
import Succession.Shell.Words
import Succession.Signal
import Succession.Takeover.Basic
import Succession.Takeover.Rehearsal
import Succession.Text.Blank
import Succession.Text.Numeral
import Succession.Text.Utf8
import Succession.Window.Following
import Succession.Window.Order
import Succession.Window.Persistence
import Succession.Window.RootChild
import Succession.Window.Snapshot
import Succession.WindowManager.Basic
import Succession.WindowManager.Display
import Succession.WindowManager.Handover
import Succession.WindowManager.Round
import Succession.WindowManager.Service
import Succession.WindowManager.Shutdown
import Succession.WindowManager.Startup
import Succession.Proofs.Text.NumeralDigits
import Succession.Proofs.Text.Utf8RoundTrip
import Succession.Proofs.Json.Lexemes
import Succession.Proofs.Json.Lexing
import Succession.Proofs.Json.Reading
import Succession.Proofs.Window.SnapshotRoundTrip
import Succession.Proofs.FileSystem.WriteRead
import Succession.Proofs.Takeover.Stages
import Succession.Proofs.Window.SlotOrder
import Succession.Proofs.WindowManager.TakeoverOrder
import Succession.Proofs.WindowManager.OrderRestart
import Succession.Proofs.Descriptor.MapLaws
import Succession.Proofs.Descriptor.TableLaws
import Succession.Proofs.Channel.ManifestRoundTrip
import Succession.Proofs.Channel.Handoff
import Succession.Proofs.WindowManager.ChannelRestart
import Succession.Proofs.CommandLine.Acts
import Succession.Proofs.CommandLine.NextImage
import Succession.Proofs.Process.Wiring
import Succession.Proofs.Request.Framing
import Succession.Proofs.WindowManager.DisplayFrame
import Succession.Proofs.WindowManager.Serving
import Succession.Proofs.WindowManager.RequestFlow
import Succession.Proofs.WindowManager.Beginning
import Succession.Proofs.WindowManager.RequestsAcrossRestart
import Succession.Proofs.Text.NumeralReading
import Succession.Proofs.Channel.ManifestText
import Succession.Proofs.Image.HandOver
import Succession.Proofs.Chronicle
import Succession.Proofs.Takeover.Record
import Succession.Proofs.Takeover.Release
import Succession.Proofs.Takeover.Settlement
import Succession.Proofs.EventLoop.Record
import Succession.Proofs.EventLoop.Steps
import Succession.Proofs.EventLoop.Accounting
import Succession.Proofs.EventLoop.Waits
import Succession.Proofs.WindowManager.DisplayQueue
import Succession.Proofs.CommandLine.FreshStart
import Succession.Proofs.Channel.Gathering
import Succession.Proofs.WindowManager.Replacement
import Succession.Proofs.WindowManager.ListenerPaths
import Succession.Proofs.FileSystem.Frame
import Succession.Proofs.WindowManager.FailedRestart
import Succession.Proofs.WindowManager.Termination
import Succession.Proofs.Window.SlotInvariant
import Succession.Proofs.EventLoop.Reentry
import Succession.Proofs.Request.Replies
import Succession.Proofs.WindowManager.Talk
import Succession.Proofs.WindowManager.ReplyOrder
import Succession.Proofs.Request.Chunks
import Succession.Proofs.Request.Limit
import Succession.Proofs.Channel.Adoption
import Succession.Proofs.FileSystem.Removal
import Succession.Proofs.Window.Consumption
import Succession.Proofs.CommandLine.Restarts
import Succession.Proofs.EventLoop.BreadthFirst
import Succession.Proofs.RingLog.Laps
import Succession.Proofs.Channel.FailedBind
import Succession.Proofs.Channel.Superseding
import Succession.Proofs.Text.Trimming
import Succession.Proofs.Text.NumeralMeaning
import Succession.Proofs.Settings.Lines
import Succession.Proofs.Settings.Meaning
import Succession.Proofs.Settings.Rewording
import Succession.Proofs.WindowManager.ClientCalls
import Succession.Proofs.Display.Behaviours
import Succession.Proofs.Display.Negotiation
import Succession.Proofs.FileSystem.Route
import Succession.Proofs.WindowManager.OwnPaths
import Succession.Proofs.WindowManager.DisplayFollowed
import Succession.Proofs.Display.PublishedPath
import Succession.Proofs.Settings.HomeExpansion
