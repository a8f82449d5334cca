import TunnelBoard.CommandLine.Arguments
import TunnelBoard.CommandLine.Basic
import TunnelBoard.Config.Basic
import TunnelBoard.Config.Load
import TunnelBoard.Config.Override
import TunnelBoard.Disk.Basic
import TunnelBoard.Display.Content
import TunnelBoard.Display.Renderer
import TunnelBoard.Failure
import TunnelBoard.Frame.Base
import TunnelBoard.Frame.Card
import TunnelBoard.Key
import TunnelBoard.Live.Basic
import TunnelBoard.Live.Output
import TunnelBoard.Live.Owner
import TunnelBoard.Log.Filter
import TunnelBoard.Log.Record
import TunnelBoard.Log.Ring
import TunnelBoard.Log.Sink
import TunnelBoard.Main
import TunnelBoard.Mode
import TunnelBoard.ModePicker
import TunnelBoard.Monitor.Basic
import TunnelBoard.Monitor.Screen
import TunnelBoard.Number.Double
import TunnelBoard.Preferences.Basic
import TunnelBoard.Preferences.Save
import TunnelBoard.Preferences.Store
import TunnelBoard.Preferences.Writer
import TunnelBoard.Proofs.Monitor.Consistent
import TunnelBoard.Proofs.Monitor.Tasks
import TunnelBoard.Proofs.Session.Run
import TunnelBoard.Proofs.Session.Standing
import TunnelBoard.Scope.Canceller
import TunnelBoard.Scope.Token
import TunnelBoard.Scope.Wait
import TunnelBoard.Session.Basic
import TunnelBoard.Session.Call
import TunnelBoard.Session.Command
import TunnelBoard.Session.Event
import TunnelBoard.Session.Input
import TunnelBoard.Session.Loop
import TunnelBoard.Session.Message
import TunnelBoard.Session.Options
import TunnelBoard.Session.Wait
import TunnelBoard.Session.World
import TunnelBoard.Shutdown
import TunnelBoard.Style.Basic
import TunnelBoard.Style.Memo
import TunnelBoard.Style.TabStrip
import TunnelBoard.Style.Theme
import TunnelBoard.Text.Basic
import TunnelBoard.Text.Blank
import TunnelBoard.Text.Escape
import TunnelBoard.Text.Layout
import TunnelBoard.Text.Quoted
import TunnelBoard.Text.Unprintable
import TunnelBoard.Text.Utf8
import TunnelBoard.Text.Wrap
import TunnelBoard.Time.Calendar
import TunnelBoard.Toml.Line
import TunnelBoard.Toml.Moment
import TunnelBoard.Toml.Number
import TunnelBoard.Toml.Printer
import TunnelBoard.Toml.Quotation
import TunnelBoard.Toml.Table
import TunnelBoard.Toml.Value
import TunnelBoard.Traffic.Amount
import TunnelBoard.Traffic.Counters
import TunnelBoard.Traffic.Samples
import TunnelBoard.Traffic.Sparkline
import TunnelBoard.Proofs.Monitor.Chain
import TunnelBoard.Proofs.Session.Change
import TunnelBoard.Proofs.Session.Talk
import TunnelBoard.Proofs.Session.Protocol
import TunnelBoard.Proofs.Loop.Core
import TunnelBoard.Proofs.Session.Passage
import TunnelBoard.Proofs.Loop.Stage
import TunnelBoard.Proofs.Loop.Pace
import TunnelBoard.Proofs.Loop.Refresh
import TunnelBoard.Proofs.Log.Ring
import TunnelBoard.Proofs.Session.Visit
import TunnelBoard.Proofs.Loop.Lookout
import TunnelBoard.Proofs.Session.Buffer
import TunnelBoard.Proofs.Session.Activations
import TunnelBoard.Proofs.Loop.Isolation
import TunnelBoard.Proofs.Loop.Ending
import TunnelBoard.Proofs.Loop.Outcome
import TunnelBoard.Proofs.Session.Settings
import TunnelBoard.Proofs.Loop.Saving
import TunnelBoard.Proofs.Text.Fitting
import TunnelBoard.Proofs.Style.TabStrip
import TunnelBoard.Proofs.Frame.Box
import TunnelBoard.Proofs.Display.Memory
import TunnelBoard.Proofs.Display.History
import TunnelBoard.Proofs.Text.Wrapping
import TunnelBoard.Proofs.Display.Unstyled
import TunnelBoard.Proofs.Display.FrameSize
import TunnelBoard.Proofs.Session.Scopes
import TunnelBoard.Proofs.Loop.Discipline
import TunnelBoard.Proofs.Shutdown
import TunnelBoard.Proofs.Text.Utf8
import TunnelBoard.Proofs.Log.Lines
import TunnelBoard.Proofs.Toml.Quotation
import TunnelBoard.Proofs.Toml.Value
import TunnelBoard.Proofs.Toml.Rows
import TunnelBoard.Proofs.Toml.Document
import TunnelBoard.Proofs.Config.RoundTrip
import TunnelBoard.Proofs.Disk.Frame
import TunnelBoard.Proofs.Preferences.RoundTrip
import TunnelBoard.Proofs.Preferences.SaveSteps
import TunnelBoard.Proofs.Preferences.Register
import TunnelBoard.Proofs.Log.Capture
import TunnelBoard.Proofs.Text.Grammar
import TunnelBoard.Proofs.Display.Window
import TunnelBoard.Proofs.Display.LogScreen
import TunnelBoard.Proofs.Loop.FatalScreen
import TunnelBoard.Proofs.Text.Clipping
import TunnelBoard.Proofs.Text.Setting
import TunnelBoard.Proofs.Text.Reflow
import TunnelBoard.Proofs.Frame.Reapplied
import TunnelBoard.Proofs.Frame.Assembly
import TunnelBoard.Proofs.Traffic.Rates
import TunnelBoard.Proofs.Scope.Tokens
import TunnelBoard.Proofs.Traffic.Sparkline
import TunnelBoard.Proofs.Traffic.Samples
import TunnelBoard.Proofs.Number.Rounding
import TunnelBoard.Proofs.Traffic.Amount
import TunnelBoard.Proofs.Config.Variables
import TunnelBoard.Proofs.Config.Layers
import TunnelBoard.Proofs.Preferences.Leftovers
import TunnelBoard.Proofs.Session.Leaves
import TunnelBoard.Proofs.Loop.Commands
import TunnelBoard.Proofs.Loop.Reports
import TunnelBoard.Proofs.Live.Runs
import TunnelBoard.Proofs.Live.Owner
