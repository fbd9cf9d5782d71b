import Seamark.Binary
import Seamark.Catalog.Audit
import Seamark.Catalog.Basic
import Seamark.Catalog.Listing
import Seamark.Catalog.Range
import Seamark.Catalog.Reading
import Seamark.Catalog.Writing
import Seamark.Characteristic.Basic
import Seamark.Characteristic.Groups
import Seamark.Characteristic.Reader
import Seamark.Color.Bar
import Seamark.Color.Basic
import Seamark.Color.Hex
import Seamark.Color.Token
import Seamark.Command.Arguments
import Seamark.Command.Audit
import Seamark.Command.Outcome
import Seamark.Command.Play
import Seamark.Command.Run
import Seamark.Command.Trouble
import Seamark.Command.Wait
import Seamark.Compiler.Alternating
import Seamark.Compiler.Basic
import Seamark.Compiler.Compile
import Seamark.Compiler.Flashing
import Seamark.Compiler.Morse
import Seamark.Compiler.Occulting
import Seamark.Compiler.Quick
import Seamark.Compiler.Steady
import Seamark.Config
import Seamark.Decimal.Basic
import Seamark.Decimal.Reading
import Seamark.Decimal.Rounded
import Seamark.Decimal.Shortest
import Seamark.Decimal.Spelling
import Seamark.Document.Cursor
import Seamark.Document.Draft
import Seamark.Document.Error
import Seamark.Document.Moment.Basic
import Seamark.Document.Moment.Reading
import Seamark.Document.Plain
import Seamark.Document.Printer
import Seamark.Document.Reader
import Seamark.Document.Scalars
import Seamark.Document.Token
import Seamark.Document.Value
import Seamark.File
import Seamark.LightType
import Seamark.Main
import Seamark.Morse
import Seamark.Playback.Manager
import Seamark.Playback.Messages
import Seamark.Playback.Player
import Seamark.Playback.Run
import Seamark.Playback.Stage
import Seamark.Power
import Seamark.Proofs.Catalog.Defects
import Seamark.Proofs.Catalog.Entries
import Seamark.Proofs.Catalog.Range
import Seamark.Proofs.Catalog.Ranking
import Seamark.Proofs.Catalog.Rereading
import Seamark.Proofs.Catalog.Spelled
import Seamark.Proofs.Characteristic.Grammar
import Seamark.Proofs.Characteristic.Groups
import Seamark.Proofs.Characteristic.PlusNotation
import Seamark.Proofs.Characteristic.Reading
import Seamark.Proofs.Color.Bar
import Seamark.Proofs.Color.Doubles
import Seamark.Proofs.Color.Hex
import Seamark.Proofs.Color.Marker
import Seamark.Proofs.Color.Sectors
import Seamark.Proofs.Command.Auditing
import Seamark.Proofs.Command.Playing
import Seamark.Proofs.Command.Printed
import Seamark.Proofs.Command.Reported
import Seamark.Proofs.Command.Troubles
import Seamark.Proofs.Compiler.Blank
import Seamark.Proofs.Compiler.Cycle
import Seamark.Proofs.Compiler.Eclipses
import Seamark.Proofs.Compiler.FlashSlots
import Seamark.Proofs.Compiler.Groups
import Seamark.Proofs.Compiler.MorseReading
import Seamark.Proofs.Compiler.MorseTime
import Seamark.Proofs.Compiler.Pieces
import Seamark.Proofs.Compiler.QuickFlashes
import Seamark.Proofs.Compiler.Returns
import Seamark.Proofs.Compiler.Shape
import Seamark.Proofs.Compiler.Shares
import Seamark.Proofs.Compiler.Slots
import Seamark.Proofs.Compiler.Texts
import Seamark.Proofs.Config
import Seamark.Proofs.Config.Rereading
import Seamark.Proofs.Decimal.Nearest
import Seamark.Proofs.Decimal.Shortest
import Seamark.Proofs.Decimal.Spelling
import Seamark.Proofs.Document.Defects
import Seamark.Proofs.Document.Rereading
import Seamark.Proofs.Double.Nearest
import Seamark.Proofs.Double.Order
import Seamark.Proofs.Double.Parts
import Seamark.Proofs.Double.Rounding
import Seamark.Proofs.Double.Size
import Seamark.Proofs.Double.Value
import Seamark.Proofs.List
import Seamark.Proofs.Playback.Alone
import Seamark.Proofs.Playback.Chain
import Seamark.Proofs.Playback.Due
import Seamark.Proofs.Playback.Effects
import Seamark.Proofs.Playback.FailedStart
import Seamark.Proofs.Playback.Faultless
import Seamark.Proofs.Playback.Faults
import Seamark.Proofs.Playback.Filed
import Seamark.Proofs.Playback.Halting
import Seamark.Proofs.Playback.Lights
import Seamark.Proofs.Playback.Loop
import Seamark.Proofs.Playback.Moves
import Seamark.Proofs.Playback.Resuming
import Seamark.Proofs.Playback.Runs
import Seamark.Proofs.Playback.Shown
import Seamark.Proofs.Playback.Sound
import Seamark.Proofs.Scalar
import Seamark.Proofs.Session.Isolation
import Seamark.Proofs.Table
import Seamark.Proofs.Text.Digits
import Seamark.Proofs.Text.Pieces
import Seamark.Proofs.Timeline.Position
import Seamark.Proofs.Timeline.Sampling
import Seamark.Report.Json
import Seamark.Report.Timeline
import Seamark.Scalar
import Seamark.Session
import Seamark.Table
import Seamark.Text.Blank
import Seamark.Text.Digit
import Seamark.Text.Letter
import Seamark.Text.Padding
import Seamark.Text.Printable
import Seamark.Text.Quoted
import Seamark.Text.Upper
import Seamark.Timeline.Basic
