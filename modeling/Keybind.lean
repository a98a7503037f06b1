import Keybind.CommandLine.Arguments
import Keybind.CommandLine.Run
import Keybind.Config
import Keybind.Config.Layers
import Keybind.Disk
import Keybind.Emitter
import Keybind.Event
import Keybind.Fault
import Keybind.Format
import Keybind.Json
import Keybind.Lexeme
import Keybind.Listing
import Keybind.Location
import Keybind.Log
import Keybind.Main
import Keybind.Number.Binary64
import Keybind.Options
import Keybind.Options.Reader
import Keybind.Output
import Keybind.Parser
import Keybind.Piece
import Keybind.Proofs.Blocks
import Keybind.Proofs.Braces
import Keybind.Proofs.Conservation
import Keybind.Proofs.Defaults
import Keybind.Proofs.Divisions
import Keybind.Proofs.Documents
import Keybind.Proofs.Effects
import Keybind.Proofs.Events
import Keybind.Proofs.Grammar
import Keybind.Proofs.Groups
import Keybind.Proofs.Joining
import Keybind.Proofs.JsonListings
import Keybind.Proofs.JsonText
import Keybind.Proofs.LineEndings
import Keybind.Proofs.Lines
import Keybind.Proofs.Listings
import Keybind.Proofs.Literals
import Keybind.Proofs.Lookahead
import Keybind.Proofs.Lossless
import Keybind.Proofs.Modes
import Keybind.Proofs.Munch
import Keybind.Proofs.Names
import Keybind.Proofs.OneLine
import Keybind.Proofs.Parsers
import Keybind.Proofs.Places
import Keybind.Proofs.Positions
import Keybind.Proofs.Precedence
import Keybind.Proofs.Preservation
import Keybind.Proofs.Reading
import Keybind.Proofs.Refusals
import Keybind.Proofs.Runs
import Keybind.Proofs.ScriptNames
import Keybind.Proofs.Seams
import Keybind.Proofs.Spelling
import Keybind.Proofs.Storage
import Keybind.Proofs.Tiling
import Keybind.Proofs.Transparency
import Keybind.Proofs.Verdict
import Keybind.Scope
import Keybind.Script
import Keybind.Script.Path
import Keybind.Segment
import Keybind.Segment.Lexer
import Keybind.Settings
import Keybind.Settings.KeyPath
import Keybind.Text.Basic
import Keybind.Text.Case
import Keybind.Text.Printable
import Keybind.Text.Quoted
import Keybind.Text.Ranges
import Keybind.Text.Terminal
import Keybind.Token
import Keybind.Toml.Document
import Keybind.Toml.Grammar
import Keybind.Toml.Moment
import Keybind.Transpile
import Keybind.Value
