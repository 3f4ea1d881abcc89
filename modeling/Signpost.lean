import Signpost.Command.Arguments
import Signpost.Command.Run
import Signpost.Config
import Signpost.Dispatcher
import Signpost.Document
import Signpost.Json.Lexeme
import Signpost.Json.Reader
import Signpost.Json.Writer
import Signpost.Main
import Signpost.OrderedMap
import Signpost.Regex.Bracket
import Signpost.Regex.CharSet
import Signpost.Regex.Escape
import Signpost.Regex.Expr
import Signpost.Regex.Flags
import Signpost.Regex.Lexeme
import Signpost.Regex.Match
import Signpost.Regex.Reader
import Signpost.Request
import Signpost.Route.Basic
import Signpost.Route.Display
import Signpost.Route.Path
import Signpost.RouteError
import Signpost.Router.Basic
import Signpost.Router.Resolve
import Signpost.Router.Session
import Signpost.Table.Basic
import Signpost.Table.Format
import Signpost.Template.Basic
import Signpost.Template.Grouping
import Signpost.Template.Piece
import Signpost.Template.Token
import Signpost.Text.Percent
import Signpost.Text.Slice
import Signpost.Text.Utf8
import Signpost.Toml.Item
import Signpost.Toml.Number
import Signpost.Toml.Quoted
import Signpost.Toml.Reader
import Signpost.Unicode.CaseFold
import Signpost.Unicode.Category
import Signpost.Yaml.Character
import Signpost.Yaml.Node
import Signpost.Yaml.Property
import Signpost.Yaml.Scalar
import Signpost.Yaml.Token
import Signpost.Proofs.Command.Run
import Signpost.Proofs.Dispatcher.Listing
import Signpost.Proofs.Dispatcher.Registrations
import Signpost.Proofs.Json.Lexemes
import Signpost.Proofs.Json.Lines
import Signpost.Proofs.Json.RoundTrip
import Signpost.Proofs.ModuleName
import Signpost.Proofs.OrderedMap
import Signpost.Proofs.Regex.Nameless
import Signpost.Proofs.Regex.Pasted
import Signpost.Proofs.Regex.Readers
import Signpost.Proofs.Regex.Reading
import Signpost.Proofs.Regex.Recorded
import Signpost.Proofs.Regex.Search
import Signpost.Proofs.Regex.Steady
import Signpost.Proofs.Regex.SteadyLexeme
import Signpost.Proofs.Request.Changes
import Signpost.Proofs.Request.Dispatch
import Signpost.Proofs.Request.Padding
import Signpost.Proofs.Request.Query
import Signpost.Proofs.Route.Built
import Signpost.Proofs.Route.EnclosedPatterns
import Signpost.Proofs.Route.GeneratedMatch
import Signpost.Proofs.Route.Injection
import Signpost.Proofs.Route.InlinePatterns
import Signpost.Proofs.Route.KeptText
import Signpost.Proofs.Route.LeftOutDefault
import Signpost.Proofs.Route.Match
import Signpost.Proofs.Route.Merge
import Signpost.Proofs.Route.MissingCaptures
import Signpost.Proofs.Route.OuterSlash
import Signpost.Proofs.Route.Parameters
import Signpost.Proofs.Route.PlainText
import Signpost.Proofs.Route.Rendered
import Signpost.Proofs.Route.RoundTrip
import Signpost.Proofs.Route.SegmentUrl
import Signpost.Proofs.Route.Segments
import Signpost.Proofs.Route.Settings
import Signpost.Proofs.Router.FirstMatch
import Signpost.Proofs.Router.Priority
import Signpost.Proofs.Router.Registry
import Signpost.Proofs.Router.Sessions
import Signpost.Proofs.Router.Url
import Signpost.Proofs.Table.Default
import Signpost.Proofs.Table.Json
import Signpost.Proofs.Table.LastEntry
import Signpost.Proofs.Table.RoundTrip
import Signpost.Proofs.Table.Routes
import Signpost.Proofs.Template.Captured
import Signpost.Proofs.Template.Compile
import Signpost.Proofs.Template.Composition
import Signpost.Proofs.Template.Cut
import Signpost.Proofs.Template.Expression
import Signpost.Proofs.Template.Grouping
import Signpost.Proofs.Template.OuterText
import Signpost.Proofs.Template.Outline
import Signpost.Proofs.Template.Placement
import Signpost.Proofs.Template.Scan
import Signpost.Proofs.Template.Separated
import Signpost.Proofs.Template.Written
import Signpost.Proofs.Text.Ends
import Signpost.Proofs.Text.Percent
import Signpost.Proofs.Text.Slice
import Signpost.Proofs.Text.Spelling
import Signpost.Proofs.Text.Utf8
