import DawScript.Decimal.Text
import DawScript.Fields
import DawScript.Json.Basic
import DawScript.Json.Reader
import DawScript.Text.Characters
import DawScript.Text.Casing
import DawScript.Text.Quoted
import DawScript.Value.Basic
import DawScript.Value.Json
import DawScript.Value.Operator
import DawScript.Value.Arithmetic
import DawScript.Value.Method
import DawScript.Fault
import DawScript.Syntax.Expr
import DawScript.Syntax.Lexeme
import DawScript.Syntax.Grammar
import DawScript.Action
import DawScript.Run.State
import DawScript.Session.Basic
import DawScript.Session.Load
import DawScript.Run.Command
import DawScript.Run.Combinator
import DawScript.Run.Interpret
import DawScript.Cli.Run
import DawScript.Yaml.Glyph
import DawScript.Yaml.Scalar
import DawScript.Yaml.Node
import DawScript.Yaml.BlockScalar
import DawScript.Yaml.Property
import DawScript.Yaml.Tokens
import DawScript.Yaml.Grammar
import DawScript.Main
import DawScript.Proofs.Strictness
import DawScript.Proofs.Payload
import DawScript.Proofs.RoundTrip
import DawScript.Proofs.Outcome
import DawScript.Proofs.Blame
import DawScript.Proofs.SkippedItems
import DawScript.Proofs.Concatenation
import DawScript.Proofs.FrontEnd
import DawScript.Proofs.JsonConversion
import DawScript.Proofs.SessionRoundTrip
import DawScript.Proofs.FreeNames
import DawScript.Proofs.TrackNumbers
import DawScript.Proofs.TrackCallbacks
import DawScript.Proofs.CommandLine
import DawScript.Proofs.Queries
import DawScript.Proofs.TokenPositions
import DawScript.Proofs.ExplicitArguments
import DawScript.Proofs.IntegerRounding
import DawScript.Proofs.IntegerOrder
import DawScript.Proofs.ArgumentOrder
import DawScript.Proofs.SelectedTracks
import DawScript.Proofs.Filters
import DawScript.Proofs.StringLiterals
