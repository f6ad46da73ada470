import Gamebook.Config
import Gamebook.Dict
import Gamebook.Expr.Basic
import Gamebook.Expr.Bytes
import Gamebook.Expr.Eval
import Gamebook.Expr.Literal
import Gamebook.Expr.Parse
import Gamebook.Expr.Token
import Gamebook.Fixture
import Gamebook.History
import Gamebook.Host.Formatters
import Gamebook.Host.Macros
import Gamebook.Jar.Basic
import Gamebook.Jar.File
import Gamebook.Json.Basic
import Gamebook.Json.Passing
import Gamebook.Json.Printing
import Gamebook.Json.Reading
import Gamebook.Json.Record
import Gamebook.Macro.Block
import Gamebook.Macro.Error
import Gamebook.Macro.Params
import Gamebook.Macro.Standard
import Gamebook.Markup.Construct
import Gamebook.Markup.Cursor
import Gamebook.Markup.Document
import Gamebook.Markup.Html
import Gamebook.Markup.Node
import Gamebook.Markup.Pattern
import Gamebook.Markup.Style
import Gamebook.Navigator
import Gamebook.Number.Binary
import Gamebook.Number.Printing
import Gamebook.Number.Reading
import Gamebook.Number.Shortest
import Gamebook.Passage.Basic
import Gamebook.Passage.Excerpt
import Gamebook.Passage.Record
import Gamebook.Player
import Gamebook.Render.Nesting
import Gamebook.Render.Rule
import Gamebook.Render.Scan
import Gamebook.Render.Scanner
import Gamebook.Render.Standard
import Gamebook.Render.Table
import Gamebook.Store
import Gamebook.Story.Basic
import Gamebook.Story.Reading
import Gamebook.Text.Blank
import Gamebook.Text.Bytes
import Gamebook.Text.Edges
import Gamebook.Text.Pieces
import Gamebook.Text.Printable
import Gamebook.Text.Quoted
import Gamebook.Text.Runs
import Gamebook.Text.Word
import Gamebook.Trail
import Gamebook.Value
import Gamebook.Variables
import Gamebook.Proofs.Trail.RoundTrip
import Gamebook.Proofs.Expr.Bytes
import Gamebook.Proofs.Expr.Compound
import Gamebook.Proofs.Expr.Derivation
import Gamebook.Proofs.Expr.Grammar
import Gamebook.Proofs.Expr.Lexemes
import Gamebook.Proofs.Expr.Mentions
import Gamebook.Proofs.Expr.Names
import Gamebook.Proofs.Expr.Naming
import Gamebook.Proofs.Expr.Partition
import Gamebook.Proofs.Expr.Pointing
import Gamebook.Proofs.Expr.Range
import Gamebook.Proofs.Expr.Separators
import Gamebook.Proofs.Expr.Source
import Gamebook.Proofs.Expr.Written
import Gamebook.Proofs.History.Sound
import Gamebook.Proofs.Macro.Blocks
import Gamebook.Proofs.Macro.Calls
import Gamebook.Proofs.Macro.Finding
import Gamebook.Proofs.Macro.Matching
import Gamebook.Proofs.Macro.Meaning
import Gamebook.Proofs.Macro.Pieces
import Gamebook.Proofs.Macro.Program
import Gamebook.Proofs.Macro.Recall
import Gamebook.Proofs.Macro.Spaced
import Gamebook.Proofs.Macro.Spelling
import Gamebook.Proofs.Markup.Escape
import Gamebook.Proofs.Markup.Inline
import Gamebook.Proofs.Markup.Shape
import Gamebook.Proofs.Number.Bits
import Gamebook.Proofs.Number.Numeral
import Gamebook.Proofs.Number.RoundTrip
import Gamebook.Proofs.Number.Rounding
import Gamebook.Proofs.Number.Shortest
import Gamebook.Proofs.Passage.Excerpt
import Gamebook.Proofs.Passage.Tags
import Gamebook.Proofs.Render.Advance
import Gamebook.Proofs.Render.Bond
import Gamebook.Proofs.Render.Cells
import Gamebook.Proofs.Render.Deeper
import Gamebook.Proofs.Render.Formatters
import Gamebook.Proofs.Render.Growth
import Gamebook.Proofs.Render.Inline
import Gamebook.Proofs.Render.Items
import Gamebook.Proofs.Render.Levels
import Gamebook.Proofs.Render.Limit
import Gamebook.Proofs.Render.Lines
import Gamebook.Proofs.Render.Macros
import Gamebook.Proofs.Render.Once
import Gamebook.Proofs.Render.Outline
import Gamebook.Proofs.Render.Parts
import Gamebook.Proofs.Render.Places
import Gamebook.Proofs.Render.Quiet
import Gamebook.Proofs.Render.Repeats
import Gamebook.Proofs.Render.Said
import Gamebook.Proofs.Render.Shallow
import Gamebook.Proofs.Render.Tidy
import Gamebook.Proofs.Render.Verbatim
import Gamebook.Proofs.Render.Watch
import Gamebook.Proofs.Render.WellFormed
import Gamebook.Proofs.Store.LookUp
import Gamebook.Proofs.Story.Acts
import Gamebook.Proofs.Story.Apart
import Gamebook.Proofs.Story.Assigning
import Gamebook.Proofs.Story.BackLinks
import Gamebook.Proofs.Story.Forgetting
import Gamebook.Proofs.Story.Hiding
import Gamebook.Proofs.Story.Isolation
import Gamebook.Proofs.Story.Keeping
import Gamebook.Proofs.Story.Lasting
import Gamebook.Proofs.Story.Naming
import Gamebook.Proofs.Story.Recalling
import Gamebook.Proofs.Story.Remembering
import Gamebook.Proofs.Story.Repeating
import Gamebook.Proofs.Story.Replay
import Gamebook.Proofs.Story.Restarting
import Gamebook.Proofs.Story.Resuming
import Gamebook.Proofs.Story.Touching
import Gamebook.Proofs.Story.Twins
import Gamebook.Proofs.Story.Watching
import Gamebook.Proofs.Trail.Grammar
import Gamebook.Proofs.Macro.Params
import Gamebook.Proofs.Store.Indexed
import Gamebook.Proofs.Store.Keyed
import Gamebook.Proofs.Markup.Style
import Gamebook.Proofs.Render.Styled
import Gamebook.Proofs.Render.ClosingLines
