import Lsl.Checking.Expression
import Lsl.Checking.Reachability
import Lsl.Checking.Script
import Lsl.Checking.Statement
import Lsl.Checking.Validator
import Lsl.Checking.View
import Lsl.CommandLine
import Lsl.CommandLine.Folder
import Lsl.CommandLine.Run
import Lsl.Compilation
import Lsl.Diagnostic
import Lsl.Diagnostic.Excerpt
import Lsl.Diagnostic.Grammar
import Lsl.Failure
import Lsl.Generation.Constant
import Lsl.Generation.Expression
import Lsl.Generation.Place
import Lsl.Generation.Statement
import Lsl.Json
import Lsl.Json.Text
import Lsl.Library
import Lsl.Library.Bundled
import Lsl.Library.Descriptor
import Lsl.Library.Entry
import Lsl.Library.Metadata
import Lsl.Literal
import Lsl.Literal.Decimal
import Lsl.Main
import Lsl.Markup
import Lsl.Markup.Scanner
import Lsl.Operator
import Lsl.Parsing.Cursor
import Lsl.Parsing.Expression
import Lsl.Parsing.Script
import Lsl.Parsing.Statement
import Lsl.Proofs.Arena.Climbing
import Lsl.Proofs.Arena.Declarations
import Lsl.Proofs.Arena.Expressions
import Lsl.Proofs.Arena.Links
import Lsl.Proofs.Arena.Mirroring
import Lsl.Proofs.Arena.Planting
import Lsl.Proofs.Arena.Statements
import Lsl.Proofs.Arena.Walking
import Lsl.Proofs.Checking.Acceptance
import Lsl.Proofs.Checking.Binding
import Lsl.Proofs.Checking.Body
import Lsl.Proofs.Checking.Boundaries
import Lsl.Proofs.Checking.CheckedBody
import Lsl.Proofs.Checking.Expression
import Lsl.Proofs.Checking.Faultless
import Lsl.Proofs.Checking.Flagging
import Lsl.Proofs.Checking.Inversion
import Lsl.Proofs.Checking.Isolation
import Lsl.Proofs.Checking.Labels
import Lsl.Proofs.Checking.Meaning
import Lsl.Proofs.Checking.Meeting
import Lsl.Proofs.Checking.Overloads
import Lsl.Proofs.Checking.Placing
import Lsl.Proofs.Checking.Preservation
import Lsl.Proofs.Checking.Provenance
import Lsl.Proofs.Checking.Readiness
import Lsl.Proofs.Checking.Referents
import Lsl.Proofs.Checking.Relocating
import Lsl.Proofs.Checking.Remarks
import Lsl.Proofs.Checking.Resolution
import Lsl.Proofs.Checking.Rules
import Lsl.Proofs.Checking.Run
import Lsl.Proofs.Checking.Script
import Lsl.Proofs.Checking.Soundness
import Lsl.Proofs.Checking.Spelling
import Lsl.Proofs.Checking.Spots
import Lsl.Proofs.Checking.Statement
import Lsl.Proofs.Checking.Tracking
import Lsl.Proofs.Checking.Typing
import Lsl.Proofs.Checking.Validator
import Lsl.Proofs.Checking.Valued
import Lsl.Proofs.Diagnostic.Assignability
import Lsl.Proofs.Diagnostic.Caret
import Lsl.Proofs.Diagnostic.Lines
import Lsl.Proofs.Diagnostic.Mismatches
import Lsl.Proofs.Flow.Graph
import Lsl.Proofs.Flow.Hoisting
import Lsl.Proofs.Flow.Initialization
import Lsl.Proofs.Flow.Jumps
import Lsl.Proofs.Flow.Liveness
import Lsl.Proofs.Flow.Partition
import Lsl.Proofs.Flow.Reachable
import Lsl.Proofs.Flow.Regions
import Lsl.Proofs.Flow.Scoping
import Lsl.Proofs.Flow.Separation
import Lsl.Proofs.Generation.Closure
import Lsl.Proofs.Generation.Effects
import Lsl.Proofs.Generation.Emission
import Lsl.Proofs.Generation.Independence
import Lsl.Proofs.Generation.Jumps
import Lsl.Proofs.Generation.Labelling
import Lsl.Proofs.Generation.Lists
import Lsl.Proofs.Generation.Locals
import Lsl.Proofs.Generation.Members
import Lsl.Proofs.Generation.Modes
import Lsl.Proofs.Generation.Naming
import Lsl.Proofs.Generation.Numbers
import Lsl.Proofs.Generation.Performing
import Lsl.Proofs.Generation.Progress
import Lsl.Proofs.Generation.Requests
import Lsl.Proofs.Generation.Standing
import Lsl.Proofs.Generation.Updating
import Lsl.Proofs.Generation.Valuing
import Lsl.Proofs.Json.Text
import Lsl.Proofs.Library.Attributes
import Lsl.Proofs.Library.Formation
import Lsl.Proofs.Library.Subsets
import Lsl.Proofs.Literal.Formatting
import Lsl.Proofs.Literal.Numerals
import Lsl.Proofs.Literal.Strings
import Lsl.Proofs.Markup.Attributes
import Lsl.Proofs.Parsing.Balance
import Lsl.Proofs.Parsing.Blaming
import Lsl.Proofs.Parsing.Deriving
import Lsl.Proofs.Parsing.Descent
import Lsl.Proofs.Parsing.Enclosing
import Lsl.Proofs.Parsing.Fidelity
import Lsl.Proofs.Parsing.Finding
import Lsl.Proofs.Parsing.Grammar
import Lsl.Proofs.Parsing.Layout
import Lsl.Proofs.Parsing.Nesting
import Lsl.Proofs.Parsing.Numbering
import Lsl.Proofs.Parsing.Operands
import Lsl.Proofs.Parsing.Phrases
import Lsl.Proofs.Parsing.Clauses
import Lsl.Proofs.Parsing.Declarations
import Lsl.Proofs.Parsing.Precedence
import Lsl.Proofs.Parsing.Recovery
import Lsl.Proofs.Parsing.Reporting
import Lsl.Proofs.Parsing.Script
import Lsl.Proofs.Parsing.Spanning
import Lsl.Proofs.Parsing.Taking
import Lsl.Proofs.Parsing.Termination
import Lsl.Proofs.Parsing.Turns
import Lsl.Proofs.Parsing.Unbounded
import Lsl.Proofs.Parsing.Wording
import Lsl.Proofs.Settings.Document
import Lsl.Proofs.Signature.Construction
import Lsl.Proofs.Signature.Parameters
import Lsl.Proofs.Signature.ReadBack
import Lsl.Proofs.Syntax.Bodies
import Lsl.Proofs.Syntax.Children
import Lsl.Proofs.Syntax.Flags
import Lsl.Proofs.Syntax.Mentions
import Lsl.Proofs.Syntax.Outline
import Lsl.Proofs.Syntax.Parts
import Lsl.Proofs.Syntax.Plain
import Lsl.Proofs.Syntax.Scopes
import Lsl.Proofs.Syntax.Variables
import Lsl.Proofs.Syntax.Words
import Lsl.Proofs.Target.Operations
import Lsl.Proofs.Target.Terms
import Lsl.Proofs.Text.Words
import Lsl.Proofs.Timestamp.Calendar
import Lsl.Proofs.Token.Numbers
import Lsl.Proofs.Token.Reach
import Lsl.Proofs.Token.Spacing
import Lsl.Proofs.Token.Texts
import Lsl.Proofs.Token.Tiling
import Lsl.Settings
import Lsl.Settings.Document
import Lsl.Settings.Format
import Lsl.Signature
import Lsl.Signature.Reading
import Lsl.Source
import Lsl.Syntax.Expr
import Lsl.Syntax.Outline
import Lsl.Syntax.Script
import Lsl.Syntax.Stmt
import Lsl.Syntax.Uses
import Lsl.Target.Code
import Lsl.Target.Program
import Lsl.Target.Text
import Lsl.Target.Types
import Lsl.Text.Blank
import Lsl.Text.Quoted
import Lsl.Timestamp
import Lsl.Token
import Lsl.Token.Lexeme
import Lsl.Token.Stream
import Lsl.ValueType
