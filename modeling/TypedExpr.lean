import TypedExpr.Binder
import TypedExpr.Binding
import TypedExpr.Compile
import TypedExpr.CompileError
import TypedExpr.ContextKeywords
import TypedExpr.Conversion
import TypedExpr.Eval
import TypedExpr.EvalError
import TypedExpr.Expr.Basic
import TypedExpr.Expr.Evaluate
import TypedExpr.Expr.Promote
import TypedExpr.Grammar
import TypedExpr.Guid
import TypedExpr.Member.Builtin
import TypedExpr.Member.Table
import TypedExpr.Numeric.Binary
import TypedExpr.Numeric.IntType
import TypedExpr.Numeric.NumberText
import TypedExpr.Numeric.Shortest
import TypedExpr.Numeric.WordOps
import TypedExpr.Operator.Apply
import TypedExpr.Operator.Basic
import TypedExpr.OrderingKey
import TypedExpr.Overload
import TypedExpr.Parameter
import TypedExpr.Proofs.Consistency
import TypedExpr.Proofs.Conversion
import TypedExpr.Proofs.Conversion.Convertible
import TypedExpr.Proofs.Conversion.Integral
import TypedExpr.Proofs.Ensures
import TypedExpr.Proofs.Evaluation.Conforming
import TypedExpr.Proofs.Evaluation.Fusion
import TypedExpr.Proofs.Evaluation.Indifferent
import TypedExpr.Proofs.Evaluation.Items
import TypedExpr.Proofs.Evaluation.Native
import TypedExpr.Proofs.Evaluation.Nodes
import TypedExpr.Proofs.Evaluation.Occurrence
import TypedExpr.Proofs.Evaluation.Reading
import TypedExpr.Proofs.Evaluation.Soundness
import TypedExpr.Proofs.Grouping.Candidates
import TypedExpr.Proofs.Grouping.Containment
import TypedExpr.Proofs.Grouping.Covering
import TypedExpr.Proofs.Grouping.Disjunction
import TypedExpr.Proofs.Grouping.Embedding
import TypedExpr.Proofs.Grouping.Membership
import TypedExpr.Proofs.Grouping.Operands
import TypedExpr.Proofs.Grouping.Operators
import TypedExpr.Proofs.Grouping.Spelling
import TypedExpr.Proofs.Grouping.Synonyms
import TypedExpr.Proofs.Grouping.Transparency
import TypedExpr.Proofs.Keywords.Abbreviation
import TypedExpr.Proofs.Keywords.Following
import TypedExpr.Proofs.Keywords.Grammar
import TypedExpr.Proofs.Keywords.Respelling
import TypedExpr.Proofs.Keywords.Toggle
import TypedExpr.Proofs.Lexing.Literals
import TypedExpr.Proofs.Lexing.Rendering
import TypedExpr.Proofs.Lexing.Spans
import TypedExpr.Proofs.Lockstep.Aligned
import TypedExpr.Proofs.Lockstep.Coupling
import TypedExpr.Proofs.Lockstep.Grammar
import TypedExpr.Proofs.Lockstep.Members
import TypedExpr.Proofs.Lockstep.Tokens
import TypedExpr.Proofs.Operands.Commutative
import TypedExpr.Proofs.Operands.Exchange
import TypedExpr.Proofs.Operands.Inequality
import TypedExpr.Proofs.Operands.Integers
import TypedExpr.Proofs.Operands.Mirrored
import TypedExpr.Proofs.Operands.Promotion
import TypedExpr.Proofs.Operands.Shifts
import TypedExpr.Proofs.Operands.Unify
import TypedExpr.Proofs.Precedence.Atoms
import TypedExpr.Proofs.Precedence.Levels
import TypedExpr.Proofs.Precedence.Offsets
import TypedExpr.Proofs.Precedence.Parsing
import TypedExpr.Proofs.Precedence.Pieces
import TypedExpr.Proofs.Precedence.Running
import TypedExpr.Proofs.Precedence.Scanning
import TypedExpr.Proofs.Precedence.Tree
import TypedExpr.Proofs.Projections
import TypedExpr.Proofs.Reading.Conservation
import TypedExpr.Proofs.Reading.Cursor
import TypedExpr.Proofs.Reading.Demand
import TypedExpr.Proofs.Reading.ErrorOffsets
import TypedExpr.Proofs.Reading.Grammar
import TypedExpr.Proofs.Resolution.Caching
import TypedExpr.Proofs.Resolution.Composed
import TypedExpr.Proofs.Resolution.Naming
import TypedExpr.Proofs.Resolution.Overloading
import TypedExpr.Proofs.Scoping
import TypedExpr.Proofs.Sequences.Extremes
import TypedExpr.Proofs.Sequences.Representatives
import TypedExpr.Proofs.Sequences.Selecting
import TypedExpr.Proofs.Sequences.Sums
import TypedExpr.Proofs.Sorting.Ordering
import TypedExpr.Proofs.Sorting.Ranking
import TypedExpr.Proofs.Sorting.Trichotomy
import TypedExpr.Proofs.TypeSafety
import TypedExpr.Proofs.Typing.Binder
import TypedExpr.Proofs.Typing.Binding
import TypedExpr.Proofs.Typing.Calls
import TypedExpr.Proofs.Typing.Compile
import TypedExpr.Proofs.Typing.Grammar
import TypedExpr.Proofs.Typing.Judgement
import TypedExpr.Proofs.Typing.Promotion
import TypedExpr.Proofs.Typing.WellFormed
import TypedExpr.Proofs.Value.Arithmetic
import TypedExpr.Proofs.Value.Casting
import TypedExpr.Proofs.Value.Conformance
import TypedExpr.Proofs.Value.Enumerations
import TypedExpr.Proofs.Value.Equivalence
import TypedExpr.Proofs.Value.Fitting
import TypedExpr.Proofs.Value.Floats
import TypedExpr.Proofs.Value.Mirror
import TypedExpr.Proofs.Value.Operators
import TypedExpr.Proofs.Value.Parts
import TypedExpr.Proofs.Value.Positions
import TypedExpr.Proofs.Value.Renaming
import TypedExpr.Proofs.Value.ShownType
import TypedExpr.Proofs.Value.Texts
import TypedExpr.Registry
import TypedExpr.Schema
import TypedExpr.Scope
import TypedExpr.Sequence.Apply
import TypedExpr.Sequence.Method
import TypedExpr.Text.Alphabetic
import TypedExpr.Text.Blank
import TypedExpr.Text.BlockTable
import TypedExpr.Text.CaseTable
import TypedExpr.Text.CharRange
import TypedExpr.Text.LetterCase
import TypedExpr.Text.Part
import TypedExpr.Text.Scan
import TypedExpr.Text.Search
import TypedExpr.Text.Strip
import TypedExpr.Text.Window
import TypedExpr.Token.Basic
import TypedExpr.Token.Lexer
import TypedExpr.Ty
import TypedExpr.Value.Basic
import TypedExpr.Value.Cast
import TypedExpr.Value.Coerce
import TypedExpr.Value.Equality
import TypedExpr.Value.Number
import TypedExpr.Value.Order
import TypedExpr.Proofs.Lexing.Numerals
import TypedExpr.Proofs.Precedence.IntegerLiterals
