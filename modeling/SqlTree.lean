import SqlTree.Codec.Expr
import SqlTree.Codec.Node
import SqlTree.Codec.Query
import SqlTree.Codec.Scalar
import SqlTree.Config
import SqlTree.Double
import SqlTree.Double.Nearest
import SqlTree.Double.Shortest
import SqlTree.Double.Text
import SqlTree.Draft
import SqlTree.Draft.Expr
import SqlTree.Expr
import SqlTree.Expr.Same
import SqlTree.Expr.Text
import SqlTree.Feed
import SqlTree.Grouping
import SqlTree.Grouping.Enumeration
import SqlTree.Json
import SqlTree.Json.Decoder
import SqlTree.Json.Reader
import SqlTree.Json.Text
import SqlTree.Kind
import SqlTree.Literal
import SqlTree.Location
import SqlTree.Name
import SqlTree.Node
import SqlTree.Node.Children
import SqlTree.Numeral
import SqlTree.Proofs.Checked
import SqlTree.Proofs.Codec.Admitted.Expr
import SqlTree.Proofs.Codec.Admitted.Node
import SqlTree.Proofs.Codec.Admitted.Query
import SqlTree.Proofs.Codec.Admitted.Scalar
import SqlTree.Proofs.Codec.Decimal
import SqlTree.Proofs.Codec.Expr
import SqlTree.Proofs.Codec.Fields
import SqlTree.Proofs.Codec.Gives
import SqlTree.Proofs.Codec.Node
import SqlTree.Proofs.Codec.Query
import SqlTree.Proofs.Codec.Reads
import SqlTree.Proofs.Codec.Reads.Expr
import SqlTree.Proofs.Codec.Reads.Node
import SqlTree.Proofs.Codec.Reads.Scalar
import SqlTree.Proofs.Codec.Restores
import SqlTree.Proofs.Codec.RoundTrip
import SqlTree.Proofs.Codec.Scalar
import SqlTree.Proofs.Codec.Shape
import SqlTree.Proofs.Codec.Soundness
import SqlTree.Proofs.Codec.Spelling
import SqlTree.Proofs.Config
import SqlTree.Proofs.Double.Interval
import SqlTree.Proofs.Double.Nearest
import SqlTree.Proofs.Double.Shortest
import SqlTree.Proofs.Double.Written
import SqlTree.Proofs.Except
import SqlTree.Proofs.Expr.Canonical
import SqlTree.Proofs.Expr.Draft
import SqlTree.Proofs.Expr.Feed
import SqlTree.Proofs.Expr.Flipped
import SqlTree.Proofs.Expr.Plain
import SqlTree.Proofs.Expr.Text
import SqlTree.Proofs.Grouping.Canonical
import SqlTree.Proofs.Grouping.CrossProduct
import SqlTree.Proofs.Grouping.Cube
import SqlTree.Proofs.Grouping.Dedup
import SqlTree.Proofs.Grouping.Limit
import SqlTree.Proofs.Grouping.Reordered
import SqlTree.Proofs.Grouping.Rollup
import SqlTree.Proofs.Grouping.Sets
import SqlTree.Proofs.Grouping.Words
import SqlTree.Proofs.Json.Numerals
import SqlTree.Proofs.Json.Reading
import SqlTree.Proofs.Json.Strings
import SqlTree.Proofs.Literal.Decimal
import SqlTree.Proofs.Lookup
import SqlTree.Proofs.Node.Alike
import SqlTree.Proofs.Node.Draft
import SqlTree.Proofs.Node.Feed
import SqlTree.Proofs.Node.Finite
import SqlTree.Proofs.Node.Mapped
import SqlTree.Proofs.Node.Rebuilt
import SqlTree.Proofs.Node.RebuiltValid
import SqlTree.Proofs.Node.Refill
import SqlTree.Proofs.Node.Revised
import SqlTree.Proofs.Node.RevisedParts
import SqlTree.Proofs.Node.Same
import SqlTree.Proofs.Node.Substituted
import SqlTree.Proofs.Node.Validity
import SqlTree.Proofs.Properties
import SqlTree.Proofs.Properties.Built
import SqlTree.Proofs.Properties.Insert
import SqlTree.Proofs.Properties.Text
import SqlTree.Proofs.Rewrite.Agreement
import SqlTree.Proofs.Rewrite.AlikeRoots
import SqlTree.Proofs.Rewrite.AsRules
import SqlTree.Proofs.Rewrite.ByReplacement
import SqlTree.Proofs.Rewrite.ByRules
import SqlTree.Proofs.Rewrite.Correspondence
import SqlTree.Proofs.Rewrite.DepthLimit
import SqlTree.Proofs.Rewrite.FirstFault
import SqlTree.Proofs.Rewrite.Identity
import SqlTree.Proofs.Rewrite.Instance
import SqlTree.Proofs.Rewrite.Journal
import SqlTree.Proofs.Rewrite.Mapping
import SqlTree.Proofs.Rewrite.Outcome
import SqlTree.Proofs.Rewrite.Outermost
import SqlTree.Proofs.Rewrite.Registrations
import SqlTree.Proofs.Rewrite.Run
import SqlTree.Proofs.Rewrite.Treatment
import SqlTree.Proofs.Rewrite.Types
import SqlTree.Proofs.Rewrite.Unruled
import SqlTree.Proofs.Rewrite.Validity
import SqlTree.Proofs.Rewrite.Walk
import SqlTree.Proofs.Text.Reading
import SqlTree.Proofs.Text.Types
import SqlTree.Proofs.Toml.Documents
import SqlTree.Proofs.Toml.Strings
import SqlTree.Properties
import SqlTree.Query
import SqlTree.Relation
import SqlTree.Rewrite
import SqlTree.Rewrite.Action
import SqlTree.Rewrite.Event
import SqlTree.Rewrite.Overrides
import SqlTree.Rewrite.Replacement
import SqlTree.Rewrite.Rules
import SqlTree.SqlType
import SqlTree.Statement
import SqlTree.Symbol
import SqlTree.TableElement
import SqlTree.Text.Delimited
import SqlTree.Text.Hex
import SqlTree.Text.Quoted
import SqlTree.Text.Shown
import SqlTree.TimeSpan
import SqlTree.Toml
import SqlTree.Toml.Reader
import SqlTree.Toml.Text
import SqlTree.Violation
import SqlTree.Window
