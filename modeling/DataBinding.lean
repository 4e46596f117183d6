import DataBinding.Compile
import DataBinding.Expr.Eval
import DataBinding.Expr.Grammar
import DataBinding.Value.Document
import DataBinding.Proofs.Expr.Acceptance
import DataBinding.Proofs.Number.Rounding
import DataBinding.Proofs.Program.Simulation
import DataBinding.Proofs.Number.Shortest
import DataBinding.Proofs.Number.Numeral
import DataBinding.Proofs.Number.Text
import DataBinding.Proofs.Token.Number
import DataBinding.Proofs.Token.StringBody
import DataBinding.Proofs.Token.Slices
import DataBinding.Proofs.Token.Strings
import DataBinding.Proofs.Expr.Faults
import DataBinding.Proofs.Expr.Readable
import DataBinding.Proofs.Expr.Printing
import DataBinding.Proofs.Expr.RoundTrip
import DataBinding.Proofs.Program.Visibility
import DataBinding.Proofs.Program.CodeString
import DataBinding.Proofs.Program.Operands
import DataBinding.Proofs.Program.Spellable
import DataBinding.Proofs.Program.Constants
import DataBinding.Proofs.Program.Unambiguous
import DataBinding.Proofs.Token.Respacing
import DataBinding.Proofs.Program.Respacing
import DataBinding.Proofs.Expr.Sources
import DataBinding.Proofs.Number.Integer
import DataBinding.Proofs.Program.Constancy
import DataBinding.Proofs.Program.Substitution
import DataBinding.Proofs.Program.Chains
import DataBinding.Proofs.Program.Paths
import DataBinding.Proofs.Number.Whole
import DataBinding.Proofs.Value.Property
import DataBinding.Proofs.Value.WellFormed
import DataBinding.Proofs.Program.WellFormed
import DataBinding.Proofs.Program.Objects
import DataBinding.Proofs.Token.Numbers
import DataBinding.Proofs.Token.Progress
import DataBinding.Proofs.Token.Misspellings
import DataBinding.Proofs.Value.Equality
import DataBinding.Proofs.Value.Elements
import DataBinding.Proofs.Text.Lines
import DataBinding.Proofs.Expr.Locations
import DataBinding.Proofs.Expr.Wording
import DataBinding.Proofs.Program.Messages
import DataBinding.Proofs.Token.NumberText
import DataBinding.Proofs.Number.Order
import DataBinding.Proofs.Number.Value
import DataBinding.Proofs.Number.Fewest
import DataBinding.Proofs.Number.Forms
