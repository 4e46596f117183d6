import DataBinding.Expr.Printer
import DataBinding.Program.OfExpr
import DataBinding.Program.Run
import DataBinding.Program.Text
import DataBinding.Report

/-!
# Evaluators

An evaluator is a program together with the source that it reports. It can be run any number of
times, in different scopes.

## Main definitions

* `Evaluator.ofExpr` — the evaluator of an expression, which reports the text of the expression
* `Evaluator.eval` — the value in a context with locals
* `Evaluator.report` — the source and the program as a report
-/

namespace DataBinding

/-- A program and the source that it reports. -/
structure Evaluator where
  source : String
  program : Program

namespace Evaluator

/-- The evaluator of an expression. -/
def ofExpr (e : Expr) : Evaluator := ⟨e.text, .ofExpr e⟩

/-- The same program with another source. -/
def withSource (e : Evaluator) (source : String) : Evaluator := { e with source }

/-- The value in a context with locals, if there are any. -/
def eval {m : Type → Type} [Monad m] (e : Evaluator) (host : Host m) (context : Value)
    (locals? : Option Value) : m Value :=
  e.program.run host ⟨context, locals?⟩

/-- The value without a context and without locals. -/
def evalConstant {m : Type → Type} [Monad m] (e : Evaluator) (host : Host m) : m Value :=
  e.program.run host .empty

/-- Whether the value does not depend on the scope. -/
def isConstant (e : Evaluator) : Bool := e.program.isConstant

/-- The source and the program. -/
def report (e : Evaluator) : String :=
  (((Report.empty.heading.addSection "source" e.source).addSection "program"
    e.program.text).footer).text

end Evaluator

end DataBinding
