import DataBinding.Evaluator
import DataBinding.Expr.Parser

/-!
# Compiling

A source is cut into tokens, the tokens are read as an expression, and the expression is turned
into a program. The steps that succeed can be logged.

## Main definitions

* `compile` — the evaluator of a source, or the first error in it
* `Record`, `compileLogged` — the same with a log
-/

namespace DataBinding

/-- How important a record of a log is. -/
inductive Level where
  | trace | debug
deriving DecidableEq, Repr

/-- A record of a log. -/
structure Record where
  level : Level
  text : String
deriving DecidableEq, Repr

/-- The evaluator of a source, with a record of each step that was taken. -/
def compileLogged (source : String) : List Record × Except SyntaxError Evaluator :=
  match tokenize source with
  | .error e => ([], .error e)
  | .ok tokens =>
    let count := tokens.length
    let lexed := ⟨.trace, s!"lexed {count} tokens from `{source}`"⟩
    match Expr.ofTokens source tokens with
    | .error e => ([lexed], .error e)
    | .ok expr =>
      let evaluator := (Evaluator.ofExpr expr).withSource source
      let statements := evaluator.program.body.length
      let temporaries := evaluator.program.vars.length
      let generated :=
        ⟨.trace, s!"generated {statements} statements over {temporaries} temporaries"⟩
      let compiled := ⟨.debug, s!"compiled `{source}` ({temporaries} temporaries)"⟩
      ([lexed, generated, compiled], .ok evaluator)

/-- The evaluator of a source. -/
def compile (source : String) : Except SyntaxError Evaluator := (compileLogged source).2

end DataBinding
