import DataBinding.Expr.Basic
import DataBinding.Token.Scanner

/-!
# From tokens to expressions

An expression is read token by token. What has been read so far is a stack of constructs that are
still open, and a mode that says what may come next: an operand, something behind an operand, a
name, a key, or a colon. A token that the mode admits leads to the next state; any other is the
error, since no continuation could make up for it. The words `null`, `true`, `false`, `this` and
`$locals` are keywords where an operand stands, and names after a dot and as keys.

## Main definitions

* `Pending`, `Mode`, `State` — what has been read so far
* `State.next?` — the effect of a token
* `State.outcome` — what has been read as a whole, or what is missing
* `State.fault` — what is wrong with a token that has no effect
* `Expr.ofTokens` — the program that a list of tokens spells
* `Expr.ofSource` — the program that a source spells
-/

namespace DataBinding.Parser

/-- A construct that is still open, with its finished parts; lists of them are in reverse. -/
inductive Pending where
  | array (elements : List Expr)
  | object (properties : List (Key × Expr)) (key : Key)
  | index (object : Expr)
  | call (callee : Expr) (args : List Expr)

/-- What may come next. -/
inductive Mode where
  /-- An operand, or the end of an empty list or of an array with a trailing comma. -/
  | operand
  /-- Something behind a finished expression. -/
  | chain (e : Expr)
  /-- The name after a dot. -/
  | name (object : Expr)
  /-- The key of a property, or the end of an empty object. -/
  | key (properties : List (Key × Expr))
  /-- The colon after a key. -/
  | colon (properties : List (Key × Expr)) (key : Key)

/-- What has been read: the innermost construct comes first. -/
structure State where
  mode : Mode
  pending : List Pending

namespace State

/-- Nothing has been read. -/
def start : State := ⟨.operand, []⟩

/-- The operand that a word is: a keyword or a name. -/
def operandOfWord (word : String) : Expr :=
  if word = "null" then .literal .null
  else if word = "true" then .literal (.bool true)
  else if word = "false" then .literal (.bool false)
  else if word = "this" then .this
  else if word = "$locals" then .locals
  else .ident word

/-- The state after a lexeme where an operand may come. -/
def operand? (pending : List Pending) : Lexeme → Option State
  | .mark .openBracket => some ⟨.operand, .array [] :: pending⟩
  | .mark .openBrace => some ⟨.key [], pending⟩
  | .mark .closeBracket =>
    -- An operand may be missing behind the bracket and behind a comma, so both end an array.
    match pending with
    | .array elements :: pending => some ⟨.chain (.array elements.reverse), pending⟩
    | _ => none
  | .mark .closeParen =>
    -- Behind a comma there are arguments already, and one more has to come.
    match pending with
    | .call callee [] :: pending => some ⟨.chain (.call callee []), pending⟩
    | _ => none
  | .mark _ => none
  | .word word => some ⟨.chain (operandOfWord word), pending⟩
  | .number _ value => some ⟨.chain (.literal (.number value)), pending⟩
  | .str value => some ⟨.chain (.literal (.str value)), pending⟩

/-- The state after a mark behind a finished expression `e` that ends a part of the innermost
construct, or the construct. -/
def close? (e : Expr) : List Pending → Mark → Option State
  | .array elements :: pending, .comma => some ⟨.operand, .array (e :: elements) :: pending⟩
  | .array elements :: pending, .closeBracket =>
    some ⟨.chain (.array (e :: elements).reverse), pending⟩
  | .object properties key :: pending, .comma => some ⟨.key ((key, e) :: properties), pending⟩
  | .object properties key :: pending, .closeBrace =>
    some ⟨.chain (.object ((key, e) :: properties).reverse), pending⟩
  | .index object :: pending, .closeBracket => some ⟨.chain (.index object e), pending⟩
  | .call callee args :: pending, .comma => some ⟨.operand, .call callee (e :: args) :: pending⟩
  | .call callee args :: pending, .closeParen =>
    some ⟨.chain (.call callee (e :: args).reverse), pending⟩
  | _, _ => none

/-- The state after a lexeme behind a finished expression `e`. -/
def chain? (e : Expr) (pending : List Pending) : Lexeme → Option State
  | .mark .dot => some ⟨.name e, pending⟩
  | .mark .openBracket => some ⟨.operand, .index e :: pending⟩
  | .mark .openParen => some ⟨.operand, .call e [] :: pending⟩
  | .mark m => close? e pending m
  | _ => none

/-- The state after a lexeme where a key may come. -/
def key? (properties : List (Key × Expr)) (pending : List Pending) : Lexeme → Option State
  | .mark .closeBrace =>
    match properties with
    | [] => some ⟨.chain (.object []), pending⟩
    | _ => none
  | .mark _ => none
  | .word word => some ⟨.colon properties (.name word), pending⟩
  | .number _ value => some ⟨.colon properties (.literal (.number value)), pending⟩
  | .str value => some ⟨.colon properties (.literal (.str value)), pending⟩

/-- The state after a lexeme, if it can come next. -/
def next? (s : State) (lexeme : Lexeme) : Option State :=
  match s.mode with
  | .operand => operand? s.pending lexeme
  | .chain e => chain? e s.pending lexeme
  | .name object =>
    match lexeme with
    | .word word => some ⟨.chain (.member object word), s.pending⟩
    | _ => none
  | .key properties => key? properties s.pending lexeme
  | .colon properties key =>
    match lexeme with
    | .mark .colon => some ⟨.operand, .object properties key :: s.pending⟩
    | _ => none

/-- The program, if what has been read is complete, and otherwise what messages say is missing. -/
def outcome (s : State) : Except String Expr :=
  match s.mode, s.pending with
  | .operand, _ => .error "expression"
  | .name _, _ => .error "identifier"
  | .key _, _ => .error "property key"
  | .colon _ _, _ => .error ":"
  | .chain e, [] => .ok (.program e)
  | .chain _, .array _ :: _ => .error "]"
  | .chain _, .object _ _ :: _ => .error "\x7d"
  | .chain _, .index _ :: _ => .error "]"
  | .chain _, .call _ _ :: _ => .error ")"

/-- What is wrong with a lexeme that cannot come next. -/
def fault (s : State) (found : Lexeme) : Fault :=
  match s.outcome with
  | .ok _ => .trailingToken found.shown
  | .error expected => .unexpectedToken expected found.shown

/-- Reads the remaining tokens. An error is a fault and its offset, where `size` is the offset of
the end. -/
def run (size : Nat) (s : State) : List Token → Except (Fault × Nat) Expr
  | [] =>
    match s.outcome with
    | .ok e => .ok e
    | .error expected => .error (.unexpectedEnd expected, size)
  | token :: rest =>
    match s.next? token.lexeme with
    | some next => run size next rest
    | none => .error (s.fault token.lexeme, token.pos)

end State

end DataBinding.Parser

namespace DataBinding.Expr

/-- The program that a list of tokens spells. The source tells where an error is, and nothing
else. -/
def ofTokens (source : String) (tokens : List Token) : Except SyntaxError Expr :=
  (Parser.State.start.run (byteSize source.toList) tokens).mapError (.ofFault source)

/-- The program that a source spells. -/
def ofSource (source : String) : Except SyntaxError Expr := do
  ofTokens source (← tokenize source)

end DataBinding.Expr
