import DataBinding.Value.Document
import DataBinding.Proofs.Expr.RoundTrip
import DataBinding.Proofs.Number.Integer
import DataBinding.Proofs.Program.Chains
import DataBinding.Proofs.Program.Respacing

/-!
# Paths into documents

Every part of a document can be addressed. A path leads through the fields of objects and the
elements of arrays; written behind `this`, each step as the text of its name or its index between
brackets, it is a source, and against the document its value is the part that the path leads to.

## Main definitions

* `Document.Step`, `Document.at?` — steps, and the part that a path of them leads to
* `Document.pathSource`, `Document.pathExpr` — a path as a source and as an expression

## Main results

* `Document.getProperty_child` — the property of a step is the value of the part
* `Document.ofSource_pathSource` — the source of a path spells its expression
* `Program.compile_pathSource` — the value of a path
-/

namespace DataBinding

namespace Document

/-- A step into a document: to the field of a name, or to the element at an index. -/
inductive Step where
  | field (name : String)
  | element (index : Nat)

/-- The literal that stands for a step. -/
def Step.literal : Step → Literal
  | field name => .str name
  | element index => .number (.ofInt index)

/-- The part that a step leads to. Of several fields of one name the last counts. -/
def child? : Document → Step → Option Document
  | object fields, .field name => fields.reverse.lookup name
  | array elements, .element index => elements[index]?
  | _, _ => none

/-- The part that a path leads to. -/
def at? (d : Document) (path : List Step) : Option Document := path.foldlM child? d

/-- The source of a path: the literal of each step between brackets. -/
def pathSource (path : List Step) : String :=
  String.ofList ("this".toList ++ path.flatMap fun step => '[' :: step.literal.chars ++ [']'])

/-- The links of a path. -/
def pathLinks (path : List Step) : List Link := path.map fun step => .index (.literal step.literal)

/-- The expression of a path. -/
def pathExpr (path : List Step) : Expr := Expr.this.chain (pathLinks path)

/-! ### The part that a path leads to -/

theorem ofDocuments_eq_map (ds : List Document) :
    Value.ofDocuments ds = ds.map Value.ofDocument := by
  induction ds with
  | nil => rfl
  | cons d rest ih => rw [Value.ofDocuments, ih, List.map_cons]

theorem lookup_ofDocumentFields (fields : List (String × Document)) (name : String) :
    (Value.ofDocumentFields fields).reverse.lookup name =
      (fields.reverse.lookup name).map Value.ofDocument := by
  induction fields with
  | nil => rfl
  | cons field rest ih =>
    obtain ⟨k, d⟩ := field
    rw [Value.ofDocumentFields, List.reverse_cons, List.reverse_cons, List.lookup_append,
      List.lookup_append, ih, Option.map_or, List.lookup_cons, List.lookup_cons]
    congr 1
    cases name == k <;> rfl

/-- The value of a document with a part passes the guard, and has the part as the property of the
literal that stands for the step. -/
theorem getProperty_child {d part : Document} {step : Step} (h : d.child? step = some part)
    (small : ∀ index, step = .element index → index < 2 ^ 53) :
    (Value.ofDocument d).truthy = true ∧
      (Value.ofDocument d).getProperty (.ofLiteral step.literal) = Value.ofDocument part := by
  cases d with
  | object fields =>
    cases step with
    | field name =>
      have found : (Fields.ofList (Value.ofDocumentFields fields)).find? name =
          some (Value.ofDocument part) := by
        rw [child?] at h
        rw [Fields.find?_ofList, lookup_ofDocumentFields, h, Option.map_some]
      -- Among fields, `length` and digits are names like all others.
      have text : (Value.str name).text = name := String.ofList_toList
      refine ⟨rfl, ?_⟩
      change Value.get (.map _) (Value.str name).text = _
      rw [text, Value.get, found, Option.getD_some]
    | element index => cases h
  | array elements =>
    cases step with
    | field name => cases h
    | element index =>
      rw [child?] at h
      refine ⟨rfl, ?_⟩
      simp only [Value.ofDocument, Step.literal, Value.ofLiteral, Value.getProperty,
        Value.elements?, Number.toIndex?_ofInt (small index rfl), Value.element,
        ofDocuments_eq_map, List.getElem?_map, h, Option.map_some, Option.getD_some]
  | _ => cases step <;> cases h

section Follow

variable {m : Type → Type} [Monad m] [LawfulMonad m] (host : Host m) (s : Scope)

/-- Against the value of a document, the links of a path come to the value of the part that the path
leads to. -/
theorem foldlM_follow {d part : Document} {path : List Step} (leads : d.at? path = some part)
    (small : ∀ index, .element index ∈ path → index < 2 ^ 53) :
    (pathLinks path).foldlM (fun v l => l.follow host s v) (Value.ofDocument d) =
      pure (Value.ofDocument part) := by
  induction path generalizing d with
  | nil =>
    cases leads
    rfl
  | cons step rest ih =>
    obtain ⟨child, first, more⟩ := Option.bind_eq_some_iff.1 leads
    -- What has a part is an object or an array, and no guard stops those.
    obtain ⟨passes, property⟩ :=
      getProperty_child first fun index eq => small index (eq ▸ List.mem_cons_self)
    have inner := ih more fun index mem => small index (List.mem_cons_of_mem _ mem)
    rw [pathLinks, List.map_cons, List.foldlM_cons, Link.follow, Expr.evalParts, pure_bind,
      if_pos passes, property, pure_bind]
    exact inner

end Follow

/-! ### The source of a path -/

/-- The text of the expression of a path is the source of the path. -/
theorem chars_chain_pathLinks (e : Expr) (path : List Step) :
    (e.chain (pathLinks path)).chars =
      e.chars ++ path.flatMap fun step => '[' :: step.literal.chars ++ [']'] := by
  induction path generalizing e with
  | nil => simp [pathLinks, Expr.chain]
  | cons step rest ih =>
    have link : (Expr.index e (.literal step.literal)).chars =
        e.chars ++ '[' :: (step.literal.chars ++ [']']) := Expr.chars_index e _
    change ((Expr.index e (.literal step.literal)).chain (pathLinks rest)).chars = _
    rw [ih, link, List.flatMap_cons]
    simp

/-- A source can spell the literal of a step, and its text reads back. -/
theorem Step.literal_readable {step : Step}
    (small : ∀ index, step = .element index → index < 2 ^ 53) :
    step.literal.Readable ∧ step.literal.isInfinite = false := by
  cases step with
  | field name => exact ⟨trivial, rfl⟩
  | element index =>
    obtain ⟨x, eq, -⟩ := Number.ofInt_natCast (small index rfl)
    rw [literal, eq]
    exact ⟨rfl, rfl⟩

/-- A source can spell all nodes of a path behind an expression with such nodes, and its text reads
back. -/
theorem nodes_chain_pathLinks {e : Expr} {path : List Step}
    (small : ∀ index, .element index ∈ path → index < 2 ^ 53)
    (h : ∀ x ∈ e.nodes, x.Readable ∧ x.Plain) :
    ∀ x ∈ (e.chain (pathLinks path)).nodes, x.Readable ∧ x.Plain := by
  induction path generalizing e with
  | nil => exact h
  | cons step rest ih =>
    have key := Step.literal_readable fun index eq => small index (eq ▸ List.mem_cons_self)
    refine ih (e := .index e (.literal step.literal))
      (fun index mem => small index (List.mem_cons_of_mem _ mem)) ?_
    rw [Expr.nodes, List.forall_mem_cons, List.forall_mem_append]
    refine ⟨⟨trivial, rfl, rfl⟩, h, ?_⟩
    simpa [Expr.nodes, Expr.Readable, Expr.Plain, Expr.holdsInfinity, Expr.isNumberMember] using key

/-- The source of a path spells the expression of the path. -/
theorem ofSource_pathSource {path : List Step}
    (small : ∀ index, .element index ∈ path → index < 2 ^ 53) :
    Expr.ofSource (pathSource path) = .ok (.program (pathExpr path)) := by
  have this : ∀ x ∈ Expr.this.nodes, x.Readable ∧ x.Plain := by
    simp [Expr.nodes, Expr.Readable, Expr.Plain, Expr.holdsInfinity, Expr.isNumberMember]
  -- The scanner and the parser are not run: the text of the expression reads back.
  have nodes := nodes_chain_pathLinks small this
  have text : pathSource path = String.ofList (pathExpr path).chars :=
    congrArg String.ofList (chars_chain_pathLinks .this path).symm
  rw [text]
  exact Expr.ofSource_chars (fun x mem => (nodes x mem).1) fun x mem => (nodes x mem).2

end Document

namespace Program

/-- The source of a path compiles, and against the value of a document its value is that of the part
to which the path leads, with or without locals, whatever the host does, and calling nothing. -/
theorem compile_pathSource {d part : Document} {path : List Document.Step}
    (leads : d.at? path = some part) (small : ∀ index, .element index ∈ path → index < 2 ^ 53) :
    ∃ evaluator, compile (Document.pathSource path) = .ok evaluator ∧
      ∀ {m : Type → Type} [Monad m] [LawfulMonad m] (host : Host m) (locals? : Option Value),
        evaluator.eval host (.ofDocument d) locals? = pure (.ofDocument part) := by
  have compiled := compile_program (Document.pathSource path)
  rw [Document.ofSource_pathSource small] at compiled
  cases result : compile (Document.pathSource path) with
  | error e =>
    rw [result] at compiled
    cases compiled
  | ok evaluator =>
    rw [result] at compiled
    have program : evaluator.program = ofExpr (.program (Document.pathExpr path)) :=
      Except.ok.inj compiled
    refine ⟨evaluator, rfl, fun host locals? => ?_⟩
    rw [Evaluator.eval, program, run_eq_resume, Expr.answer, Document.pathExpr,
      Expr.evalParts_chain, Expr.evalParts, pure_bind, Document.foldlM_follow host _ leads small,
      Expr.resume_pure]

/-- A path through names with a quote and without any character, and through an index. -/
theorem compile_pathSource_quote :
    let d : Document := .object
      [("length", .null), ("it's", .array [.null, .object [("", .bool true)]])]
    let path : List Document.Step := [.field "it's", .element 1, .field ""]
    let source := "this['it\\'s'][1]['']"
    Document.pathSource path = source ∧ d.at? path = some (.bool true) ∧
      (∀ index, .element index ∈ path → index < 2 ^ 53) ∧
      ∃ evaluator, compile source = .ok evaluator ∧
        ∀ {m : Type → Type} [Monad m] [LawfulMonad m] (host : Host m),
          evaluator.eval host (.ofDocument d) (some .null) = pure (.bool true) := by
  intro d path source
  have leads : d.at? path = some (.bool true) := rfl
  have small : ∀ index, .element index ∈ path → index < 2 ^ 53 := by
    intro index mem
    have one : index = 1 := by simpa [path] using mem
    omega
  have text : Document.pathSource path = source := by decide +kernel
  obtain ⟨evaluator, compiled, eval⟩ := compile_pathSource leads small
  rw [text] at compiled
  exact ⟨text, leads, small, evaluator, compiled, fun host => eval host (some .null)⟩

end Program

end DataBinding
