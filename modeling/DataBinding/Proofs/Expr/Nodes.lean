import DataBinding.Expr.Basic
import DataBinding.Program.OfExpr

/-!
# The nodes of an expression

Statements about everything that occurs in an expression range over its nodes: the expression
itself, its parts, the parts of these, and so on.

## Main definitions

* `Expr.nodes` — all nodes, the expression itself first
* `Expr.isLookup` — whether a node looks something up or calls
* `Expr.ProgramFree` — no node is a program

## Main results

* `Expr.nodes_subset` — the nodes of a node
-/

namespace DataBinding.Expr

mutual

/-- All nodes of an expression: the expression itself, and then those of its parts in the order of
the source. -/
def nodes : Expr → List Expr
  | program body => program body :: nodes body
  | literal value => [literal value]
  | array elements => array elements :: nodesList elements
  | object properties => object properties :: nodesProperties properties
  | ident name => [ident name]
  | this => [this]
  | locals => [locals]
  | member e name => member e name :: nodes e
  | index e key => index e key :: (nodes e ++ nodes key)
  | call callee args => call callee args :: (nodes callee ++ nodesList args)

/-- The nodes of several expressions. -/
def nodesList : List Expr → List Expr
  | [] => []
  | e :: rest => nodes e ++ nodesList rest

/-- The nodes of the values of properties. -/
def nodesProperties : List (Key × Expr) → List Expr
  | [] => []
  | (_, e) :: rest => nodes e ++ nodesProperties rest

end

theorem nodesList_append (es es' : List Expr) :
    nodesList (es ++ es') = nodesList es ++ nodesList es' := by
  induction es with
  | nil => rfl
  | cons e rest ih => simp [nodesList, ih]

/-- The expression itself is its first node. -/
theorem nodes_eq_cons (e : Expr) : e.nodes = e :: e.nodes.tail := by
  cases e <;> rfl

theorem mem_nodes (e : Expr) : e ∈ e.nodes := by
  rw [nodes_eq_cons]
  exact List.mem_cons_self

mutual

/-- The nodes of a node are nodes of the expression. -/
theorem nodes_subset {e x : Expr} (h : x ∈ e.nodes) : x.nodes ⊆ e.nodes := by
  rw [nodes_eq_cons e] at h
  rcases List.mem_cons.1 h with rfl | part
  · exact List.Subset.refl _
  · cases e with
    | program body => exact List.subset_cons_of_subset _ (nodes_subset part)
    | array elements => exact List.subset_cons_of_subset _ (nodesList_subset part)
    | object properties => exact List.subset_cons_of_subset _ (nodesProperties_subset part)
    | member e name => exact List.subset_cons_of_subset _ (nodes_subset part)
    | index e key =>
      rcases List.mem_append.1 part with object | key
      · exact List.subset_cons_of_subset _
          (List.subset_append_of_subset_left _ (nodes_subset object))
      · exact List.subset_cons_of_subset _
          (List.subset_append_of_subset_right _ (nodes_subset key))
    | call callee args =>
      rcases List.mem_append.1 part with callee | args
      · exact List.subset_cons_of_subset _
          (List.subset_append_of_subset_left _ (nodes_subset callee))
      · exact List.subset_cons_of_subset _
          (List.subset_append_of_subset_right _ (nodesList_subset args))
    | _ => cases part

theorem nodesList_subset {es : List Expr} {x : Expr} (h : x ∈ nodesList es) :
    x.nodes ⊆ nodesList es := by
  cases es with
  | nil => cases h
  | cons e rest =>
    rcases List.mem_append.1 h with first | others
    · exact List.subset_append_of_subset_left _ (nodes_subset first)
    · exact List.subset_append_of_subset_right _ (nodesList_subset others)

theorem nodesProperties_subset {ps : List (Key × Expr)} {x : Expr}
    (h : x ∈ nodesProperties ps) : x.nodes ⊆ nodesProperties ps := by
  cases ps with
  | nil => cases h
  | cons p rest =>
    obtain ⟨key, value⟩ := p
    rcases List.mem_append.1 h with first | others
    · exact List.subset_append_of_subset_left _ (nodes_subset first)
    · exact List.subset_append_of_subset_right _ (nodesProperties_subset others)

end

/-- Whether the node looks a name or a property up, or calls. -/
def isLookup : Expr → Bool
  | ident _ => true
  | member _ _ => true
  | index _ _ => true
  | call _ _ => true
  | _ => false

/-- No node of the list is a program. -/
def ProgramFree (nodes : List Expr) : Prop := ∀ e ∈ nodes, e.isProgram = false

@[simp] theorem programFree_nil : ProgramFree [] := by simp [ProgramFree]

@[simp] theorem programFree_cons {e : Expr} {rest : List Expr} :
    ProgramFree (e :: rest) ↔ e.isProgram = false ∧ ProgramFree rest := by
  simp [ProgramFree]

@[simp] theorem programFree_append {l l' : List Expr} :
    ProgramFree (l ++ l') ↔ ProgramFree l ∧ ProgramFree l' := by
  simp [ProgramFree, or_imp, forall_and]

/-- The expression whose value a program returns: what a program holds, and any other expression
itself. -/
def answer : Expr → Expr
  | program body => body
  | e => e

theorem answer_eq_self {e : Expr} (h : e.isProgram = false) : e.answer = e := by
  cases e with
  | program body => cases h
  | _ => rfl

theorem nodes_answer_subset (e : Expr) : e.answer.nodes ⊆ e.nodes := by
  cases e with
  | program body => exact List.subset_cons_self _ _
  | _ => exact List.Subset.refl _

/-- Without a program below the root there is none in what is returned. -/
theorem programFree_answer {e : Expr} (h : ProgramFree e.nodes.tail) :
    ProgramFree e.answer.nodes := by
  cases e with
  | program body => exact h
  | _ =>
    rw [answer, nodes_eq_cons]
    · exact programFree_cons.2 ⟨rfl, h⟩
    · simp

end DataBinding.Expr
