import DataBinding.Proofs.Program.Chains

/-!
# Objects read by a literal

What an object writes under a key, a literal reads that stands for the same key. Both sides turn the
key into a text: the object when the program is made, and the lookup when it runs. The properties of
an object are evaluated in order, each once, and of several with one key the last counts.

## Main definitions

* `Expr.lastValue` — the value of the last property with a key

## Main results

* `Value.text_ofLiteral` — the text of the value of a literal is the key that it stands for
* `Expr.evalParts_index_object`, `Expr.evalParts_member` — lookups by literals and by names
* `Program.run_object_index` — what an object writes, a literal reads
-/

namespace DataBinding

namespace Value

/-- Used as a key, the value of a literal is the key that the literal stands for in an object. -/
theorem text_ofLiteral (l : Literal) : (ofLiteral l).text = l.toKey := by
  cases l with
  | str s => exact String.ofList_toList
  | _ => rfl

/-- A map has no elements, so that no key is an index. -/
theorem getProperty_map (fields : List (String × Value)) (key : Value) :
    (map fields).getProperty key = (map fields).get key.text := by
  cases key <;> rfl

theorem getProperty_str (v : Value) (key : String) : v.getProperty (str key) = v.get key := by
  change v.get (str key).text = v.get key
  rw [show (str key).text = key from text_ofLiteral (.str key)]

/-- Of the entries of a map, the last of a key counts. -/
theorem get_ofEntries (entries : List (String × Value)) (key : String) :
    (ofEntries entries).get key = (entries.reverse.lookup key).getD undefined := by
  rw [ofEntries, get, Fields.find?_ofList]

end Value

namespace Expr

/-- The value of the last property whose key stands for the text, where `values` are those of the
properties in order; undefined if there is no such property. -/
def lastValue (properties : List (Key × Expr)) (values : List Value) (key : String) : Value :=
  (((properties.map fun p => p.1.toKey).zip values).reverse.lookup key).getD .undefined

variable {m : Type → Type} [Monad m] [LawfulMonad m] {host : Host m} {s : Scope}

/-- The entries of an object are the keys with the values, each evaluated once and in order. -/
theorem evalProperties_eq (ps : List (Key × Expr)) :
    evalProperties host s ps =
      (fun vs => (ps.map fun p => p.1.toKey).zip vs) <$> evalList host s (ps.map Prod.snd) := by
  induction ps with
  | nil => simp [evalProperties, evalList]
  | cons p rest ih =>
    obtain ⟨key, e⟩ := p
    simp [evalProperties, evalList, ih]

/-- An object is read by a literal after all of its properties have been evaluated. -/
theorem evalParts_index_object (ps : List (Key × Expr)) (l : Literal) :
    evalParts host s (.index (.object ps) (.literal l)) =
      evalList host s (ps.map Prod.snd) >>= fun vs => pure (lastValue ps vs l.toKey) := by
  have read : ∀ entries : List (String × Value),
      (if (Value.ofEntries entries).truthy then
        (Value.ofEntries entries).getProperty (.ofLiteral l) else .undefined) =
        (entries.reverse.lookup l.toKey).getD .undefined := by
    intro entries
    -- A map passes every guard, even an empty one.
    have passes : (Value.ofEntries entries).truthy = true := rfl
    rw [if_pos passes, ← Value.text_ofLiteral, ← Value.get_ofEntries]
    exact Value.getProperty_map _ _
  simp only [evalParts, evalProperties_eq, bind_assoc, bind_map_left, pure_bind, read, lastValue]

/-- A name behind a point is read as the literal of the name. -/
theorem evalParts_member (e : Expr) (name : String) :
    evalParts host s (.member e name) = evalParts host s (.index e (.literal (.str name))) := by
  simp only [evalParts, pure_bind, Value.ofLiteral, Value.getProperty_str]

end Expr

namespace Program

variable {m : Type → Type} [Monad m] [LawfulMonad m] (host : Host m) (s : Scope)

/-- An object that is read by a literal evaluates all of its properties in order, each once, and its
value is that of the last property whose key is the one that the literal stands for. This holds
whether or not a program inside of a property ends the evaluation early; where there is none, each
property runs as a program of its own. A name behind a point reads what the string of the name
reads. -/
theorem run_object_index (ps : List (Key × Expr)) (l : Literal) :
    (Program.ofExpr (.index (.object ps) (.literal l))).run host s =
        Expr.resume (Expr.evalList host s (ps.map Prod.snd))
          (fun vs => pure (Expr.lastValue ps vs l.toKey)) ∧
      (Expr.ProgramFree (Expr.nodesList (ps.map Prod.snd)) →
        (Program.ofExpr (.index (.object ps) (.literal l))).run host s =
          (ps.map Prod.snd).mapM (fun e => (Program.ofExpr e).run host s) >>= fun vs =>
            pure (Expr.lastValue ps vs l.toKey)) ∧
      ∀ (e : Expr) (name : String),
        (Program.ofExpr (.member e name)).run host s =
          (Program.ofExpr (.index e (.literal (.str name)))).run host s := by
  have run : (Program.ofExpr (.index (.object ps) (.literal l))).run host s =
      Expr.resume (Expr.evalList host s (ps.map Prod.snd))
        (fun vs => pure (Expr.lastValue ps vs l.toKey)) := by
    rw [run_eq_resume, Expr.answer_eq_self rfl, Expr.evalParts_index_object, Expr.resume_bind]
    simp only [Expr.resume_pure]
  refine ⟨run, fun free => ?_, fun e name => ?_⟩
  · rw [run, evalList_eq_lift host s free, Expr.resume_lift]
  · rw [run_eq_resume, run_eq_resume, Expr.answer_eq_self rfl, Expr.answer_eq_self rfl,
      Expr.evalParts_member]

/-- In `{1: f(), '1': g(), a: null}[1.0]` both functions are called, and the answer is that of the
second one, whose key is spelled as a string. -/
theorem run_object_index_overwritten :
    let call (name : String) : Expr := .call (.ident name) []
    let one : Literal := .number (.ofInt 1)
    let ps : List (Key × Expr) := [(.literal one, call "f"), (.literal (.str "1"), call "g"),
      (.name "a", .literal .null)]
    let named (name : String) : String × Value := (name, .function ⟨name⟩)
    let s : Scope := ⟨.map [named "f", named "g"], none⟩
    let host : Host (Recorded String) := Host.recorded fun _ f _ => .ok (.str f.name)
    Expr.ProgramFree (Expr.nodesList (ps.map Prod.snd)) ∧
      ((Program.ofExpr (.index (.object ps) (.literal one))).run host s).run.run [] =
        (.ok (.str "g"), [(⟨"f"⟩, []), (⟨"g"⟩, [])]) := by
  intro call one ps named s host
  have free : Expr.ProgramFree (Expr.nodesList (ps.map Prod.snd)) := by
    simp [ps, call, Expr.nodes, Expr.nodesList, Expr.isProgram]
  have key : one.toKey = "1" := by decide +kernel
  have keys : ps.map (fun p => p.1.toKey) = ["1", "1", "a"] := by
    change [one.toKey, "1", "a"] = _
    rw [key]
  obtain ⟨-, run, -⟩ := run_object_index host s ps one
  refine ⟨free, ?_⟩
  simp only [run free, Expr.lastValue, key, keys]
  rfl

end Program

end DataBinding
