import DataBinding.Value.Basic

/-!
# Documents

A document is the plain data that JSON can hold. Every document is a value.

## Main definitions

* `Document` — the documents
* `Value.ofDocument` — the value of a document
-/

namespace DataBinding

/-- A plain document. An object may hold several fields of one name. -/
inductive Document where
  | null
  | bool (value : Bool)
  | number (value : Number)
  | str (value : String)
  | array (elements : List Document)
  | object (fields : List (String × Document))

namespace Value

mutual

/-- The value of a document: a list for an array, and a map for an object, in which the last field
of each name counts. -/
def ofDocument : Document → Value
  | .null => null
  | .bool b => bool b
  | .number n => number n
  | .str s => str s
  | .array elements => list (ofDocuments elements)
  | .object fields => ofEntries (ofDocumentFields fields)

def ofDocuments : List Document → List Value
  | [] => []
  | d :: rest => ofDocument d :: ofDocuments rest

def ofDocumentFields : List (String × Document) → List (String × Value)
  | [] => []
  | (name, d) :: rest => (name, ofDocument d) :: ofDocumentFields rest

end

end Value

end DataBinding
