import DataFilter.Node

/-!
# Scope chains

A reference is a chain of names that hangs from a root, the document or the element under test.
These functions read the chain of any tree: its root, its names, and the last of them.
-/

namespace DataFilter

/-- Where a scope chain begins. -/
inductive Root where
  | document
  | element
  deriving DecidableEq, Repr

/-- The spelling in a template. -/
def Root.symbol : Root → String
  | document => "$"
  | element => "@"

namespace Node

/-- Whether the node is the document or the element under test. -/
def isRoot : Node → Bool
  | globalScope | item => true
  | _ => false

/-- Whether the node is a scope: something that holds values but is none. -/
def isScope : Node → Bool
  | globalScope | item | object .. => true
  | _ => false

/-- The root at the end of the chain, if the chain ends at one. -/
def root? : Node → Option Root
  | globalScope => some .document
  | item => some .element
  | object parent _ => parent.root?
  | field scope _ => scope.root?
  | collection parent _ => parent.root?
  | _ => none

/-- The names along the chain, the one nearest to the root first. -/
def path : Node → List String
  | object parent name => parent.path ++ [name]
  | field scope name => scope.path ++ [name]
  | collection parent _ => parent.path
  | _ => []

/-- The names joined with dots. -/
def dottedPath (node : Node) : String := ".".intercalate node.path

/-- The last name on the chain. -/
def name? : Node → Option String
  | object _ name => some name
  | field _ name => some name
  | collection parent _ => parent.name?
  | _ => none

end Node

end DataFilter
