import ReadableTrace.Yaml.Tag

/-!
# Nodes

What a YAML document holds: scalars, lists and mappings, and aliases, which stand for another node
of the document. `Node.follow` gives what an alias stands for.
-/

namespace ReadableTrace.Yaml

/-- What is said of a node in front of it. -/
structure Marks where
  /-- The number of the name that is given to the node. -/
  anchor : Option Nat
  tag : Option Tag
  deriving DecidableEq

/-- Nothing is said. -/
def Marks.none : Marks := ⟨.none, .none⟩

/-- What a document holds. -/
inductive Node
  /-- A text, which may stand for another kind of value. -/
  | scalar (marks : Marks) (form : Form) (text : String)
  | list (marks : Marks) (items : List Node)
  | mapping (marks : Marks) (entries : List (Node × Node))
  /-- A name that stands for a node. -/
  | aliasOf (number : Nat)

namespace Node

/-- The node that stands where nothing is written. -/
def nothing : Node := .scalar .none .plain ""

/-- The name that is given to a node itself, with the node. -/
def ownName (n : Node) : Marks → List (Nat × Node)
  | ⟨some number, _⟩ => [(number, n)]
  | ⟨none, _⟩ => []

mutual

/-- The nodes with names, in the order in which they are written. -/
def named : Node → List (Nat × Node)
  | .scalar marks form text => ownName (.scalar marks form text) marks
  | .list marks items => ownName (.list marks items) marks ++ namedOfItems items
  | .mapping marks entries => ownName (.mapping marks entries) marks ++ namedOfEntries entries
  | .aliasOf _ => []

/-- The nodes with names in some items. -/
def namedOfItems : List Node → List (Nat × Node)
  | [] => []
  | n :: rest => named n ++ namedOfItems rest

/-- The nodes with names in the keys and values of some entries. -/
def namedOfEntries : List (Node × Node) → List (Nat × Node)
  | [] => []
  | (k, v) :: rest => named k ++ named v ++ namedOfEntries rest

end

/-- The last node that was given a name. -/
def target? (root : Node) (number : Nat) : Option Node :=
  (root.named.filter (·.1 = number)).getLast?.map (·.2)

/-- The node that is meant inside of a document: of an alias what it stands for. -/
def follow (root : Node) : Node → Node
  | .aliasOf number => (root.target? number).getD (.aliasOf number)
  | n => n

end Node

end ReadableTrace.Yaml
