import TierIsolation.Yaml.Token

/-!
# Nodes of YAML

A node is a scalar, a list or an object, or stands for another node (`Node.reference`). Nodes that
others can stand for have a slot. A `Tree` is the node of a whole text together with the nodes in
slots.
-/

namespace TierIsolation.Yaml

/-- What is written in front of a node. -/
structure Properties where
  /-- The slot of the node. -/
  slot : Option Nat := none
  tag : Option Address := none
  deriving DecidableEq, Repr, Inhabited

inductive Node
  /-- The node in a slot. -/
  | reference (slot : Nat)
  | scalar (p : Properties) (style : ScalarStyle) (text : String)
  | sequence (p : Properties) (items : List Node)
  | mapping (p : Properties) (pairs : List (Node × Node))
  deriving Repr, Inhabited

namespace Node

/-- Nothing where a node could be. -/
def nothing : Node := .scalar {} .plain ""

mutual

/-- The slots that a node and the nodes in it are put into, in the order in which they start. -/
def placed : Node → List (Nat × Node)
  | reference _ => []
  | scalar p style text => p.slot.toList.map fun n => (n, .scalar p style text)
  | sequence p items => (p.slot.toList.map fun n => (n, .sequence p items)) ++ placedItems items
  | mapping p pairs => (p.slot.toList.map fun n => (n, .mapping p pairs)) ++ placedPairs pairs

def placedItems : List Node → List (Nat × Node)
  | [] => []
  | item :: rest => placed item ++ placedItems rest

def placedPairs : List (Node × Node) → List (Nat × Node)
  | [] => []
  | (k, v) :: rest => placed k ++ placed v ++ placedPairs rest

end

end Node

/-- The node of a text, and the nodes in slots. -/
structure Tree where
  root : Node
  /-- The slots in the order in which they are filled. -/
  slots : List (Nat × Node) := []
  deriving Inhabited

namespace Tree

/-- A node with the nodes in it put into their slots. -/
def ofRoot (root : Node) : Tree := ⟨root, root.placed⟩

/-- The node that a node stands for. What is put into a slot last stays there. -/
def target (t : Tree) : Node → Node
  | .reference slot =>
    match t.slots.filter (·.1 == slot) |>.getLast? with
    | some (_, n) => n
    | none => .reference slot
  | n => n

end Tree

end TierIsolation.Yaml
