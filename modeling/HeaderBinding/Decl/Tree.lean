import HeaderBinding.Decl.Node

/-!
# Trees of declarations

The declarations of one header. Number 0 is the header itself. Each declaration is listed among the
children of the one it is written in; the scope that it belongs to is that one too, unless it is
set to another, as for a class that is defined outside of the class it is a member of.
-/

namespace HeaderBinding
namespace Decl

/-- The declarations of a header, by number. -/
structure Tree where
  nodes : Array Node
  deriving DecidableEq, Repr

namespace Tree

/-- A header without declarations. -/
def empty : Tree :=
  ⟨#[{ kind := .unit }]⟩

instance : Inhabited Tree :=
  ⟨empty⟩

/-- The header itself. -/
def root : NodeId := 0

/-- Number of declarations, the header itself included. -/
def size (tree : Tree) : Nat :=
  tree.nodes.size

/-- Only the header itself is there. -/
def isEmpty (tree : Tree) : Bool :=
  tree.size ≤ 1

/-- The declaration with a number. -/
def node? (tree : Tree) (id : NodeId) : Option Node :=
  tree.nodes[id]?

/-- Add a declaration as the last one written in `parent`. Its number is the former size, which is
never cut off to the numbers that fit in 32 bits. -/
def push (tree : Tree) (parent : NodeId) (node : Node) : Tree :=
  let nodes := tree.nodes.push { node with scope? := some parent, children := #[] }
  ⟨nodes.modify parent fun outer => { outer with children := outer.children.push tree.size }⟩

/-- Let a declaration belong to another scope, without moving it. A declaration is never its own
scope by this, and the scope must be in the tree. -/
def setScope (tree : Tree) (id scope : NodeId) : Tree :=
  if id = scope ∨ tree.size ≤ scope then tree
  else ⟨tree.nodes.modify id fun node => { node with scope? := some scope }⟩

/-- Give a declaration another name. -/
def rename (tree : Tree) (id : NodeId) (name : String) : Tree :=
  ⟨tree.nodes.modify id fun node => { node with name }⟩

/-- The declarations written in a declaration, in their order. -/
def children (tree : Tree) (id : NodeId) : List NodeId :=
  ((tree.node? id).map fun node => node.children.toList).getD []

/-- The scope that a declaration belongs to. -/
def scope? (tree : Tree) (id : NodeId) : Option NodeId :=
  (tree.node? id).bind Node.scope?

/-- The names of a declaration and of the scopes around it, the outermost first. Scopes without a
name are left out, and the walk ends at a header or after `fuel` declarations. -/
def scopeNames (tree : Tree) (fuel : Nat) (id : NodeId) : List String :=
  match fuel with
  | 0 => []
  | fuel + 1 =>
      match tree.node? id with
      | none => []
      | some node =>
          if node.kind = .unit then []
          else
            let outer := match node.scope? with
              | some scope => tree.scopeNames fuel scope
              | none => []
            if node.name = "" then outer else outer ++ [node.name]

/-- The name of a declaration with the names of the scopes around it. One declaration more than
there are in the tree is met only on a circle of scopes, where the walk is cut off. -/
def qualifiedName (tree : Tree) (id : NodeId) : String :=
  "::".intercalate (tree.scopeNames (tree.size + 1) id)

/-- The declarations below one, in source order, each before those written in it. Declarations for
which `enter` fails are not looked into, and `fuel` bounds the depth. -/
def below (tree : Tree) (enter : Node → Bool) (fuel : Nat) (id : NodeId) : List NodeId :=
  match fuel with
  | 0 => []
  | fuel + 1 =>
      (tree.children id).flatMap fun child =>
        child :: if (tree.node? child).any enter then tree.below enter fuel child else []

/-- The declarations of a header in source order, each before those written in it, without those
inside a declaration for which `enter` fails. Along a path numbers increase, so that no path is
longer than the tree. -/
def walk (tree : Tree) (enter : Node → Bool) : List NodeId :=
  tree.below enter tree.size root

/-- The declarations of a header that can be reached from it, with their numbers, in source
order. -/
def entries (tree : Tree) (enter : Node → Bool) : List (NodeId × Node) :=
  (tree.walk enter).filterMap fun id => (tree.node? id).map (id, ·)

end Tree

end Decl
end HeaderBinding
