import HeaderBinding.Decl.Tree
import HeaderBinding.Override.Table
import HeaderBinding.Registry.Builtin

/-!
# Types declared in headers

The registry of a set of headers. Each named type is entered under its qualified name and, if that
is another one, its bare name is entered too, since members of a scope use it without the scope.
The built-in primitive types and the mappings of the user fill in what no header declares.

Headers may be taken in one after the other, or each by itself with the results merged in order.
-/

namespace HeaderBinding
namespace Decl

/-- The constants of an enum, with zero for a value that could not be evaluated. -/
def Tree.enumerators (tree : Tree) (id : NodeId) : List Enumerator :=
  ((tree.children id).filterMap tree.node?).filterMap fun node =>
    if node.kind = .enumConstant then some ⟨node.name, node.value?.getD 0⟩ else none

/-- Types may be declared inside the declaration. -/
def Node.holdsTypes (node : Node) : Bool :=
  match node.kind with
  | .struct | .classType | .classTemplate | .unit | .namespaceScope | .other => true
  | _ => false

/-- What a declaration says about its own name. -/
def Tree.entryOf? (tree : Tree) (id : NodeId) (node : Node) : Option Registry.Entry :=
  if node.isAnonymous then none
  else
    match node.kind with
    | .typedef | .typeAlias => some (.synonym (node.type?.map TypeRef.spelling))
    | .struct | .classType | .classTemplate => some (.record node.flags.definition)
    | .enum => some (.enum (tree.enumerators id))
    | _ => none

/-- The names that a declaration declares: its qualified name and its bare name, if that is another
one. -/
def Tree.declaredBy (tree : Tree) (id : NodeId) (node : Node) : List (String × Registry.Entry) :=
  match tree.entryOf? id node with
  | none => []
  | some entry =>
      let qualified := tree.qualifiedName id
      (qualified, entry) ::
        if node.name = qualified then [] else [(node.name, .scopeAlias qualified)]

/-- The names that a header declares, in source order. -/
def Tree.declared (tree : Tree) : List (String × Registry.Entry) :=
  (tree.entries Node.holdsTypes).flatMap fun (id, node) => tree.declaredBy id node

end Decl

namespace Registry

/-- Take in the declarations of a header. -/
def addTree (registry : Registry) (tree : Decl.Tree) : Registry :=
  registry.addAll tree.declared

/-- Fill in the built-in primitive types that no header declares. -/
def addBuiltins (registry : Registry) : Registry :=
  registry.addAllMissing Builtin.entries

/-- Fill in the mapped types that are not known yet. -/
def addOverrides (registry : Registry) (overrides : OverrideTable) : Registry :=
  registry.addAllMissing (overrides.toList.map fun item => (item.1, .mapped item.2.target?))

/-- Fill in what no header declares. -/
def finish (registry : Registry) (overrides : OverrideTable) : Registry :=
  registry.addBuiltins.addOverrides overrides

/-- The registry of headers that are taken in one after the other. -/
def discover (trees : List Decl.Tree) (overrides : OverrideTable) : Registry :=
  (trees.foldl addTree empty).finish overrides

/-- The registry of headers that are each taken in by itself, the results being merged in the
order of the headers. -/
def discoverParallel (trees : List Decl.Tree) (overrides : OverrideTable) : Registry :=
  ((trees.map empty.addTree).foldl merge empty).finish overrides

end Registry
end HeaderBinding
