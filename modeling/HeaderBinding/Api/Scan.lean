import HeaderBinding.Api.Class
import HeaderBinding.Registry.Discovery

/-!
# Finding the public interface

The classes of a header and what is public in them. Classes of included files are left out, as are
members that are not public, deleted functions and operators. A public class inside a class is a
class of its own.
-/

namespace HeaderBinding
namespace Decl

/-- Classes may be found inside the declaration. -/
def Node.holdsClasses (node : Node) : Bool :=
  match node.kind with
  | .namespaceScope | .other | .unit => true
  | _ => false

/-- A named class of the header itself. -/
def Node.isCandidate (node : Node) : Bool :=
  node.kind.isRecord && !node.isAnonymous && !node.flags.included

/-- A function that anyone may call. -/
def Node.isCallable (node : Node) : Bool :=
  node.access = .isPublic && !node.flags.deleted

/-- A named class that anyone may use. -/
def Node.isPublicRecord (node : Node) : Bool :=
  node.kind.isRecord && !node.isAnonymous && node.access = .isPublic

/-- The declarations written in a declaration, with their numbers. -/
def Tree.members (tree : Tree) (id : NodeId) : List (NodeId × Node) :=
  (tree.children id).filterMap fun child => (tree.node? child).map (child, ·)

end Decl

namespace Api

open Decl (NodeId Node Tree)

/-- The first of `name`, `name_`, `name__`, … that is not taken. Each try leaves one name fewer
that could be taken, so `fuel` may be the number of taken names. -/
def freshName (taken : List String) (fuel : Nat) (name : String) : String :=
  match fuel with
  | 0 => name
  | fuel + 1 => if taken.contains name then freshName taken fuel (name.push '_') else name

/-- The names of parameters, given those before them; `index` is the place of the first one. A
parameter without a name gets one that no other parameter has. -/
def nameParams (declared : List String) (before : List Param) (index : Nat) :
    List Decl.Param → List Param
  | [] => before.reverse
  | param :: rest =>
      let taken := declared ++ before.map Param.name
      let name :=
        if param.name = "" then freshName taken taken.length s!"arg{index}" else param.name
      nameParams declared (⟨name, param.type⟩ :: before) (index + 1) rest

/-- The parameters of a function, all with names. -/
def collectParams (params : List Decl.Param) : List Param :=
  nameParams (params.map Decl.Param.name) [] 0 params

/-- The interface of a member function. -/
def collectMethod (node : Node) : Method where
  name := node.name
  result := node.type?.getD (.synthesized "void")
  params := collectParams node.params
  isStatic := node.flags.isStatic
  isConst := node.flags.isConst

/-- A public member function of a class that is no operator. -/
def method? (node : Node) : Option Method :=
  if node.kind = .method ∧ node.isCallable ∧ ¬Identifier.isOperator node.name then
    some (collectMethod node)
  else none

/-- A public constructor of the class with the given name. -/
def creator? (qualifiedName : String) (node : Node) : Option Creator :=
  if node.kind = .creator ∧ node.isCallable then
    some ⟨collectParams node.params, .synthesized qualifiedName⟩
  else none

/-- A named enum declared in a class. -/
def nestedEnum? (tree : Tree) (id : NodeId) (node : Node) : Option NestedEnum :=
  if node.kind = .enum ∧ ¬node.isAnonymous then some ⟨node.name, tree.enumerators id⟩
  else none

/-- The interface of a class. -/
def classOf (registry : Registry) (tree : Tree) (inTemplate : Bool) (id : NodeId) (node : Node) :
    Class :=
  let qualifiedName := tree.qualifiedName id
  let members := tree.members id
  { qualifiedName
    methods := members.filterMap fun (_, member) => method? member
    creators := members.filterMap fun (_, member) => creator? qualifiedName member
    enums := members.filterMap fun (child, member) => nestedEnum? tree child member
    isDefinition := node.flags.definition
    isComplete := registry.isCompleteRecord qualifiedName
    isAbstract := node.flags.isAbstract
    isTemplate := inTemplate || node.kind = .classTemplate }

/-- A class and the public classes inside it, each before those inside it. No class lies deeper
than the tree is large, so `fuel` may be its size. -/
def classesFrom (registry : Registry) (tree : Tree) (inTemplate : Bool) (fuel : Nat)
    (id : NodeId) (node : Node) : List Class :=
  match fuel with
  | 0 => []
  | fuel + 1 =>
      let model := classOf registry tree inTemplate id node
      let nested := (tree.members id).filter fun (_, member) => member.isPublicRecord
      model :: nested.flatMap fun (child, member) =>
        classesFrom registry tree model.isTemplate fuel child member

/-- The classes of a header in source order, each before those inside it. -/
def classesOf (registry : Registry) (tree : Tree) : List Class :=
  ((tree.entries Node.holdsClasses).filter fun (_, node) => node.isCandidate).flatMap
    fun (id, node) => classesFrom registry tree false tree.size id node

/-- Keep the classes of a header. -/
def addTree (registry : Registry) (api : Api) (tree : Tree) : Api :=
  (classesOf registry tree).foldl keep api

/-- The classes of a set of headers. -/
def scan (trees : List Tree) (registry : Registry) : Api :=
  trees.foldl (addTree registry) ∅

end Api
end HeaderBinding
