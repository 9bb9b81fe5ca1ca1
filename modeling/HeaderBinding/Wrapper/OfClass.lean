import HeaderBinding.Wrapper.Conversion

/-!
# Wrappers of classes

The wrapper class of a class. There is a wrapper function for every constructor and every method,
apart from those that would get a name that is taken. A class that cannot be named or created is
wrapped by functions that report an error.
-/

namespace HeaderBinding
namespace Wrapper

/-- The body of a function that cannot be called: it reports an error and leaves. -/
def unavailable (native member : String) (fail : Stmt) : List Stmt :=
  [.report s!"Automatic forwarding not available for {native}::{member}", fail]

/-- The body of a function some of whose parameters cannot be passed on, if there are any. -/
def blockedBody? (site : ParamSite) (passed : List PassedParam) : Option (List Stmt) :=
  match passed.filterMap PassedParam.blocked? with
  | [] => none
  | todos => some (todos ++ unavailable site.native site.member site.fail)

/-- The body of a function: `forwarded` if the class and all parameters allow the call. -/
def bodyOf (forwardable : Bool) (site : ParamSite) (passed : List PassedParam)
    (forwarded : List Stmt) : List Stmt :=
  match blockedBody? site passed with
  | some body => body
  | none =>
      if forwardable then forwarded else unavailable site.native site.member site.fail

/-- The wrapper function for a constructor. A lone constructor keeps the plain name for scripts. -/
def ofCreator (scope : TypeScope) (model : Api.Class) (creator : Api.Creator) : Method :=
  let ident := suffixed constructName (spellingsOf creator.params)
  let site : ParamSite := ⟨model.qualifiedName, constructName, .ret none⟩
  let passed := creator.params.map (passParam scope site)
  let forwarded := passed.flatMap PassedParam.prelude ++
    [.expr .destroy, .expr (.create creator.result.spelling (passed.map PassedParam.argument)),
      .expr (.setOwned true)]
  { ident
    scriptName := if model.creators.length = 1 then constructName else ident
    kind := .construct
    result := "void"
    params := passed.map PassedParam.param
    body := bodyOf model.isForwardable site passed forwarded }

/-- Leave if there is no wrapped object. -/
def objectGuard (native : String) (fail : Stmt) : Stmt :=
  .guard .handleMissing [.report s!"Native pointer is null for {native}", fail]

/-- The wrapper function for a method. A name shared by several methods is made different for
scripts too. -/
def ofMethod (scope : TypeScope) (model : Api.Class) (method : Api.Method) : Method :=
  let base := memberName method.name
  let ident := suffixed base (spellingsOf method.params)
  let plan := planResult scope method.result
  let site : ParamSite := ⟨model.qualifiedName, method.name, failWith plan.type⟩
  let passed := method.params.map (passParam scope site)
  let guards := if method.isStatic then [] else [objectGuard model.qualifiedName site.fail]
  let receiver :=
    if method.isStatic then Receiver.ofClass model.qualifiedName
    else .ofHandle model.qualifiedName method.isConst
  let call := Expr.call receiver method.name (passed.map PassedParam.argument)
  let forwarded := guards ++ passed.flatMap PassedParam.prelude ++ plan.forward call
  { ident
    scriptName := if model.isOverloaded method.name then ident else base
    kind := if method.isStatic then .static else .onObject method.isConst
    result := plan.type
    params := passed.map PassedParam.param
    body := bodyOf model.isForwardable site passed forwarded }

/-- The body of the function that gives the wrapped object up. -/
def destroyBody (model : Api.Class) : List Stmt :=
  let deletion :=
    if model.isForwardable then
      [Stmt.guard .handleOwned [.expr (.delete model.qualifiedName)]]
    else []
  deletion ++ [.expr .clearHandle, .expr (.setOwned false)]

/-- The first of all functions with the same name; `seen` are the names that are taken. -/
def firstOfEach (seen : List String) : List Method → List Method
  | [] => []
  | method :: rest =>
      if seen.contains method.ident then firstOfEach seen rest
      else method :: firstOfEach (method.ident :: seen) rest

/-- The wrapper class of a class. -/
def ofClass (scope : TypeScope) (family base : String) (model : Api.Class) : Class where
  name := className family model.flatName
  native := model.qualifiedName
  base := base
  forwardable := model.isForwardable
  enums := model.enums
  methods := firstOfEach []
    (model.creators.map (ofCreator scope model) ++ model.methods.map (ofMethod scope model))
  destroy := destroyBody model

end Wrapper
end HeaderBinding
