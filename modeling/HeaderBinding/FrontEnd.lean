import HeaderBinding.Decl.Tree
import HeaderBinding.Path.Basic

/-!
# Front ends

A front end supplies the declarations of a header. Headers are read one by one; one without
declarations is skipped, and the reason is kept.
-/

namespace HeaderBinding

/-- Why there are no declarations for a header. -/
inductive HeaderError where
  /-- The tool that reads headers could not be run. -/
  | unreadable (path : String)
  /-- The tool that reads headers failed. -/
  | toolFailed (path reason : String)
  /-- The tool's answer is no JSON, or for the given reason no syntax tree. -/
  | malformed (path : String) (reason? : Option String)
  /-- No declarations are known for the path. -/
  | unknown (path : String)
  deriving DecidableEq, Repr

/-- The wording of an error, for those that have a wording of their own. -/
def HeaderError.message? : HeaderError → Option String
  | unreadable _ => none
  | toolFailed path reason => some s!"front end failed on {path}: {reason}"
  | malformed path reason? =>
      reason?.map fun reason => s!"malformed front-end output for {path}: {reason}"
  | unknown path => some s!"no declaration tree registered for {path}"

/-- What supplies the declarations of the header at a path. -/
abbrev FrontEnd :=
  String → Except HeaderError Decl.Tree

/-- A header and its declarations. -/
structure Header where
  path : String
  tree : Decl.Tree

/-- Headers that were read and headers that were skipped, both in the order asked for. -/
structure HeaderSet where
  headers : List Header := []
  skipped : List (String × HeaderError) := []

namespace HeaderSet

/-- The declarations of the headers that were read. -/
def trees (set : HeaderSet) : List Decl.Tree :=
  set.headers.map Header.tree

/-- The set with the outcome for one more header in front. -/
def cons (path : String) (outcome : Except HeaderError Decl.Tree) (set : HeaderSet) : HeaderSet :=
  match outcome with
  | .ok tree => { set with headers := ⟨path, tree⟩ :: set.headers }
  | .error error => { set with skipped := (path, error) :: set.skipped }

end HeaderSet

namespace FrontEnd

/-- Read headers in order. -/
def readAll (frontEnd : FrontEnd) : List String → HeaderSet
  | [] => {}
  | path :: rest => HeaderSet.cons path (frontEnd path) (frontEnd.readAll rest)

/-- A front end for headers whose declarations are known. The last one given for a path counts. -/
def ofHeaders (known : List Header) : FrontEnd := fun path =>
  match known.reverse.find? fun header => Path.same header.path path with
  | some header => .ok header.tree
  | none => .error (.unknown path)

end FrontEnd
end HeaderBinding
