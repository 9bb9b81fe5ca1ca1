import HeaderBinding.Clang.Declarations
import Mathlib.Data.List.Basic

/-!
# Nodes in the order of the document

The nodes of a syntax tree, each before those under it, are the order in which clang wrote them and
named their files. A file is named only where it differs from the one before, so that the file of a
node is the last one named by then.
-/

namespace HeaderBinding
namespace Clang

open Json

/-! ## What a value holds -/

/-- Of several members with one key the last one counts. -/
theorem lastMember?_cons (key name : String) (value : Value) (rest : List (String × Value)) :
    lastMember? key ((name, value) :: rest) =
      (lastMember? key rest).or (if name = key then some value else none) := by
  simp only [lastMember?]
  cases lastMember? key rest <;> rfl

theorem sizeOf_lastMember? {key : String} {members : List (String × Value)} {value : Value}
    (found : lastMember? key members = some value) : sizeOf value < sizeOf members := by
  induction members with
  | nil => cases found
  | cons member rest induction =>
      obtain ⟨name, own⟩ := member
      simp only [List.cons.sizeOf_spec, Prod.mk.sizeOf_spec]
      rw [lastMember?_cons] at found
      rcases Option.or_eq_some_iff.mp found with later | ⟨-, first⟩
      · have := induction later
        omega
      · obtain ⟨-, ⟨⟩⟩ := Option.ite_none_right_eq_some.mp first
        omega

theorem sizeOf_field? {value inner : Value} {key : String} (found : value.field? key = some inner) :
    sizeOf inner < sizeOf value := by
  unfold Value.field? at found
  split at found
  · have := sizeOf_lastMember? found
    simp only [Value.object.sizeOf_spec]
    omega
  · cases found

/-- The values of the nodes under a node. -/
def innerValues (value : Value) : List Value :=
  ((value.field? "inner").map Value.items).getD []

theorem sizeOf_of_mem_innerValues {value child : Value} (inside : child ∈ innerValues value) :
    sizeOf child < sizeOf value := by
  unfold innerValues at inside
  cases found : value.field? "inner" with
  | none => simp [found] at inside
  | some inner =>
      have inner_lt := sizeOf_field? found
      cases inner <;> simp [found, Value.items] at inside
      have child_lt := List.sizeOf_lt_of_mem inside
      simp only [Value.array.sizeOf_spec] at inner_lt
      omega

/-! ## Files named in locations -/

/-- The files that a location names: those of where its text was written, then those of where it
was expanded, and its own last. -/
def namedFiles (location : Value) : List String :=
  ((location.field? "spellingLoc").attach.map fun inner => namedFiles inner.1).getD [] ++
    ((location.field? "expansionLoc").attach.map fun inner => namedFiles inner.1).getD [] ++
      (location.textField? "file").toList
termination_by sizeOf location
decreasing_by all_goals exact sizeOf_field? inner.2

/-- The files that are named in the location with the given key. -/
def filesAt (value : Value) (key : String) : List String :=
  ((value.field? key).map namedFiles).getD []

/-- The files that a node names in its range, which begins at one location and ends at another. -/
def filesInRange (value : Value) : List String :=
  ((value.field? "range").map fun range => filesAt range "begin" ++ filesAt range "end").getD []

theorem namedFiles_eq (location : Value) :
    namedFiles location = filesAt location "spellingLoc" ++ filesAt location "expansionLoc" ++
      (location.textField? "file").toList := by
  rw [namedFiles, Option.attach_map_val, Option.attach_map_val, filesAt, filesAt]

theorem memberFiles_eq (key : String) (members : List (String × Value)) :
    memberFiles key members = filesOf (.object members) key := by
  unfold filesOf Value.field?
  induction members with
  | nil => rfl
  | cons member rest induction =>
      obtain ⟨name, value⟩ := member
      rw [memberFiles]
      simp only [lastMember?_cons]
      cases later : lastMember? key rest with
      | some later_value => simpa [later] using induction
      | none =>
          simp only [later] at induction
          split <;> simp_all

theorem locationFiles_eq (location : Value) :
    locationFiles location = filesOf location "spellingLoc" ++ filesOf location "expansionLoc" ++
      (location.textField? "file").toList := by
  cases location with
  | object members => rw [locationFiles, memberFiles_eq, memberFiles_eq]
  | _ => rfl

/-- The files of a location are found in the order in which they are written. -/
theorem locationFiles_eq_namedFiles (location : Value) :
    locationFiles location = namedFiles location := by
  induction location using namedFiles.induct with
  | case1 location spelling expansion =>
      have inside (key : String)
          (induction : ∀ inner : { inner // location.field? key = some inner },
            locationFiles inner.1 = namedFiles inner.1) :
          filesOf location key = filesAt location key := by
        rw [filesOf, filesAt]
        cases found : location.field? key with
        | none => rfl
        | some inner => exact induction ⟨inner, found⟩
      rw [locationFiles_eq, namedFiles_eq, inside _ spelling, inside _ expansion]

theorem filesOf_eq_filesAt (value : Value) (key : String) :
    filesOf value key = filesAt value key := by
  rw [filesOf, filesAt]
  cases value.field? key with
  | none => rfl
  | some location => exact locationFiles_eq_namedFiles location

theorem files_ofValue (value : Value) : (Fields.ofValue value).files = filesAt value "loc" :=
  filesOf_eq_filesAt value "loc"

theorem rangeFiles_ofValue (value : Value) :
    (Fields.ofValue value).rangeFiles = filesInRange value := by
  rw [Fields.ofValue, filesInRange]
  cases value.field? "range" with
  | none => rfl
  | some range => simp [filesOf_eq_filesAt]

/-! ## Nodes -/

theorem ofValues_eq_map (values : List Value) : ofValues values = values.map Node.ofValue := by
  induction values with
  | nil => rw [ofValues, List.map_nil]
  | cons value rest induction => rw [ofValues, List.map_cons, induction]

theorem innerOf_eq_map (members : List (String × Value)) :
    innerOf members = (innerValues (.object members)).map Node.ofValue := by
  have itemsOf_eq (value : Value) : itemsOf value = value.items.map Node.ofValue := by
    cases value with
    | array items => rw [itemsOf, ofValues_eq_map, Value.items]
    | _ => rfl
  unfold innerValues Value.field?
  induction members with
  | nil => rfl
  | cons member rest induction =>
      obtain ⟨name, value⟩ := member
      rw [innerOf]
      simp only [lastMember?_cons]
      cases later : lastMember? "inner" rest with
      | some later_value => simpa [later] using induction
      | none =>
          simp only [later] at induction
          split <;> simp_all

theorem ofValue_eq (value : Value) :
    Node.ofValue value = ⟨Fields.ofValue value, (innerValues value).map Node.ofValue⟩ := by
  cases value with
  | object members => rw [Node.ofValue, innerOf_eq_map]
  | _ => rfl

/-! ## All nodes of a document -/

/-- The values of all nodes in a document, each before those under it. -/
def writtenNodes (value : Value) : List Value :=
  value :: (innerValues value).attach.flatMap fun child => writtenNodes child.1
termination_by sizeOf value
decreasing_by exact sizeOf_of_mem_innerValues child.2

theorem writtenNodes_eq (value : Value) :
    writtenNodes value = value :: (innerValues value).flatMap writtenNodes := by
  rw [writtenNodes, List.flatMap_subtype (g := writtenNodes) (by simp)]
  simp

/-- The file named last when all nodes before the one at `place` have been read, and the location of
that node itself. -/
def currentFile? (nodes : List Value) (place : Nat) : Option String :=
  ((nodes.take place).flatMap (fun value => filesAt value "loc" ++ filesInRange value) ++
    (nodes[place]?.map fun value => filesAt value "loc").getD []).getLast?

/-- Of a list that goes on from `here` with an item and two parts, each part goes on after the one
before it. -/
theorem cons_append_drop {Item : Type} {item : Item} {first second all : List Item} {here : Nat}
    (starts : item :: (first ++ second) <+: all.drop here) :
    all[here]? = some item ∧ first <+: all.drop (here + 1) ∧
      second <+: all.drop (here + 1 + first.length) := by
  obtain ⟨behind, split⟩ := starts
  rw [List.cons_append] at split
  have next : all.drop (here + 1) = first ++ (second ++ behind) := by
    rw [← List.drop_drop, ← split, List.drop_one, List.tail_cons, List.append_assoc]
  refine ⟨?_, ⟨_, next.symm⟩, behind, ?_⟩
  · rw [← List.head?_drop, ← split, List.head?_cons]
  · rw [← List.drop_drop, next, List.drop_left]

mutual

/-- The members of a node and of those under it, in the order of the document. -/
def Node.preorder : Node → List Fields
  | ⟨fields, inner⟩ => fields :: preorderAll inner

/-- The members of nodes and of those under them, in the order of the document. -/
def preorderAll : List Node → List Fields
  | [] => []
  | node :: rest => node.preorder ++ preorderAll rest

end

theorem preorderAll_eq_flatMap (nodes : List Node) :
    preorderAll nodes = nodes.flatMap Node.preorder := by
  induction nodes with
  | nil => rfl
  | cons node rest induction => rw [preorderAll, induction, List.flatMap_cons]

theorem preorder_ofValue (value : Value) :
    (Node.ofValue value).preorder = (writtenNodes value).map Fields.ofValue := by
  induction value using writtenNodes.induct with
  | case1 value induction =>
      rw [ofValue_eq, Node.preorder, preorderAll_eq_flatMap, List.flatMap_map, writtenNodes_eq,
        List.map_cons, List.map_flatMap]
      congr 1
      exact List.flatMap_congr fun child inside => induction ⟨child, inside⟩

/-! ## The current file -/

/-- All files named in the locations of a node itself. -/
def Fields.allFiles (fields : Fields) : List String :=
  fields.files ++ fields.rangeFiles

mutual

theorem Node.allFiles_eq : (node : Node) →
    node.allFiles = node.preorder.flatMap Fields.allFiles
  | ⟨fields, inner⟩ => by
      rw [Node.allFiles, Node.preorder, List.flatMap_cons, filesUnder_eq inner, Fields.allFiles]

theorem filesUnder_eq : (nodes : List Node) →
    filesUnder nodes = (preorderAll nodes).flatMap Fields.allFiles
  | [] => by rw [filesUnder, preorderAll, List.flatMap_nil]
  | node :: rest => by
      rw [filesUnder, preorderAll, List.flatMap_append, node.allFiles_eq, filesUnder_eq rest]

end

/-- The file named last when the first `count` nodes have been read. -/
def fileAfter? (all : List Fields) (count : Nat) : Option String :=
  ((all.take count).flatMap Fields.allFiles).getLast?

/-- The file named last when all nodes before the one at `place` have been read, and its own
location, but not its range. -/
def fileAt? (all : List Fields) (place : Nat) : Option String :=
  ((all.take place).flatMap Fields.allFiles ++
    ((all[place]?.map Fields.files).getD [])).getLast?

theorem fileAt?_map_ofValue (nodes : List Value) (place : Nat) :
    fileAt? (nodes.map Fields.ofValue) place = currentFile? nodes place := by
  have all (value : Value) :
      (Fields.ofValue value).allFiles = filesAt value "loc" ++ filesInRange value := by
    rw [Fields.allFiles, files_ofValue, rangeFiles_ofValue]
  rw [fileAt?, currentFile?, ← List.map_take, List.flatMap_map, List.getElem?_map, Option.map_map]
  simp only [all, Function.comp_def, files_ofValue]

end Clang
end HeaderBinding
