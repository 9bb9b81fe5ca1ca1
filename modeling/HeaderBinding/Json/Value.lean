/-!
# JSON values

A JSON document as a value. An object keeps its members as written; when a key is repeated, its
last member counts.
-/

namespace HeaderBinding
namespace Json

/-- A JSON value. A number is kept as written. -/
inductive Value where
  | null
  | bool (value : Bool)
  | number (text : String)
  | string (text : String)
  | array (items : List Value)
  | object (members : List (String × Value))
  deriving Inhabited

/-- The value of the last member with the given key. -/
def lastMember? (key : String) : List (String × Value) → Option Value
  | [] => none
  | (name, value) :: rest =>
      match lastMember? key rest with
      | some later => some later
      | none => if name = key then some value else none

namespace Value

/-- The member of an object with the given key. -/
def field? (value : Value) (key : String) : Option Value :=
  match value with
  | object members => lastMember? key members
  | _ => none

/-- The text of a string. -/
def text? : Value → Option String
  | string text => some text
  | _ => none

/-- The text of the member with the given key. -/
def textField? (value : Value) (key : String) : Option String :=
  (value.field? key).bind text?

/-- Whether the member with the given key is `true`. -/
def flag (value : Value) (key : String) : Bool :=
  match value.field? key with
  | some (bool set) => set
  | _ => false

/-- The items of an array, none for any other value. -/
def items : Value → List Value
  | array items => items
  | _ => []

end Value

end Json
end HeaderBinding
