/-!
# Entries of the type registry

What is known about one name of a type. The same name is often declared many times; `Entry.join`
says what a later declaration adds to what is known already.
-/

namespace HeaderBinding

/-- A constant of an enum. -/
structure Enumerator where
  name : String
  value : Int
  deriving DecidableEq, Repr, Inhabited

namespace Registry

/-- What a name of a type stands for. -/
inductive Entry where
  /-- Another name for a type, whose spelling may be unknown. -/
  | synonym (target : Option String)
  /-- A struct, class or class template; `complete` if its body was seen. -/
  | record (complete : Bool)
  | enum (enumerators : List Enumerator)
  /-- The bare name of a type that belongs to a scope. -/
  | scopeAlias (qualified : String)
  /-- A name that only the mappings of the user know. -/
  | mapped (target : Option String)
  deriving DecidableEq, Repr, Inhabited

namespace Entry

/-- The spelling that the name is another name for. -/
def target? : Entry → Option String
  | synonym target | mapped target => target
  | scopeAlias qualified => some qualified
  | record _ | enum _ => none

/-- The name stands for a struct, class or class template. -/
def isRecord : Entry → Bool
  | record _ => true
  | _ => false

/-- The name stands for a record whose body was seen. -/
def isCompleteRecord : Entry → Bool
  | record complete => complete
  | _ => false

/-- The name stands for an enum. -/
def isEnum : Entry → Bool
  | enum _ => true
  | _ => false

/-- What is known about a name after a further declaration of it. Of records and enums the first
kind stays, a record is complete once its body was seen, and an enum keeps the first enumerators
that were seen. Both take the place of other names for types. Of these the first known target
stays, and the bare name of a type in a scope gives way to any other declaration. -/
def join (known new : Entry) : Entry :=
  match known, new with
  | record seen, record complete => record (seen || complete)
  | record seen, _ => record seen
  | enum current, enum later => enum (if current.isEmpty then later else current)
  | enum current, _ => enum current
  | _, record complete => record complete
  | _, enum enumerators => enum enumerators
  | synonym target, synonym later => synonym (target.or later)
  | mapped target, synonym later => mapped (target.or later)
  | scopeAlias _, synonym later => synonym later
  | known, _ => known

end Entry

end Registry
end HeaderBinding
