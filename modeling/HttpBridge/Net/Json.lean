/-
# JSON values

A value of RFC 8259: a number stays the text it is written as, and the members
of an object stay in the order they are written in. Where a name occurs twice
the last member counts (`Members.find`).
-/
import Mathlib.Data.List.Basic

namespace Net

inductive Json where
  | null
  | bool (b : Bool)
  | num (text : String)
  | str (s : String)
  | arr (items : List Json)
  | obj (members : List (String × Json))

/-- The members of an object. -/
abbrev Members := List (String × Json)

def Members.find (o : Members) (key : String) : Option Json := o.reverse.lookup key

def Json.members? : Json → Option Members
  | .obj o => some o
  | _ => none

def Json.items? : Json → Option (List Json)
  | .arr items => some items
  | _ => none

end Net
