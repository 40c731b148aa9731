/-!
# JSON values

The values of the data format in which machine states are saved. Integers are
kept apart from all other numbers, which are known by their spelling only: a
state has no use for them but to refuse them. The members of an object keep
their order.
-/

namespace ByteMachine

/-- A JSON value. -/
inductive Json where
  | null
  | bool (value : Bool)
  | integer (value : Int)
  /-- A number with a fraction, an exponent or a negative zero, as it is spelt. -/
  | real (spelling : String)
  | text (value : String)
  | array (items : List Json)
  | object (members : List (String × Json))
deriving Repr, Inhabited

namespace Json

/-- A natural number as a JSON value. -/
def ofNat (n : Nat) : Json :=
  integer (Int.ofNat n)

/-- The member of an object with the given key. Of several the last one counts. -/
def member? (key : String) : Json → Option Json
  | object members => members.reverse.lookup key
  | _ => none

/-- The value of a boolean. -/
def bool? : Json → Option Bool
  | bool value => some value
  | _ => none

/-- The value of an integer that is not negative. -/
def nat? : Json → Option Nat
  | integer (Int.ofNat n) => some n
  | _ => none

/-- The value of a text. -/
def text? : Json → Option String
  | text value => some value
  | _ => none

/-- The items of an array. -/
def items? : Json → Option (List Json)
  | array items => some items
  | _ => none

@[simp] theorem nat?_ofNat (n : Nat) : (ofNat n).nat? = some n := rfl

@[simp] theorem items?_array (items : List Json) : (array items).items? = some items := rfl

end Json

end ByteMachine
