import NamingAdvice.Number.Decimal

/-! JSON values. Numbers keep the decimal they were written as; the members of an object keep
their order, and a member is found by its key.
-/

namespace NamingAdvice

inductive Json where
  | null
  | bool (value : Bool)
  | number (value : Decimal)
  | string (value : Text)
  | array (items : List Json)
  | object (members : List (Text × Json))

namespace Json

/-- The sorts of JSON value. -/
inductive Shape where
  | null
  | boolean
  | number
  | string
  | array
  | object
deriving DecidableEq, Repr

def shape : Json → Shape
  | .null => .null
  | .bool _ => .boolean
  | .number _ => .number
  | .string _ => .string
  | .array _ => .array
  | .object _ => .object

/-- Gives a key a value: in its old place if the key is there, else at the end. -/
def setMember (key : Text) (value : Json) : List (Text × Json) → List (Text × Json)
  | [] => [(key, value)]
  | (other, old) :: members =>
      if other == key then (key, value) :: members
      else (other, old) :: setMember key value members

theorem sizeOf_lt_of_lookup {key : Text} {value : Json} {members : List (Text × Json)}
    (h : members.lookup key = some value)
    : sizeOf value < sizeOf members := by
  induction members with
  | nil => simp at h
  | cons member members ih =>
      rcases member with ⟨other, held⟩
      simp only [List.lookup_cons] at h
      split at h
      · cases h
        simp only [List.cons.sizeOf_spec, Prod.mk.sizeOf_spec]
        omega
      · have := ih h
        simp only [List.cons.sizeOf_spec]
        omega

end Json

end NamingAdvice
