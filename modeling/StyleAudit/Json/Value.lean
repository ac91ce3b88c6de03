import StyleAudit.Number.Shortest
import StyleAudit.Table

/-!
JSON values whose objects keep the order of their keys.

Whole numbers and floating point numbers are different values. Two objects are equal when they
have the same fields, in whatever order.
-/

namespace StyleAudit

/-- A number as it was written: whole, or with a fraction or exponent. -/
inductive Number where
  | whole (value : Int)
  | float (value : Binary64)
deriving Repr, Inhabited

namespace Number

/-- Equality of values of the same kind; the sign of a zero does not count. -/
def same : Number → Number → Bool
  | .whole a, .whole b => a == b
  | .float a, .float b => a == b || (a.isZero && b.isZero)
  | _, _ => false

def isZero : Number → Bool
  | .whole n => n == 0
  | .float x => x.isZero

def text : Number → String
  | .whole n => toString n
  | .float x => x.text

end Number

/-- A JSON value. The keys of an object are distinct. -/
inductive Json where
  | null
  | bool (value : Bool)
  | number (value : Number)
  | string (value : String)
  | array (items : List Json)
  | object (fields : List (String × Json))
deriving Repr, Inhabited

namespace Json

mutual

/-- Equality in which the order of fields does not count. -/
def same : Json → Json → Bool
  | .null, .null => true
  | .bool a, .bool b => a == b
  | .number a, .number b => a.same b
  | .string a, .string b => a == b
  | .array as, .array bs => sameItems as bs
  | .object as, .object bs => as.length == bs.length && sameFields as bs
  | _, _ => false

def sameItems : List Json → List Json → Bool
  | [], [] => true
  | a :: as, b :: bs => a.same b && sameItems as bs
  | _, _ => false

/-- Whether each field on the left is on the right with the same value. -/
def sameFields : List (String × Json) → List (String × Json) → Bool
  | [], _ => true
  | (k, v) :: as, bs =>
    (match Table.find? k bs with
      | some w => v.same w
      | none => false) && sameFields as bs

end

instance : BEq Json := ⟨same⟩

/-- The field of an object; `none` for other values. -/
def field? (key : String) : Json → Option Json
  | .object fields => Table.find? key fields
  | _ => none

/-- Whether an option value counts as set: not null, false, zero or the empty text. -/
def isTruthy : Json → Bool
  | .null => false
  | .bool b => b
  | .number n => !n.isZero
  | .string s => s != ""
  | .array _ => true
  | .object _ => true

def nat (n : Nat) : Json := .number (.whole n)

end Json

end StyleAudit
