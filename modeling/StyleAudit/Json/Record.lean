import StyleAudit.Json.Value

/-!
Records in JSON.

A record is an object, or an array that holds the fields in their declared order. Fields that are
nowhere declared are ignored in an object.
-/

namespace StyleAudit.Json

def text? : Json → Option String
  | .string s => some s
  | _ => none

def bool? : Json → Option Bool
  | .bool b => some b
  | _ => none

def items? : Json → Option (List Json)
  | .array items => some items
  | _ => none

/-- A whole number below `bound`. -/
def natBelow? (bound : Nat) : Json → Option Nat
  | .number (.whole n) => if 0 ≤ n ∧ n.toNat < bound then some n.toNat else none
  | _ => none

/-- The number of values of an unsigned word of 32 bits. -/
def word32 : Nat := 0x100000000

/-- The value of a declared field. -/
def recordField? (names : List String) (key : String) : Json → Option Json
  | .object fields => Table.find? key fields
  | .array items => items[names.idxOf key]?
  | _ => none

/-- Whether a value can be a record in which an array has to give every field. -/
def isRecord (names : List String) : Json → Bool
  | .object _ => true
  | .array items => items.length == names.length
  | _ => false

/-- Whether a value can be a record in which an array may leave out fields at its end. -/
def isOpenRecord (names : List String) : Json → Bool
  | .object _ => true
  | .array items => items.length ≤ names.length
  | _ => false

/-- An optional field: absent, null, or read by `decode`. -/
def optional? {α : Type} (decode : Json → Option α) : Option Json → Option (Option α)
  | none => some none
  | some .null => some none
  | some v => (decode v).map some

/-- The members of an object; other values have none. -/
def members : Json → Table Json
  | .object fields => fields
  | _ => []

def textMember? (key : String) (v : Json) : Option String := (v.field? key).bind text?

def flagMember (key : String) (v : Json) : Bool := ((v.field? key).bind bool?).getD false

def itemsMember (key : String) (v : Json) : List Json := ((v.field? key).bind items?).getD []

def membersOf (key : String) (v : Json) : Table Json := ((v.field? key).map members).getD []

theorem sizeOf_find? {key : String} {fields : List (String × Json)} {v : Json}
    (h : Table.find? key fields = some v) : sizeOf v < sizeOf fields := by
  induction fields with
  | nil => simp [Table.find?] at h
  | cons f fields ih =>
    obtain ⟨k, w⟩ := f
    rw [Table.find?] at h
    split at h
    · simp only [Option.some.injEq] at h
      subst h
      simp only [List.cons.sizeOf_spec, Prod.mk.sizeOf_spec]
      omega
    · have := ih h
      simp only [List.cons.sizeOf_spec]
      omega

/-- A field is smaller than its record. -/
theorem sizeOf_recordField? {names : List String} {key : String} {v w : Json}
    (h : recordField? names key v = some w) : sizeOf w < sizeOf v := by
  cases v with
  | object fields =>
    have := sizeOf_find? h
    simp only [object.sizeOf_spec]
    omega
  | array items =>
    have := List.sizeOf_lt_of_mem (List.mem_of_getElem? h)
    simp only [array.sizeOf_spec]
    omega
  | _ => simp [recordField?] at h

end StyleAudit.Json
