import StyleAudit.CharSet.Age
import StyleAudit.CharSet.Boundary
import StyleAudit.CharSet.Script

/-!
Sets of characters by the names that the Unicode standard gives them.

Names are compared without case, blanks, dashes and underscores, and without an `is` before them.
-/

namespace StyleAudit.CharSet

/-- Whether a character does not count in a name. -/
def isNameFiller (c : Char) : Bool :=
  c == ' ' || c == '_' || c == '-' || 0x80 ≤ c.toNat

/--
The form in which names are compared. The name `isc` stands for a property of its own and does not
come down to that of the group `c`.
-/
def plainName (name : String) : String :=
  let plain (cs : List Char) : String :=
    String.ofList ((cs.filter fun c => !isNameFiller c).map Char.toLower)
  match name.toList with
  | i :: s :: rest =>
    if i.toLower = 'i' ∧ s.toLower = 's' then
      if plain rest = "c" then "isc" else plain rest
    else plain (i :: s :: rest)
  | cs => plain cs

/-- A set by its own name: a property, a category or a script. -/
def named? (name : String) : Option CharSet :=
  let name := plainName name
  propertyNamed? name <|> categoryNamed? name <|> (scriptCode? name).map script

/-- A set by a kind of classification and the name of a class in it. -/
def classNamed? (kind name : String) : Option CharSet :=
  let name := plainName name
  match plainName kind with
  | "generalcategory" | "gc" => categoryNamed? name
  | "script" | "sc" => (scriptCode? name).map script
  | "scriptextensions" | "scx" => (scriptCode? name).map scriptUsers
  | "age" => (versionNamed? name).map sinceVersion
  | "graphemeclusterbreak" | "gcb" => graphemeBreak? name
  | "wordbreak" | "wb" => wordBreak? name
  | "sentencebreak" | "sb" => sentenceBreak? name
  | _ => none

end StyleAudit.CharSet
