import StyleAudit.Text.Blank

/-!
Directive comments: what a comment asks the linter to do.

A directive is a command, then the rules it is about, separated by commas, then a description
after a run of two or more dashes that stands alone. Without rules it is about every rule.
-/

namespace StyleAudit

inductive Command where
  | disable
  | enable
  | disableLine
  | disableNextLine
deriving DecidableEq, Repr

def Command.name : Command → String
  | .disable => "sheetlint-disable"
  | .enable => "sheetlint-enable"
  | .disableLine => "sheetlint-disable-line"
  | .disableNextLine => "sheetlint-disable-next-line"

structure Directive where
  command : Command
  rules : List String
  description : Option String
deriving DecidableEq, Repr

namespace Directive

/-- The commands in the order in which they are tried. -/
def commands : List Command :=
  [.disableNextLine, .disableLine, .disable, .enable]

/-- Whether nothing or an ASCII blank comes first. -/
def startsBlank : List Char → Bool
  | [] => true
  | c :: _ => Text.isAsciiBlank c

/--
Splits a text at its first run of two or more dashes that stands alone: after an ASCII blank, and
before one or at the end. The argument is the character before the text.
-/
def splitDashes (previous : Option Char) : List Char → Option (List Char × List Char)
  | [] => none
  | c :: cs =>
    let run := (c :: cs).takeWhile (· == '-')
    let rest := (c :: cs).dropWhile (· == '-')
    if 2 ≤ run.length ∧ (previous.map Text.isAsciiBlank).getD false ∧ startsBlank rest then
      some ([], rest)
    else (splitDashes (some c) cs).map fun (head, tail) => (c :: head, tail)

/-- The text before the description, and the description if it is not empty. -/
def cutDescription (text : List Char) : List Char × Option (List Char) :=
  match splitDashes none text with
  | none => (text, none)
  | some (head, tail) =>
    let description := Text.trim tail
    (Text.trimRight head, if description.isEmpty then none else some description)

/-- Splits a text at its commas. -/
def splitCommas : List Char → List (List Char)
  | [] => [[]]
  | c :: cs =>
    if c = ',' then [] :: splitCommas cs
    else
      match splitCommas cs with
      | [] => [[c]]
      | s :: ss => (c :: s) :: ss

/-- The names in a list that commas separate; blank entries do not count. -/
def listedRules (text : List Char) : List String :=
  ((splitCommas text).map Text.trim).filterMap fun name =>
    if name.isEmpty then none else some (String.ofList name)

/-- What follows a command at the head of a text, if nothing but a blank may follow it. -/
def afterCommand? (command : Command) (body : List Char) : Option (List Char) :=
  let name := command.name.toList
  if name.isPrefixOf body then
    let rest := body.drop name.length
    match rest with
    | [] => some rest
    | c :: _ => if Text.isBlank c then some rest else none
  else none

/-- The directive that a comment text is, if it is one. -/
def parse? (text : String) : Option Directive :=
  let (body, description) := cutDescription (Text.trim text.toList)
  commands.findSome? fun command =>
    (afterCommand? command body).map fun rest =>
      ⟨command, listedRules rest, description.map String.ofList⟩

end Directive

end StyleAudit
