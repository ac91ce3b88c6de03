import StyleAudit.Sheet.Position

/-!
What can be wrong with a stylesheet source, and how it is worded.
-/

namespace StyleAudit

/-- The ways in which a source fails to be a stylesheet. -/
inductive Fault where
  | unclosedBlock
  | unclosedComment
  | unclosedString
  | unexpectedBrace
  | namelessAtRule
  | unknownWord
  | missingProperty
deriving DecidableEq, Repr

def Fault.reason : Fault → String
  | .unclosedBlock => "Unclosed block"
  | .unclosedComment => "Unclosed comment"
  | .unclosedString => "Unclosed string"
  | .unexpectedBrace => "Unexpected \x7d"
  | .namelessAtRule => "At-rule without name"
  | .unknownWord => "Unknown word"
  | .missingProperty => "Missing property"

/-- A fault and the place that it is reported at. -/
structure FaultAt where
  fault : Fault
  place : Cursor
deriving DecidableEq, Repr

/-- The name under which a source without a file is shown. -/
def unnamedSource : String := "<input css>"

/-- A located syntax error. -/
structure SyntaxError where
  reason : String
  file : Option String
  line : Nat
  column : Nat
deriving DecidableEq, Repr

namespace SyntaxError

/-- The rule name of the warning that stands for a syntax error. -/
def ruleName : String := "CssSyntaxError"

def message (e : SyntaxError) : String :=
  s!"{e.file.getD unnamedSource}:{e.line}:{e.column}: {e.reason}"

def ofFault (file : Option String) (f : FaultAt) : SyntaxError :=
  ⟨f.fault.reason, file, f.place.position.line, f.place.position.column⟩

end SyntaxError

/-- Why a parser gave no tree. -/
inductive ParseError where
  | malformed (error : SyntaxError)
  | unsupported (feature : String)
  | internal (message : String)
deriving DecidableEq, Repr

def ParseError.message : ParseError → String
  | .malformed e => e.message
  | .unsupported feature => s!"Unsupported feature: {feature}"
  | .internal text => s!"Internal parser error: {text}"

end StyleAudit
