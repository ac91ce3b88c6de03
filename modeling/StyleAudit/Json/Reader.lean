import StyleAudit.Json.Numeral
import StyleAudit.Text.Alphanumeric
import StyleAudit.Text.Blank

/-!
Reading JSON in its relaxed form.

Beside plain JSON this takes comments, trailing and missing commas, texts in single quotes, bare
words and numbers as keys, hexadecimal numbers and a plus sign. A text is first cut into tokens;
a machine with one frame per open bracket then builds the value.
-/

namespace StyleAudit.Json

/-- A token; a number keeps its text, because it may be a key. -/
inductive Token where
  | openBrace
  | closeBrace
  | openBracket
  | closeBracket
  | comma
  | colon
  | quoted (value : String)
  | bare (value : String)
  | number (written : String) (value : Json)
  | literal (value : Json)

namespace Token

/-- The value of four hexadecimal digits. -/
def hex4? (a b c d : Char) : Option Nat := do
  let a ← Numeral.hexValue? a
  let b ← Numeral.hexValue? b
  let c ← Numeral.hexValue? c
  let d ← Numeral.hexValue? d
  return ((a * 16 + b) * 16 + c) * 16 + d

/-- The character that a letter after a backslash stands for. -/
def unescape? (quote c : Char) : Option Char :=
  if c = quote ∨ c = '\\' ∨ c = '/' then some c
  else if c = 'b' then some '\x08'
  else if c = 'f' then some '\x0c'
  else if c = 'n' then some '\n'
  else if c = 'r' then some '\r'
  else if c = 't' then some '\t'
  else none

/-- Reads a text up to its closing quote; gives the text and what follows. -/
def readText (quote : Char) : List Char → Option (List Char × List Char)
  | [] => none
  | '\\' :: 'u' :: a :: b :: c :: d :: cs => do
    let n ← hex4? a b c d
    if 0xD800 ≤ n ∧ n ≤ 0xDBFF then
      match cs with
      | '\\' :: 'u' :: e :: f :: g :: h :: ds =>
        let m ← hex4? e f g h
        if 0xDC00 ≤ m ∧ m ≤ 0xDFFF then
          let (text, rest) ← readText quote ds
          return (Char.ofNat (0x10000 + (n - 0xD800) * 0x400 + (m - 0xDC00)) :: text, rest)
        else none
      | _ => none
    else if 0xDC00 ≤ n ∧ n ≤ 0xDFFF then none
    else
      let (text, rest) ← readText quote cs
      return (Char.ofNat n :: text, rest)
  | '\\' :: c :: cs => do
    let d ← unescape? quote c
    let (text, rest) ← readText quote cs
    return (d :: text, rest)
  | c :: cs =>
    if c = quote then some ([], cs)
    else do
      let (text, rest) ← readText quote cs
      return (c :: text, rest)

/-- Drops a comment up to the end of its line. -/
def skipLine : List Char → List Char
  | [] => []
  | '\n' :: cs => '\n' :: cs
  | _ :: cs => skipLine cs

/-- Drops a comment up to its end mark. -/
def skipBlock : List Char → Option (List Char)
  | '*' :: '/' :: cs => some cs
  | _ :: cs => skipBlock cs
  | [] => none

/-- Takes a literal word, unless a letter or digit follows it. -/
def takeWord? (word : List Char) (cs : List Char) : Option (List Char) :=
  if word.isPrefixOf cs then
    let rest := cs.drop word.length
    match rest with
    | [] => some rest
    | c :: _ => if Text.isAlphanumeric c then none else some rest
  else none

/-- Reads a bare word, which ends at a blank or a colon. -/
def readWord (cs : List Char) : Option (List Char × List Char) :=
  let word := cs.takeWhile fun c => !(Text.isBlank c) && c != ':'
  if word.isEmpty then none
  else if word.all fun c => Text.isAlphanumeric c || c == '-' || c == '_' then
    some (word, cs.drop word.length)
  else none

/-- Reads a token that is no punctuation. -/
def readLong (cs : List Char) : Option (Token × List Char) :=
  match cs with
  | [] => none
  | c :: rest =>
    if c = '"' ∨ c = '\'' then
      (readText c rest).map fun (text, rest) => (.quoted (String.ofList text), rest)
    else if c = '-' ∨ c = '+' ∨ c.isDigit then
      (Numeral.read cs).map fun (value, text, rest) => (.number (String.ofList text) value, rest)
    else
      match takeWord? "true".toList cs, takeWord? "false".toList cs,
        takeWord? "null".toList cs with
      | some rest, _, _ => some (.literal (.bool true), rest)
      | _, some rest, _ => some (.literal (.bool false), rest)
      | _, _, some rest => some (.literal .null, rest)
      | _, _, _ => (readWord cs).map fun (word, rest) => (.bare (String.ofList word), rest)

/-- Cuts a text into tokens. The first argument bounds their number. -/
def readAll : Nat → List Char → Option (List Token)
  | 0, _ => none
  | _ + 1, [] => some []
  | fuel + 1, c :: cs =>
    if Text.isBlank c then readAll fuel cs
    else if c = '\x7b' then (readAll fuel cs).map (.openBrace :: ·)
    else if c = '\x7d' then (readAll fuel cs).map (.closeBrace :: ·)
    else if c = '[' then (readAll fuel cs).map (.openBracket :: ·)
    else if c = ']' then (readAll fuel cs).map (.closeBracket :: ·)
    else if c = ',' then (readAll fuel cs).map (.comma :: ·)
    else if c = ':' then (readAll fuel cs).map (.colon :: ·)
    else if c = '/' then
      match cs with
      | '/' :: ds => readAll fuel (skipLine ds)
      | '*' :: ds => do readAll fuel (← skipBlock ds)
      | _ => none
    else do
      let (token, rest) ← readLong (c :: cs)
      let tokens ← readAll fuel rest
      return token :: tokens

end Token

/-- A bracket that is open, with what it holds so far. -/
inductive Frame where
  /-- Items, last first. -/
  | array (items : List Json)
  /-- Fields, and the key whose value is being read. -/
  | object (fields : List (String × Json)) (key : String)

/-- What the machine waits for. -/
inductive Expect where
  /-- The value of the whole text. -/
  | root
  /-- An item of the innermost array, or its end. -/
  | item (items : List Json)
  /-- What follows an item: a comma may. -/
  | afterItem (items : List Json)
  | key (fields : List (String × Json))
  | afterKey (fields : List (String × Json)) (key : String)
  | fieldValue (fields : List (String × Json)) (key : String)
  | afterField (fields : List (String × Json))
  /-- The end of the text. -/
  | done (value : Json)

/-- Hands a finished value to the innermost open bracket. -/
def deliver (value : Json) : List Frame → List Frame × Expect
  | [] => ([], .done value)
  | .array items :: frames => (frames, .afterItem (value :: items))
  | .object fields key :: frames => (frames, .afterField (Table.insert key value fields))

/-- Takes the token that begins a value; `frames` already holds what surrounds the value. -/
def beginValue (frames : List Frame) : Token → Option (List Frame × Expect)
  | .openBrace => some (frames, .key [])
  | .openBracket => some (frames, .item [])
  | .quoted s => some (deliver (.string s) frames)
  | .number _ v => some (deliver v frames)
  | .literal v => some (deliver v frames)
  | _ => none

/-- Takes a key, or the end of the innermost object. -/
def takeKey (frames : List Frame) (fields : List (String × Json)) :
    Token → Option (List Frame × Expect)
  | .closeBrace => some (deliver (.object fields) frames)
  | .quoted s => some (frames, .afterKey fields s)
  | .bare s => some (frames, .afterKey fields s)
  | .number s _ => some (frames, .afterKey fields s)
  | _ => none

/-- Takes an item, or the end of the innermost array. -/
def takeItem (frames : List Frame) (items : List Json) (token : Token) :
    Option (List Frame × Expect) :=
  match token with
  | .closeBracket => some (deliver (.array items.reverse) frames)
  | token => beginValue (.array items :: frames) token

def step (frames : List Frame) (expect : Expect) (token : Token) :
    Option (List Frame × Expect) :=
  match expect with
  | .root => beginValue frames token
  | .item items => takeItem frames items token
  | .afterItem items =>
    match token with
    | .comma => some (frames, .item items)
    | token => takeItem frames items token
  | .key fields => takeKey frames fields token
  | .afterKey fields key =>
    match token with
    | .colon => some (frames, .fieldValue fields key)
    | _ => none
  | .fieldValue fields key => beginValue (.object fields key :: frames) token
  | .afterField fields =>
    match token with
    | .comma => some (frames, .key fields)
    | token => takeKey frames fields token
  | .done _ => none

/-- Runs the machine over all tokens; `some none` is a text without any value. -/
def build (frames : List Frame) (expect : Expect) : List Token → Option (Option Json)
  | [] =>
    match expect with
    | .root => some none
    | .done value => some (some value)
    | _ => none
  | token :: tokens =>
    match step frames expect token with
    | some (frames, expect) => build frames expect tokens
    | none => none

/-- Reads relaxed JSON: `none` if it is malformed, `some none` if there is no value in it. -/
def parse? (source : String) : Option (Option Json) := do
  let tokens ← Token.readAll (source.length + 1) source.toList
  build [] .root tokens

end StyleAudit.Json
