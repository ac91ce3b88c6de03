import StyleAudit.Sheet.Indexed
import StyleAudit.Sheet.Reader

/-!
The reader of stylesheets as it runs on bytes.

It holds an offset into the source, looks at single bytes, and slices the source where a part of a
node begins and ends. Blocks are read by recursion. It reads what `Sheet.parse` reads, where nothing
is looked up at an offset.
-/

namespace StyleAudit.ByteReader

open Reader (commentBody splitLast)

/-- The byte that an ASCII character is encoded as. -/
def isByte (c : Char) (b : UInt8) : Bool :=
  b == c.toUInt8

def isBlankByte (b : UInt8) : Bool :=
  isByte ' ' b || isByte '\t' b || isByte '\n' b || isByte '\r' b || isByte '\x0c' b

def isSeparatorByte (b : UInt8) : Bool :=
  isBlankByte b || isByte ';' b

def isQuoteByte (b : UInt8) : Bool :=
  isByte '"' b || isByte '\'' b

def isTerminatorByte (b : UInt8) : Bool :=
  isByte ';' b || isByte '\x7b' b || isByte '\x7d' b

/-- Bytes of an at-rule's name. Every byte of a character beyond ASCII is one. -/
def isNameByte (b : UInt8) : Bool :=
  (48 ≤ b && b ≤ 57) || (65 ≤ b && b ≤ 90) || (97 ≤ b && b ≤ 122) || isByte '-' b ||
    isByte '_' b || 0x80 ≤ b

/-- The first offset from `i` on where no byte satisfies `p`. -/
def skipWhile (bytes : ByteArray) (p : UInt8 → Bool) (i : Nat) : Nat :=
  if h : i < bytes.size then
    if p bytes[i] then skipWhile bytes p (i + 1) else i
  else i
termination_by bytes.size - i

/-- The offset behind the last byte before `i` that does not satisfy `p`. -/
def skipBack (bytes : ByteArray) (p : UInt8 → Bool) : Nat → Nat
  | 0 => 0
  | i + 1 => if bytes[i]?.any p then skipBack bytes p i else i + 1

def splitAt (text : String) (offset : Nat) : Except Halt (String × String) := do
  let head ← sliceOf text 0 offset
  let tail ← sliceOf text offset text.utf8ByteSize
  return (head, tail)

/-- Splits off the blanks at the beginning. -/
def splitLeading (text : String) : Except Halt (String × String) :=
  splitAt text (skipWhile text.toUTF8 isBlankByte 0)

/-- Splits off the blanks at the end. -/
def splitTrailing (text : String) : Except Halt (String × String) :=
  splitAt text (skipBack text.toUTF8 isBlankByte text.utf8ByteSize)

/-- Splits a trailing important mark off a value, with the blanks before it. -/
def splitImportant (value : String) : Except Halt (String × Option String) :=
  match splitLast (· == '!') value.toList with
  | none => .ok (value, none)
  | some (head, _) => do
    let bang := byteLength head
    let word ← sliceOf value (bang + 1) value.utf8ByteSize
    if Text.eqIgnoreCase (Text.trim word.toList) "important".toList then
      let (kept, _) ← splitTrailing (← sliceOf value 0 bang)
      let mark ← sliceOf value kept.utf8ByteSize value.utf8ByteSize
      return (kept, some mark)
    else return (value, none)

/-- The offset behind the next quote that no backslash stands before. -/
def stringEnd (bytes : ByteArray) (quote : UInt8) (i : Nat) : Option Nat :=
  if h : i < bytes.size then
    if isByte '\\' bytes[i] then stringEnd bytes quote (i + 2)
    else if bytes[i] = quote then some (i + 1)
    else stringEnd bytes quote (i + 1)
  else none
termination_by bytes.size - i

theorem lt_stringEnd {bytes : ByteArray} {quote : UInt8} {i next : Nat}
    (h : stringEnd bytes quote i = some next) : i < next := by
  fun_induction stringEnd bytes quote i <;> grind

variable (s : IndexedText)

/-- The offset behind the string that a quote opens. -/
def skipString (opened : Nat) : Except Halt Nat := do
  let quote ← s.byteAt opened
  match stringEnd s.bytes quote (opened + 1) with
  | some next => return next
  | none => s.fail .unclosedString opened

/-- The offset behind the comment that a slash and a star open. -/
def skipComment (opened : Nat) : Except Halt Nat := do
  let inside ← s.slice (opened + 2) s.size
  match commentBody inside.toList with
  | some (body, _) => return opened + 2 + byteLength body + 2
  | none => s.fail .unclosedComment opened

theorem fail_ne_ok {α : Type} (fault : Fault) (offset : Nat) (a : α) :
    s.fail fault offset ≠ .ok a := by
  unfold IndexedText.fail
  cases s.positionAt offset <;> simp [bind, Except.bind]

theorem lt_skipString {opened next : Nat} (h : skipString s opened = .ok next) :
    opened < next := by
  unfold skipString at h
  cases hquote : s.byteAt opened with
  | error e => simp [hquote, bind, Except.bind] at h
  | ok quote =>
    simp only [hquote, bind, Except.bind] at h
    split at h
    · rename_i hend
      obtain rfl := Except.ok.inj h
      have := lt_stringEnd hend
      omega
    · exact absurd h (fail_ne_ok s _ _ _)

theorem lt_skipComment {opened next : Nat} (h : skipComment s opened = .ok next) :
    opened < next := by
  unfold skipComment at h
  cases hinside : s.slice (opened + 2) s.size with
  | error e => simp [hinside, bind, Except.bind] at h
  | ok inside =>
    simp only [hinside, bind, Except.bind] at h
    split at h
    · obtain rfl := Except.ok.inj h
      omega
    · exact absurd h (fail_ne_ok s _ _ _)

/--
The offset of the `;`, `{` or `}` that ends the statement at `i`, with that byte, or the end of the
source.
-/
def scanFrom (depth i : Nat) : Except Halt (Nat × Option UInt8) :=
  if h : i < s.bytes.size then
    let b := s.bytes[i]
    if isQuoteByte b then
      match _hnext : skipString s i with
      | .error e => .error e
      | .ok next => scanFrom depth next
    else if isByte '/' b && s.bytes[i + 1]?.any (isByte '*') then
      match _hnext : skipComment s i with
      | .error e => .error e
      | .ok next => scanFrom depth next
    else if isByte '\\' b then scanFrom depth (i + 2)
    else if isByte '(' b then scanFrom (depth + 1) (i + 1)
    else if isByte ')' b then scanFrom (depth - 1) (i + 1)
    else if isTerminatorByte b && depth == 0 then .ok (i, some b)
    else scanFrom depth (i + 1)
  else .ok (s.size, none)
termination_by s.bytes.size - i
decreasing_by
  · have := lt_skipString s _hnext
    omega
  · have := lt_skipComment s _hnext
    omega
  all_goals omega

/-- The offset of the first colon from `i` on and before `stop`, outside strings and comments. -/
def findColon (stop i : Nat) : Except Halt (Option Nat) :=
  if _hstop : i < stop then
    match s.byteAt i with
    | .error e => .error e
    | .ok b =>
      if isQuoteByte b then
        match _hnext : skipString s i with
        | .error e => .error e
        | .ok next => findColon stop next
      else if isByte '/' b && s.bytes[i + 1]?.any (isByte '*') then
        match _hnext : skipComment s i with
        | .error e => .error e
        | .ok next => findColon stop next
      else if isByte ':' b then .ok (some i)
      else findColon stop (i + 1)
  else .ok none
termination_by stop - i
decreasing_by
  · have := lt_skipString s _hnext
    omega
  · have := lt_skipComment s _hnext
    omega
  · omega

/-- Reads the statement between two offsets as a declaration. -/
def declaration (before : String) (start stop : Nat) (semicolon : Bool) :
    Except Halt Declaration := do
  let raw ← s.slice start stop
  match ← findColon s stop start with
  | none => s.fail .unknownWord start
  | some colon =>
    let lead ← difference colon start
    let (prop, propSpace) ← splitTrailing (← sliceOf raw 0 lead)
    if prop.isEmpty then s.fail .missingProperty start
    else
      let (valueSpace, rest) ← splitLeading (← sliceOf raw (lead + 1) raw.utf8ByteSize)
      let (trimmed, afterValue) ← splitTrailing rest
      let (value, mark) ← splitImportant trimmed
      let shown ← difference raw.utf8ByteSize afterValue.utf8ByteSize
      let source ← s.range start (start + shown)
      return {
        prop := prop
        value := value
        important := mark.isSome
        raws := {
          before := before
          between := propSpace ++ ":" ++ valueSpace
          important := if mark = some importantMark then none else mark
          afterValue := afterValue
          semicolon := semicolon }
        source := some source }

/-- One item of a block's content. -/
inductive Item where
  /-- A node, and the offset behind it. -/
  | leaf (node : Node) (next : Nat)
  /-- The offset of an opening brace, and the node once its block has been read. -/
  | opening (brace : Nat) (finish : List Node → String → SourceRange → Node)

/-- Reads the comment that begins at an offset. -/
def comment (before : String) (start : Nat) : Except Halt Item := do
  let inside ← s.slice (start + 2) s.size
  match commentBody inside.toList with
  | none => s.fail .unclosedComment start
  | some (body, _) =>
    let inner ← s.slice (start + 2) (start + 2 + byteLength body)
    let next := start + 2 + byteLength body + 2
    let (left, trimmed) ← splitLeading inner
    let (text, right) ← splitTrailing trimmed
    let source ← s.range start next
    return .leaf (.comment ⟨text, ⟨before, left, right⟩, some source⟩) next

/-- Reads the at-rule that begins at an offset, up to its block if it has one. -/
def atRule (before : String) (start : Nat) : Except Halt Item := do
  let named := skipWhile s.bytes isNameByte (start + 1)
  if named = start + 1 then s.fail .namelessAtRule start
  else
    let name ← s.slice (start + 1) named
    let (stop, terminator) ← scanFrom s 0 named
    let (afterName, trimmed) ← splitLeading (← s.slice named stop)
    let (params, between) ← splitTrailing trimmed
    if terminator.any (isByte '\x7b') then
      return .opening stop fun nodes after source =>
        .block name params nodes ⟨before, afterName, between, after, false⟩ (some source)
    else
      let semicolon := terminator.any (isByte ';')
      let next := if semicolon then stop + 1 else stop
      let source ← s.range start next
      return .leaf
        (.statement name params ⟨before, afterName, between, "", semicolon⟩ (some source)) next

/-- Reads the rule that begins at an offset up to its block, or the declaration there. -/
def statement (before : String) (start : Nat) : Except Halt Item := do
  let (stop, terminator) ← scanFrom s 0 start
  if terminator.any (isByte '\x7b') then
    let (selector, between) ← splitTrailing (← s.slice start stop)
    return .opening stop fun nodes after source =>
      .rule selector nodes ⟨before, between, after⟩ (some source)
  else
    let semicolon := terminator.any (isByte ';')
    let d ← declaration s before start stop semicolon
    return .leaf (.decl d) (if semicolon then stop + 1 else stop)

/-- Reads the item that begins at an offset with the byte `b`. -/
def item (before : String) (start : Nat) (b : UInt8) : Except Halt Item :=
  if isByte '@' b then atRule s before start
  else if isByte '/' b then do
    let tail ← s.slice start s.size
    if ['/', '*'].isPrefixOf tail.toList then comment s before start
    else statement s before start
  else statement s before start

/--
Reads the nodes from an offset up to the end of the block whose brace stands at `opened`, or of the
source. `nodes` are those that the block has already, last first. Gives the nodes, the text after
the last one, and the offset behind the block.
-/
def block (opened : Option Nat) (nodes : List Node) (pos : Nat) :
    Except Halt (List Node × String × Nat) := do
  let here := skipWhile s.bytes isSeparatorByte pos
  let before ← s.slice pos here
  match s.bytes[here]? with
  | none =>
    match opened with
    | some brace => s.fail .unclosedBlock brace
    | none => return (nodes.reverse, before, here)
  | some b =>
    if isByte '\x7d' b then
      match opened with
      | none => s.fail .unexpectedBrace here
      | some _ => return (nodes.reverse, before, here + 1)
    else
      match ← item s before here b with
      | .leaf node next =>
        if _h : pos < next ∧ next ≤ s.size then block opened (node :: nodes) next
        else .error (.stuck pos next)
      | .opening brace finish =>
        if _h : pos < brace + 1 ∧ brace + 1 ≤ s.size then
          let (children, after, last) ← block (some brace) [] (brace + 1)
          let source ← s.range here last
          if _h : pos < last ∧ last ≤ s.size then
            block opened (finish children after source :: nodes) last
          else .error (.stuck pos last)
        else .error (.stuck pos (brace + 1))
termination_by s.size - pos

/-- Reads a whole source. -/
def read (source : String) : Except Halt Sheet := do
  let (nodes, after, _) ← block (IndexedText.ofString source) none [] 0
  return ⟨nodes, after⟩

end StyleAudit.ByteReader
