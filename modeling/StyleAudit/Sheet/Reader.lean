import StyleAudit.Sheet.Fault
import StyleAudit.Sheet.Node
import StyleAudit.Text.Blank

/-!
Reading a stylesheet source into a tree.

The reader takes one item of a block at a time: a comment, an at-rule, a declaration, or the
heading of a block. Blocks that are open are kept as a list of frames, innermost first. Every
character of the source goes to exactly one field of the tree, so the tree prints back to it.
-/

namespace StyleAudit.Reader

/-- The blanks of the stylesheet grammar. -/
def isBlankChar (c : Char) : Bool :=
  c == ' ' || c == '\t' || c == '\n' || c == '\r' || c == '\x0c'

/-- What may stand between two nodes. -/
def isSeparator (c : Char) : Bool :=
  isBlankChar c || c == ';'

def isQuote (c : Char) : Bool :=
  c == '"' || c == '\''

/-- Characters of an at-rule's name. -/
def isNameChar (c : Char) : Bool :=
  c.isAlphanum || c == '-' || c == '_' || 0x80 ≤ c.toNat

/-- Characters that end a statement outside parentheses. -/
def isTerminator (c : Char) : Bool :=
  c == ';' || c == '\x7b' || c == '\x7d'

/-- What the scanner is inside of, with the place where it was opened. -/
inductive Mode where
  | plain
  | quoted (quote : Char) (opened : Cursor)
  | comment (opened : Cursor)
deriving DecidableEq, Repr

def prepend (cs : List Char) : Except FaultAt (List Char × List Char) →
    Except FaultAt (List Char × List Char)
  | .ok (text, rest) => .ok (cs ++ text, rest)
  | .error e => .error e

/--
Splits a source where the statement at its head ends: before the first `;`, `{` or `}` outside
strings, comments and parentheses, or at the end. A backslash takes the next character with it.
-/
def scan : Mode → Nat → Cursor → List Char → Except FaultAt (List Char × List Char)
  | .plain, _, _, [] => .ok ([], [])
  | .quoted _ opened, _, _, [] => .error ⟨.unclosedString, opened⟩
  | .comment opened, _, _, [] => .error ⟨.unclosedComment, opened⟩
  | .plain, depth, cur, c :: cs =>
    if c = '\\' then
      match cs with
      | [] => .ok ([c], [])
      | d :: ds => prepend [c, d] (scan .plain depth ((cur.advance c).advance d) ds)
    else if isQuote c then prepend [c] (scan (.quoted c cur) depth (cur.advance c) cs)
    else if c = '/' then
      match cs with
      | [] => .ok ([c], [])
      | d :: ds =>
        if d = '*' then
          prepend [c, d] (scan (.comment cur) depth ((cur.advance c).advance d) ds)
        else prepend [c] (scan .plain depth (cur.advance c) (d :: ds))
    else if c = '(' then prepend [c] (scan .plain (depth + 1) (cur.advance c) cs)
    else if c = ')' then prepend [c] (scan .plain (depth - 1) (cur.advance c) cs)
    else if isTerminator c && depth == 0 then .ok ([], c :: cs)
    else prepend [c] (scan .plain depth (cur.advance c) cs)
  | .quoted quote opened, depth, cur, c :: cs =>
    if c = '\\' then
      match cs with
      | [] => .error ⟨.unclosedString, opened⟩
      | d :: ds =>
        prepend [c, d] (scan (.quoted quote opened) depth ((cur.advance c).advance d) ds)
    else if c = quote then prepend [c] (scan .plain depth (cur.advance c) cs)
    else prepend [c] (scan (.quoted quote opened) depth (cur.advance c) cs)
  | .comment opened, depth, cur, c :: cs =>
    match cs with
    | [] => .error ⟨.unclosedComment, opened⟩
    | d :: ds =>
      if c = '*' ∧ d = '/' then
        prepend [c, d] (scan .plain depth ((cur.advance c).advance d) ds)
      else prepend [c] (scan (.comment opened) depth (cur.advance c) (d :: ds))

/--
The number of characters before the first colon outside strings and comments among the first
`limit` characters. Unlike `scan` it gives backslashes outside strings no meaning, and a string or
comment that it enters may lead it past the limit.
-/
def colonOffset : Mode → Nat → Cursor → List Char → Except FaultAt (Option Nat)
  | .plain, _, _, [] => .ok none
  | .quoted _ opened, _, _, [] => .error ⟨.unclosedString, opened⟩
  | .comment opened, _, _, [] => .error ⟨.unclosedComment, opened⟩
  | .plain, limit, cur, c :: cs =>
    if limit = 0 then .ok none
    else if c = ':' then .ok (some 0)
    else if isQuote c then
      after 1 (colonOffset (.quoted c cur) (limit - 1) (cur.advance c) cs)
    else if c = '/' then
      match cs with
      | [] => .ok none
      | d :: ds =>
        if d = '*' then
          after 2 (colonOffset (.comment cur) (limit - 2) ((cur.advance c).advance d) ds)
        else after 1 (colonOffset .plain (limit - 1) (cur.advance c) (d :: ds))
    else after 1 (colonOffset .plain (limit - 1) (cur.advance c) cs)
  | .quoted quote opened, limit, cur, c :: cs =>
    if c = '\\' then
      match cs with
      | [] => .error ⟨.unclosedString, opened⟩
      | d :: ds =>
        after 2 (colonOffset (.quoted quote opened) (limit - 2) ((cur.advance c).advance d) ds)
    else if c = quote then after 1 (colonOffset .plain (limit - 1) (cur.advance c) cs)
    else after 1 (colonOffset (.quoted quote opened) (limit - 1) (cur.advance c) cs)
  | .comment opened, limit, cur, c :: cs =>
    match cs with
    | [] => .error ⟨.unclosedComment, opened⟩
    | d :: ds =>
      if c = '*' ∧ d = '/' then
        after 2 (colonOffset .plain (limit - 2) ((cur.advance c).advance d) ds)
      else after 1 (colonOffset (.comment opened) (limit - 1) (cur.advance c) (d :: ds))
where
  after (n : Nat) : Except FaultAt (Option Nat) → Except FaultAt (Option Nat)
    | .ok (some k) => .ok (some (n + k))
    | r => r

/-- Splits a text after the last character that satisfies `p`, leaving that character out. -/
def splitLast (p : Char → Bool) : List Char → Option (List Char × List Char)
  | [] => none
  | c :: cs =>
    match splitLast p cs with
    | some (head, tail) => some (c :: head, tail)
    | none => if p c then some ([], cs) else none

/--
Splits a trailing important mark off a value. The mark is an exclamation mark and the word
"important" in any case, with any blanks around the word, together with the blanks before it.
-/
def cutImportantMark (value : List Char) : List Char × Option (List Char) :=
  match splitLast (· == '!') value with
  | none => (value, none)
  | some (head, tail) =>
    if Text.eqIgnoreCase (Text.trim tail) "important".toList then
      let (kept, space) := Text.splitTail isBlankChar head
      (kept, some (space ++ '!' :: tail))
    else (value, none)

/-- Reads the statement `text`, which starts at `first` and is the head of `source`. -/
def readDeclaration (before : List Char) (first : Cursor) (source text : List Char)
    (semicolon : Bool) : Except FaultAt Declaration :=
  match colonOffset .plain text.length first source with
  | .error e => .error e
  | .ok none => .error ⟨.unknownWord, first⟩
  | .ok (some n) =>
    let (prop, propSpace) := Text.splitTail isBlankChar (text.take n)
    if prop.isEmpty then .error ⟨.missingProperty, first⟩
    else
      let (valueSpace, rest) := Text.splitHead isBlankChar (text.drop (n + 1))
      let (trimmed, afterValue) := Text.splitTail isBlankChar rest
      let (value, mark) := cutImportantMark trimmed
      let spelled := mark.map String.ofList
      let shown := text.take n ++ ':' :: (valueSpace ++ trimmed)
      .ok {
        prop := String.ofList prop
        value := String.ofList value
        important := mark.isSome
        raws := {
          before := String.ofList before
          between := String.ofList (propSpace ++ ':' :: valueSpace)
          important := if spelled = some importantMark then none else spelled
          afterValue := String.ofList afterValue
          semicolon := semicolon }
        source := some (first.rangeTo (first.advanceAll shown)) }

/-- What stands before the opening brace of a block. -/
inductive Heading where
  | rule (selector between : List Char)
  | atRule (name afterName params between : List Char)
deriving Repr

/-- A block that is open. -/
structure Frame where
  before : List Char
  heading : Heading
  /-- Where the node begins. -/
  first : Cursor
  /-- Where the opening brace stands. -/
  brace : Cursor
  /-- The nodes before this one in its own block, last first. -/
  preceding : List Node

/-- The node of a block whose children are all read. -/
def Frame.close (f : Frame) (nodes : List Node) (after : List Char) (last : Cursor) : Node :=
  let source := some (f.first.rangeTo last)
  match f.heading with
  | .rule selector between =>
    .rule (String.ofList selector) nodes
      ⟨String.ofList f.before, String.ofList between, String.ofList after⟩ source
  | .atRule name afterName params between =>
    .block (String.ofList name) (String.ofList params) nodes
      ⟨String.ofList f.before, String.ofList afterName, String.ofList between,
        String.ofList after, false⟩ source

/-- One item of a block's content. -/
inductive Item where
  /-- A node that is complete. -/
  | leaf (node : Node)
  /-- The heading of a block, and where its brace stands. -/
  | opening (heading : Heading) (brace : Cursor)

/-- The text up to the end mark of a comment, and what follows the mark. -/
def commentBody : List Char → Option (List Char × List Char)
  | [] => none
  | c :: cs =>
    match cs with
    | [] => none
    | d :: ds =>
      if c = '*' ∧ d = '/' then some ([], ds)
      else (commentBody (d :: ds)).map fun (body, rest) => (c :: body, rest)

/-- Reads a comment whose opening mark has been taken. -/
def readComment (before : List Char) (first : Cursor) (inside : List Char) :
    Except FaultAt (Item × Cursor × List Char) :=
  match commentBody inside with
  | none => .error ⟨.unclosedComment, first⟩
  | some (body, rest) =>
    let (left, trimmed) := Text.splitHead isBlankChar body
    let (text, right) := Text.splitTail isBlankChar trimmed
    let last := first.advanceAll ('/' :: '*' :: body ++ ['*', '/'])
    .ok (.leaf (.comment {
      text := String.ofList text
      raws := ⟨String.ofList before, String.ofList left, String.ofList right⟩
      source := some (first.rangeTo last) }), last, rest)

/-- Reads an at-rule whose `@` has been taken, up to its block if it has one. -/
def readAtRule (before : List Char) (first : Cursor) (inside : List Char) :
    Except FaultAt (Item × Cursor × List Char) :=
  let (name, tail) := Text.splitHead isNameChar inside
  if name.isEmpty then .error ⟨.namelessAtRule, first⟩
  else
    let named := (first.advance '@').advanceAll name
    match scan .plain 0 named tail with
    | .error e => .error e
    | .ok (text, rest) =>
      let (afterName, trimmed) := Text.splitHead isBlankChar text
      let (params, between) := Text.splitTail isBlankChar trimmed
      let here := named.advanceAll text
      let statement (semicolon : Bool) (last : Cursor) : Item :=
        .leaf (.statement (String.ofList name) (String.ofList params)
          ⟨String.ofList before, String.ofList afterName, String.ofList between, "", semicolon⟩
          (some (first.rangeTo last)))
      match rest with
      | [] => .ok (statement false here, here, [])
      | c :: cs =>
        if c = '\x7b' then
          .ok (.opening (.atRule name afterName params between) here, here.advance c, cs)
        else if c = ';' then .ok (statement true (here.advance c), here.advance c, cs)
        else .ok (statement false here, here, c :: cs)

/-- Reads a rule up to its block, or a declaration. -/
def readStatement (before : List Char) (first : Cursor) (source : List Char) :
    Except FaultAt (Item × Cursor × List Char) :=
  match scan .plain 0 first source with
  | .error e => .error e
  | .ok (text, rest) =>
    let here := first.advanceAll text
    let declaration (semicolon : Bool) (last : Cursor) (rest : List Char) :
        Except FaultAt (Item × Cursor × List Char) :=
      match readDeclaration before first source text semicolon with
      | .error e => .error e
      | .ok d => .ok (.leaf (.decl d), last, rest)
    match rest with
    | [] => declaration false here []
    | c :: cs =>
      if c = '\x7b' then
        let (selector, between) := Text.splitTail isBlankChar text
        .ok (.opening (.rule selector between) here, here.advance c, cs)
      else if c = ';' then declaration true (here.advance c) cs
      else declaration false here (c :: cs)

/-- Reads the item that begins with `c`. -/
def readItem (before : List Char) (first : Cursor) (c : Char) (cs : List Char) :
    Except FaultAt (Item × Cursor × List Char) :=
  if c = '@' then readAtRule before first cs
  else
    match cs with
    | [] => readStatement before first (c :: cs)
    | d :: ds =>
      if c = '/' ∧ d = '*' then readComment before first ds
      else readStatement before first (c :: cs)

theorem prepend_ok {cs text rest : List Char} {r : Except FaultAt (List Char × List Char)}
    (h : prepend cs r = .ok (text, rest)) : ∃ t, r = .ok (t, rest) ∧ text = cs ++ t := by
  cases r with
  | error e => simp [prepend] at h
  | ok p =>
    obtain ⟨t, u⟩ := p
    simp only [prepend, Except.ok.injEq, Prod.mk.injEq] at h
    exact ⟨t, by rw [h.2], h.1.symm⟩

/-- Scanning splits its input and loses nothing. -/
theorem scan_append {mode : Mode} {depth : Nat} {cur : Cursor} {cs text rest : List Char}
    (h : scan mode depth cur cs = .ok (text, rest)) : text ++ rest = cs := by
  fun_induction scan mode depth cur cs generalizing text <;> grind [prepend_ok]

/-- A statement is empty only where a terminator stands. -/
theorem isTerminator_of_scan_nil {depth : Nat} {cur : Cursor} {c : Char} {cs rest : List Char}
    (h : scan .plain depth cur (c :: cs) = .ok ([], rest)) : isTerminator c := by
  have absurd {pre : List Char} {r : Except FaultAt (List Char × List Char)}
      (hp : pre ≠ []) (hr : prepend pre r = .ok ([], rest)) : False := by
    obtain ⟨t, _, ht⟩ := prepend_ok hr
    exact hp (List.append_eq_nil_iff.1 ht.symm).1
  rw [scan.eq_def] at h
  dsimp only at h
  split at h
  · split at h
    · simp at h
    · exact (absurd (by simp) h).elim
  · split at h
    · exact (absurd (by simp) h).elim
    · split at h
      · split at h
        · simp at h
        · split at h <;> exact (absurd (by simp) h).elim
      · split at h
        · exact (absurd (by simp) h).elim
        · split at h
          · exact (absurd (by simp) h).elim
          · split at h
            · rename_i ht
              simp only [Bool.and_eq_true] at ht
              exact ht.1
            · exact (absurd (by simp) h).elim

/-- The rest after a comment is shorter than what stood after its opening mark. -/
theorem commentBody_append {cs body rest : List Char} (h : commentBody cs = some (body, rest)) :
    body ++ '*' :: '/' :: rest = cs := by
  fun_induction commentBody cs generalizing body with
  | case1 => simp at h
  | case2 => simp at h
  | case3 c d ds hcd =>
    simp only [Option.some.injEq, Prod.mk.injEq] at h
    obtain ⟨rfl, rfl⟩ := h
    simp [hcd]
  | case4 c d ds hcd ih =>
    simp only [Option.map_eq_some_iff, Prod.mk.injEq, Prod.exists] at h
    obtain ⟨b, r, hb, rfl, rfl⟩ := h
    simp [ih hb]

theorem length_readComment {before : List Char} {first last : Cursor} {inside rest : List Char}
    {item : Item} (h : readComment before first inside = .ok (item, last, rest)) :
    rest.length < inside.length := by
  unfold readComment at h
  split at h
  · simp at h
  · rename_i body tail hb
    simp only [Except.ok.injEq, Prod.mk.injEq] at h
    obtain ⟨_, _, rfl⟩ := h
    have := congrArg List.length (commentBody_append hb)
    simp at this
    omega

theorem length_readAtRule {before : List Char} {first last : Cursor} {inside rest : List Char}
    {item : Item} (h : readAtRule before first inside = .ok (item, last, rest)) :
    rest.length ≤ inside.length := by
  unfold readAtRule at h
  have hsplit := congrArg List.length (Text.splitHead_append isNameChar inside)
  simp only [List.length_append] at hsplit
  dsimp only at h
  split at h
  · simp at h
  · split at h
    · simp at h
    · rename_i text tail hscan
      have hlen := congrArg List.length (scan_append hscan)
      simp only [List.length_append] at hlen
      split at h
      · simp only [Except.ok.injEq, Prod.mk.injEq] at h
        obtain ⟨_, _, rfl⟩ := h
        simp
      · simp only [List.length_cons] at hlen
        split at h
        · simp only [Except.ok.injEq, Prod.mk.injEq] at h
          obtain ⟨_, _, rfl⟩ := h
          omega
        · split at h
          · simp only [Except.ok.injEq, Prod.mk.injEq] at h
            obtain ⟨_, _, rfl⟩ := h
            omega
          · simp only [Except.ok.injEq, Prod.mk.injEq] at h
            obtain ⟨_, _, rfl⟩ := h
            simp only [List.length_cons]
            omega

theorem length_readStatement {before : List Char} {first last : Cursor} {c : Char}
    {cs rest : List Char} {item : Item} (hc : c ≠ '\x7d')
    (h : readStatement before first (c :: cs) = .ok (item, last, rest)) :
    rest.length ≤ cs.length := by
  unfold readStatement at h
  dsimp only at h
  split at h
  · simp at h
  · rename_i text tail hscan
    have happ := scan_append hscan
    have hlen := congrArg List.length happ
    simp only [List.length_append, List.length_cons] at hlen
    split at h
    · split at h
      · simp at h
      · simp only [Except.ok.injEq, Prod.mk.injEq] at h
        obtain ⟨_, _, rfl⟩ := h
        simp
    · simp only [List.length_cons] at hlen
      split at h
      · simp only [Except.ok.injEq, Prod.mk.injEq] at h
        obtain ⟨_, _, rfl⟩ := h
        omega
      · split at h
        · split at h
          · simp at h
          · simp only [Except.ok.injEq, Prod.mk.injEq] at h
            obtain ⟨_, _, rfl⟩ := h
            omega
        · split at h
          · simp at h
          · simp only [Except.ok.injEq, Prod.mk.injEq] at h
            obtain ⟨_, _, rfl⟩ := h
            rename_i hopen hsemi _ _ _
            simp only [List.length_cons]
            cases text with
            | cons t ts => simp only [List.length_cons] at hlen; omega
            | nil =>
              have hterm := isTerminator_of_scan_nil hscan
              simp only [List.nil_append, List.cons.injEq] at happ
              obtain ⟨rfl, rfl⟩ := happ
              simp_all [isTerminator]

/-- Every item takes at least the character that it begins with. -/
theorem length_readItem {before : List Char} {first last : Cursor} {c : Char}
    {cs rest : List Char} {item : Item} (hc : c ≠ '\x7d')
    (h : readItem before first c cs = .ok (item, last, rest)) : rest.length ≤ cs.length := by
  unfold readItem at h
  split at h
  · exact length_readAtRule h
  · split at h
    · exact length_readStatement hc h
    · split at h
      · have := length_readComment h
        simp only [List.length_cons]
        omega
      · exact length_readStatement hc h

/--
Reads the rest of a source. `frames` are the open blocks and `nodes` the nodes read so far in the
innermost of them, last first.
-/
def readNodes (frames : List Frame) (nodes : List Node) (cur : Cursor) (source : List Char) :
    Except FaultAt Sheet :=
  match _hs : Text.splitHead isSeparator source with
  | (before, []) =>
    match frames with
    | [] => .ok ⟨nodes.reverse, String.ofList before⟩
    | frame :: _ => .error ⟨.unclosedBlock, frame.brace⟩
  | (before, c :: cs) =>
    let first := cur.advanceAll before
    if _hc : c = '\x7d' then
      match frames with
      | [] => .error ⟨.unexpectedBrace, first⟩
      | frame :: outer =>
        let last := first.advance c
        readNodes outer (frame.close nodes.reverse before last :: frame.preceding) last cs
    else
      match _hi : readItem before first c cs with
      | .error e => .error e
      | .ok (.leaf node, next, rest) => readNodes frames (node :: nodes) next rest
      | .ok (.opening heading brace, next, rest) =>
        readNodes (⟨before, heading, first, brace, nodes⟩ :: frames) [] next rest
termination_by source.length
decreasing_by
  all_goals
    have hlen := congrArg List.length (Text.splitHead_append isSeparator source)
    rw [_hs] at hlen
    simp only [List.length_append, List.length_cons] at hlen
  · omega
  · have := length_readItem _hc _hi
    omega
  · have := length_readItem _hc _hi
    omega

end StyleAudit.Reader

namespace StyleAudit

/-- Reads a stylesheet. The file name only shows in errors. -/
def Sheet.parse (file : Option String) (source : String) : Except SyntaxError Sheet :=
  match Reader.readNodes [] [] Cursor.start source.toList with
  | .ok sheet => .ok sheet
  | .error f => .error (SyntaxError.ofFault file f)

end StyleAudit
