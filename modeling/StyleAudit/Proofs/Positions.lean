import StyleAudit.Proofs.ByteReading
import StyleAudit.Proofs.Spans

/-!
The positions of nodes and of faults.

The reference walk starts at the first line and column of a source and advances over one character
after the other. The positions that the reader of bytes looks up are those of this walk: the ends of
every node, and the place of every fault, where what is at fault begins.
-/

namespace StyleAudit

theorem takeBytes?_eq_some_iff {n : Nat} {cs pre : List Char} :
    takeBytes? n cs = some pre ↔ pre <+: cs ∧ byteLength pre = n := by
  constructor
  · intro h
    fun_induction takeBytes? n cs generalizing pre with
    | case1 cs =>
        obtain rfl := Option.some.inj h
        exact ⟨List.nil_prefix, rfl⟩
    | case2 => cases h
    | case3 n c cs hle ih =>
        obtain ⟨front, hfront, rfl⟩ := Option.map_eq_some_iff.1 h
        obtain ⟨hbegin, hlength⟩ := ih hfront
        refine ⟨(List.prefix_cons_inj c).2 hbegin, ?_⟩
        rw [byteLength]
        omega
    | case4 => cases h
  · rintro ⟨⟨rest, rfl⟩, rfl⟩
    exact takeBytes?_append pre rest

namespace Position

/-- The position that the reference walk comes to at an offset; none inside a character and past the
end. -/
def walkTo (source : String) (offset : Nat) : Option Position :=
  (takeBytes? offset source.toList).map start.advanceAll

theorem walkTo_eq_some_iff {source : String} {offset : Nat} {p : Position} :
    walkTo source offset = some p ↔
      ∃ pre, pre <+: source.toList ∧ byteLength pre = offset ∧ start.advanceAll pre = p := by
  simp only [walkTo, Option.map_eq_some_iff, takeBytes?_eq_some_iff, and_assoc]

theorem walkTo_append {source : String} {pre rest : List Char}
    (h : source.toList = pre ++ rest) :
    walkTo source (byteLength pre) = some (start.advanceAll pre) :=
  walkTo_eq_some_iff.2 ⟨pre, ⟨rest, h.symm⟩, rfl, rfl⟩

/-- The order of positions: by line, and by column on one line. -/
def Before (p q : Position) : Prop :=
  p.line < q.line ∨ p.line = q.line ∧ p.column < q.column

theorem Before.trans {p q r : Position} (hpq : p.Before q) (hqr : q.Before r) : p.Before r := by
  unfold Before at *
  omega

/-- The numbers of lines and columns are counted from one, and have not come to the limit after
`n` more characters. -/
structure RoomFor (p : Position) (n : Nat) : Prop where
  line : 1 ≤ p.line ∧ p.line + n < limit
  column : 1 ≤ p.column ∧ p.column + n < limit

theorem RoomFor.advance {p : Position} {n : Nat} (h : p.RoomFor (n + 1)) (c : Char) :
    (p.advance c).RoomFor n ∧ p.Before (p.advance c) := by
  obtain ⟨hline, hcolumn⟩ := h
  unfold Position.advance
  by_cases hc : c = '\n'
  · rw [if_pos hc, following_of_lt (by omega)]
    exact ⟨⟨by dsimp only; omega, by dsimp only; omega⟩, .inl (Nat.lt_succ_self _)⟩
  · rw [if_neg hc, following_of_lt (by omega)]
    exact ⟨⟨by dsimp only; omega, by dsimp only; omega⟩, .inr ⟨rfl, Nat.lt_succ_self _⟩⟩

theorem following_of_pos {n : Nat} (hn : n < limit) (h : 1 ≤ following n) :
    following n = n + 1 := by
  by_cases hlimit : n + 1 = limit
  · rw [following, hlimit, Nat.mod_self] at h
    omega
  · exact following_of_lt (by omega)

/-- One character moves on, unless it takes the line or the column to the limit. -/
theorem before_advance {p : Position} {c : Char} (hp : p.RoomFor 0)
    (hline : 1 ≤ (p.advance c).line) (hcolumn : 1 ≤ (p.advance c).column) :
    p.Before (p.advance c) := by
  obtain ⟨hpline, hpcolumn⟩ := hp
  unfold Position.advance at *
  by_cases hc : c = '\n'
  · rw [if_pos hc] at hline ⊢
    rw [following_of_pos (by omega) hline]
    exact .inl (Nat.lt_succ_self _)
  · rw [if_neg hc] at hcolumn ⊢
    rw [following_of_pos (by omega) hcolumn]
    exact .inr ⟨rfl, Nat.lt_succ_self _⟩

/-- The walk over a text moves on with every character. -/
theorem RoomFor.advanceAll {p : Position} {n : Nat} (cs : List Char)
    (h : p.RoomFor (cs.length + n)) :
    (p.advanceAll cs).RoomFor n ∧ (cs ≠ [] → p.Before (p.advanceAll cs)) := by
  induction cs generalizing p with
  | nil =>
      rw [List.length_nil, Nat.zero_add] at h
      exact ⟨h, absurd rfl⟩
  | cons c cs ih =>
      rw [List.length_cons, Nat.add_right_comm] at h
      obtain ⟨hroom, hnext⟩ := h.advance c
      obtain ⟨hlast, hlater⟩ := ih hroom
      refine ⟨hlast, fun _ => ?_⟩
      cases cs with
      | nil => exact hnext
      | cons d ds => exact hnext.trans (hlater (List.cons_ne_nil d ds))

end Position

/-- Of two prefixes of a text the one with fewer bytes is a prefix of the other. -/
theorem prefix_of_byteLength_lt {cs a b : List Char} (ha : a <+: cs) (hb : b <+: cs)
    (hlt : byteLength a < byteLength b) : ∃ mid, mid ≠ [] ∧ b = a ++ mid := by
  rcases List.prefix_or_prefix_of_prefix ha hb with hab | hba
  · obtain ⟨mid, rfl⟩ := hab
    refine ⟨mid, ?_, rfl⟩
    rintro rfl
    rw [List.append_nil] at hlt
    omega
  · obtain ⟨mid, rfl⟩ := hba
    rw [byteLength_append] at hlt
    omega

namespace Position

variable {source : String} {offset : Nat} {p : Position}

/-- A short walk from the start leaves room for what is short of the limit. -/
theorem roomFor_start (cs : List Char) {n : Nat} (h : byteLength cs + n + 1 < limit) :
    (start.advanceAll cs).RoomFor n := by
  have hlength := length_le_byteLength cs
  exact (RoomFor.advanceAll cs
    ⟨by dsimp only [start]; omega, by dsimp only [start]; omega⟩).1

theorem walkTo_pos (h : walkTo source offset = some p) (hsmall : offset + 1 < limit) :
    1 ≤ p.line ∧ 1 ≤ p.column := by
  obtain ⟨pre, hpre, rfl, rfl⟩ := walkTo_eq_some_iff.1 h
  have hroom := roomFor_start pre (n := 0) hsmall
  exact ⟨hroom.line.1, hroom.column.1⟩

/-- Positions of the reference walk grow with the offset as long as they count from one. -/
theorem walkTo_grows (h : walkTo source offset = some p) (hsmall : offset < limit)
    (hline : 1 ≤ p.line) (hcolumn : 1 ≤ p.column) {earlier : Nat} {q : Position}
    (hearlier : earlier < offset) (hq : walkTo source earlier = some q) : q.Before p := by
  obtain ⟨pre, hpre, rfl, rfl⟩ := walkTo_eq_some_iff.1 h
  obtain ⟨front, hfront, rfl, rfl⟩ := walkTo_eq_some_iff.1 hq
  obtain ⟨mid, hmid, rfl⟩ := prefix_of_byteLength_lt hfront hpre hearlier
  -- Up to the last character there is room, and the last one is passed without a wrap.
  obtain ⟨between, c, rfl⟩ := List.eq_nil_or_concat mid |>.resolve_left hmid
  have hc := c.utf8Size_pos
  rw [List.concat_eq_append] at hsmall hline hcolumn ⊢
  simp only [byteLength_append, byteLength] at hsmall
  have hroom := roomFor_start front (n := between.length) (by
    have := length_le_byteLength between
    omega)
  rw [← List.append_assoc, advanceAll_concat, advanceAll_append] at hline hcolumn ⊢
  obtain ⟨hlast, hbefore⟩ := RoomFor.advanceAll (n := 0) between hroom
  have hstep := before_advance hlast hline hcolumn
  by_cases hne : between = []
  · subst hne
    exact hstep
  · exact (hbefore hne).trans hstep

end Position

/-! ### Nodes -/

/-- The ends of a range are where the reference walk comes to at the ends of its span. -/
structure SourceRange.Walked (source : String) (range : SourceRange) : Prop where
  start : Position.walkTo source range.span.start = some range.location.start
  stop : Position.walkTo source range.span.stop = some range.location.stop

/-- The range between two places of a short source is that of the reference walk. -/
theorem SourceRange.walked_rangeTo {source : String} {front text back : List Char}
    (h : source.toList = front ++ text ++ back)
    (hsmall : source.utf8ByteSize < Position.limit) :
    ((Cursor.start.advanceAll front).rangeTo
      (Cursor.start.advanceAll (front ++ text))).Walked source := by
  have hwalked {pre rest : List Char} (hpre : source.toList = pre ++ rest) :
      Position.walkTo source ((Cursor.start.advanceAll pre).offset % Position.limit) =
        some (Cursor.start.advanceAll pre).position := by
    have hsize := utf8ByteSize_eq source
    rw [hpre, byteLength_append] at hsize
    rw [Cursor.offset_advanceAll, Cursor.position_advanceAll,
      show Cursor.start.offset + byteLength pre = byteLength pre from Nat.zero_add _,
      Nat.mod_eq_of_lt (by omega)]
    exact Position.walkTo_append hpre
  exact ⟨hwalked (h.trans (List.append_assoc ..)), hwalked h⟩

theorem Node.StandsIn.walked {source : String} {node : Node} (h : node.StandsIn source.toList)
    (hsmall : source.utf8ByteSize < Position.limit) :
    ∃ range, node.source = some range ∧ range.Walked source := by
  obtain ⟨front, back, hsource, hplaced⟩ := h
  refine ⟨_, hplaced.standsAfter.2, ?_⟩
  rw [← Cursor.advanceAll_append, ← Cursor.advanceAll_append, ← List.append_assoc]
  have hsplit : source.toList =
      front ++ node.before ++ node.shown ++ (node.trail ++ back) := by
    rw [hsource, toList_render]
    simp
  exact SourceRange.walked_rangeTo hsplit hsmall

/-! ### Faults -/

namespace Reader

/-- What stands before an item: nothing, a separator, the brace that opens the block, or the end of
another item. -/
inductive BeforeItem : List Char → Prop where
  | nothing : BeforeItem []
  | mark {c : Char} (front : List Char) (hc : isSeparator c ∨ c = '\x7b' ∨ c = '\x7d') :
      BeforeItem (front ++ [c])
  | comment (front : List Char) : BeforeItem (front ++ ['*', '/'])

structure ItemStart (front back : List Char) : Prop where
  before : BeforeItem front
  begins : ∃ c cs, back = c :: cs ∧ ¬isSeparator c ∧ c ≠ '\x7d'

/-- Where a fault is reported: at the brace of a block without an end, at a brace that closes
nothing, at the quote or the mark of what has no end, or at the item that is at fault. -/
inductive StandsAt : Fault → List Char → List Char → Prop where
  | brace (front back : List Char) : StandsAt .unclosedBlock front ('\x7b' :: back)
  | stray (front back : List Char) : StandsAt .unexpectedBrace front ('\x7d' :: back)
  | unclosed {fault : Fault} {back : List Char} (front : List Char) (hopen : Unclosed fault back) :
      StandsAt fault front back
  | item {fault : Fault} {front back : List Char} (hstart : ItemStart front back)
      (hblames : Blames fault [] back) : StandsAt fault front back

/-- The reader has come to a place of the source where an item may begin or a block ends, and the
braces of the open blocks stand at places of the source. -/
structure State.Reaches (source : List Char) (s : State) : Prop where
  place : ∃ pre, source = pre ++ s.source ∧ s.cur = Cursor.start.advanceAll pre ∧
    (BeforeItem pre ∨ AtBlockEnd s.source)
  braces : ∀ frame ∈ s.frames, ∃ front back, source = front ++ '\x7b' :: back ∧
    frame.brace = Cursor.start.advanceAll front

/-- Separators leave open that an item may begin behind them. -/
theorem BeforeItem.append {pre before : List Char} (h : BeforeItem pre)
    (hbefore : ∀ c ∈ before, isSeparator c) : BeforeItem (pre ++ before) := by
  rcases List.eq_nil_or_concat before with rfl | ⟨front, c, rfl⟩
  · rwa [List.append_nil]
  · rw [List.concat_eq_append, ← List.append_assoc]
    exact .mark _ (.inl (hbefore c (by simp)))

/-- An item begins where a turn meets a character that closes no block. -/
theorem itemStart_of_turn {pre rest before cs : List Char} {c : Char}
    (hplace : BeforeItem pre ∨ AtBlockEnd rest)
    (hsplit : Text.splitHead isSeparator rest = (before, c :: cs)) (hc : c ≠ '\x7d') :
    ItemStart (pre ++ before) (c :: cs) := by
  obtain ⟨-, hbefore, hhead⟩ := Text.splitHead_eq_iff.1 hsplit
  refine ⟨?_, c, cs, rfl, hhead c rfl, hc⟩
  rcases hplace with hpre | hend
  · exact hpre.append hbefore
  · obtain ⟨-, rfl⟩ := eq_nil_of_atBlockEnd hend hsplit
    exact absurd (hend c rfl) hc

/-- A node without children and with its semicolon, if it takes one, ends so that an item may begin
behind it. -/
theorem beforeItem_of_leaf {node : Node} (hchildren : node.children? = none)
    (hended : ¬node.lacksSemicolon) (pre : List Char) :
    BeforeItem (pre ++ (node.shown ++ node.trail)) := by
  cases node with
  | rule selector nodes raws source => cases hchildren
  | block name params nodes raws source => cases hchildren
  | statement name params raws source =>
      have hsemi : raws.semicolon = true := by simpa [Node.lacksSemicolon] using hended
      simp only [Node.shown, Node.trail, hsemi, if_true, List.append_nil, ← List.append_assoc]
      exact .mark _ (.inl (by decide))
  | decl d =>
      have hsemi : d.raws.semicolon = true := by simpa [Node.lacksSemicolon] using hended
      simp only [Node.shown, Node.trail, hsemi, if_true, ← List.append_assoc]
      exact .mark _ (.inl (by decide))
  | comment c =>
      simp only [Node.shown, Node.trail, List.append_nil, ← List.append_assoc]
      exact .comment _

/-- Every turn of the reader comes to a place where an item may begin or a block ends. -/
theorem Step.reaches {source : List Char} {a b : State} (h : Step a b) (ha : a.Reaches source) :
    b.Reaches source := by
  obtain ⟨⟨pre, hsource, hcur, hplace⟩, hbraces⟩ := ha
  cases h with
  | @close frame outer nodes cur last rest before cs hsplit hlast =>
      have hrest := (Text.splitHead_eq_iff.1 hsplit).1
      dsimp only at hsource hcur
      refine ⟨⟨pre ++ before ++ ['\x7d'], ?_, ?_, .inl (.mark _ (.inr (.inr rfl)))⟩, ?_⟩
      · rw [hsource, ← hrest]
        simp
      · dsimp only
        rw [hlast, hcur]
        simp
      · exact fun frame hframe => hbraces frame (List.mem_cons_of_mem _ hframe)
  | @leaf frames nodes cur next rest before cs back c node hsplit hitem =>
      have hrest := (Text.splitHead_eq_iff.1 hsplit).1
      obtain ⟨-, hbefore, hhead⟩ := Text.splitHead_eq_iff.1 hsplit
      obtain ⟨-, hcs, hnext⟩ := readItem_leaf hitem
      obtain ⟨hchildren, -, hend⟩ := canonical_readItem hbefore (hhead c rfl) hitem
      dsimp only at hsource hcur
      refine ⟨⟨pre ++ before ++ (node.shown ++ node.trail), ?_, ?_, ?_⟩, hbraces⟩
      · rw [hsource, ← hrest, hcs]
        simp
      · dsimp only
        rw [hnext, hcur]
        simp
      · by_cases hlacks : node.lacksSemicolon
        · exact .inr (hend hlacks)
        · exact .inl (beforeItem_of_leaf hchildren hlacks _)
  | @opening frames nodes cur brace next rest before cs back c heading hsplit hitem =>
      have hrest := (Text.splitHead_eq_iff.1 hsplit).1
      obtain ⟨hcs, hbrace, hnext⟩ := readItem_opening hitem
      dsimp only at hsource hcur
      have hwhole : source = pre ++ before ++ heading.text ++ '\x7b' :: back := by
        rw [hsource, ← hrest, hcs]
        simp
      refine ⟨⟨pre ++ before ++ heading.text ++ ['\x7b'], ?_, ?_,
        .inl (.mark _ (.inr (.inl rfl)))⟩, ?_⟩
      · rw [hwhole]
        simp
      · dsimp only
        rw [hnext, hcur]
        simp
      · intro frame hframe
        rcases List.mem_cons.1 hframe with rfl | hframe
        · refine ⟨_, back, hwhole, ?_⟩
          dsimp only
          rw [hbrace, hcur]
          simp
        · exact hbraces frame hframe

/-- A fault of the reader stands where it is reported. -/
theorem State.Fails.standsAt {source : List Char} {s : State} {f : FaultAt} (h : s.Fails f)
    (hs : s.Reaches source) : ∃ front back, source = front ++ back ∧
      f.place = Cursor.start.advanceAll front ∧ StandsAt f.fault front back := by
  obtain ⟨⟨pre, hsource, hcur, hplace⟩, hbraces⟩ := hs
  cases h with
  | @unclosed frame outer nodes cur rest before hsplit =>
      obtain ⟨front, back, hfront, hbrace⟩ := hbraces frame List.mem_cons_self
      exact ⟨front, _, hfront, hbrace, .brace front back⟩
  | @unexpected nodes cur rest before cs hsplit =>
      have hrest := (Text.splitHead_eq_iff.1 hsplit).1
      dsimp only at hsource hcur
      refine ⟨pre ++ before, '\x7d' :: cs, ?_, ?_, .stray _ cs⟩
      · rw [hsource, ← hrest, List.append_assoc]
      · rw [hcur, Cursor.advanceAll_append]
  | @item frames nodes cur rest before cs c f hsplit hc hitem =>
      have hrest := (Text.splitHead_eq_iff.1 hsplit).1
      dsimp only at hsource hcur
      have hstart := itemStart_of_turn hplace hsplit hc
      obtain ⟨fault, place⟩ := f
      obtain ⟨front, back, hfront, hblames, hfault, -⟩ := readItem_fault_anywhere hitem
      dsimp only at hblames hfault ⊢
      refine ⟨pre ++ before ++ front, back, ?_, ?_, ?_⟩
      · rw [hsource, ← hrest, hfront]
        simp
      · rw [hfault, hcur]
        simp
      · cases front with
        | nil =>
            obtain rfl : c :: cs = back := hfront
            rw [List.append_nil]
            exact .item hstart hblames
        | cons d ds =>
            cases hblames with
            | unclosed hopen => exact .unclosed _ hopen

/-- A fault is reported where what is at fault begins. -/
theorem standsAt_of_readNodes {source : List Char} {f : FaultAt}
    (h : readNodes [] [] Cursor.start source = .error f) :
    ∃ front back, source = front ++ back ∧ f.place = Cursor.start.advanceAll front ∧
      StandsAt f.fault front back := by
  have hstart : State.Reaches source ⟨[], [], Cursor.start, source⟩ :=
    ⟨⟨[], rfl, rfl, .inl .nothing⟩, nofun⟩
  obtain ⟨s, hs, hfails⟩ := readNodes_fails (State.Reaches source) Step.reaches hstart h
  exact hfails.standsAt hs

end Reader

/-- What begins at an offset of a source is what a fault is reported at. -/
def Fault.BeginsAt (source : String) (fault : Fault) (offset : Nat) : Prop :=
  ∃ front back, source.toList = front ++ back ∧ byteLength front = offset ∧
    Reader.StandsAt fault front back

/--
The positions of a short source are those of the reference walk: at the ends of every node, at the
offset where a fault begins, and wherever else a position is looked up. They count from one and grow
with the offset. Only at the end of a source of `Position.limit - 1` bytes a line or a column can
come to the limit, which is no word.
-/
theorem Sheet.positions_of_parse {source : String}
    (hsmall : source.utf8ByteSize < Position.limit) (file : Option String) :
    (∀ sheet, Sheet.parse file source = .ok sheet → ByteReader.read source = .ok sheet ∧
      ∀ node ∈ sheet.walk, ∃ range, node.source = some range ∧ range.Walked source) ∧
    (∀ e, Sheet.parse file source = .error e → ∃ fault offset,
      ByteReader.read source = .error (.malformed fault offset ⟨e.line, e.column⟩) ∧
        e.reason = fault.reason ∧ fault.BeginsAt source offset ∧
        Position.walkTo source offset = some ⟨e.line, e.column⟩) ∧
    ∀ offset p, Position.walkTo source offset = some p →
      (IndexedText.ofString source).positionAt offset = .ok p ∧
        (offset + 1 < Position.limit → 1 ≤ p.line ∧ 1 ≤ p.column) ∧
        (1 ≤ p.line → 1 ≤ p.column → ∀ earlier q, earlier < offset →
          Position.walkTo source earlier = some q → q.Before p) := by
  refine ⟨fun sheet h => ⟨?_, fun node hnode => ?_⟩, fun e h => ?_,
    fun offset p h => ⟨?_, Position.walkTo_pos h, fun hline hcolumn earlier q hearlier hq => ?_⟩⟩
  · unfold Sheet.parse at h
    rw [ByteReader.read_eq]
    cases hread : Reader.readNodes [] [] Cursor.start source.toList with
    | error f =>
        rw [hread] at h
        cases h
    | ok read =>
        rw [hread] at h
        obtain rfl := Except.ok.inj h
        rfl
  · have hstand := Node.standIn_walkAll sheet.nodes (Sheet.standIn_of_parse h)
    exact (hstand node hnode).walked hsmall
  · unfold Sheet.parse at h
    rw [ByteReader.read_eq]
    cases hread : Reader.readNodes [] [] Cursor.start source.toList with
    | ok read =>
        rw [hread] at h
        cases h
    | error f =>
        rw [hread] at h
        obtain rfl := Except.error.inj h
        obtain ⟨front, back, hsource, hplace, hstands⟩ := Reader.standsAt_of_readNodes hread
        have hoffset : f.place.offset = byteLength front := by
          rw [hplace, Cursor.offset_advanceAll]
          exact Nat.zero_add _
        refine ⟨f.fault, f.place.offset, rfl, rfl,
          ⟨front, back, hsource, hoffset.symm, hstands⟩, ?_⟩
        rw [hoffset, Position.walkTo_append hsource, SyntaxError.ofFault, hplace,
          Cursor.position_advanceAll]
        rfl
  · obtain ⟨pre, ⟨rest, hsource⟩, rfl, rfl⟩ := Position.walkTo_eq_some_iff.1 h
    exact IndexedText.positionAt_append (s := .ofString source) hsource.symm
  · refine Position.walkTo_grows h ?_ hline hcolumn hearlier hq
    obtain ⟨pre, ⟨rest, hsource⟩, rfl, -⟩ := Position.walkTo_eq_some_iff.1 h
    rw [utf8ByteSize_eq, ← hsource, byteLength_append] at hsmall
    omega

/-- A character of two bytes, a second line, and a string that has no end. -/
def brokenSource : String :=
  "/* \u00e9 */\na \x7b q: \"x \x7d"

theorem Sheet.positions_of_parse_broken :
    brokenSource.utf8ByteSize < Position.limit ∧
      Sheet.parse none brokenSource = .error ⟨"Unclosed string", none, 2, 8⟩ ∧
      ∃ fault offset, ByteReader.read brokenSource = .error (.malformed fault offset ⟨2, 8⟩) ∧
        "Unclosed string" = fault.reason ∧ fault.BeginsAt brokenSource offset ∧
        Position.walkTo brokenSource offset = some ⟨2, 8⟩ := by
  have hsmall : brokenSource.utf8ByteSize < Position.limit := by decide +kernel
  have herror : (match Sheet.parse none brokenSource with
      | .ok _ => false
      | .error e => e == ⟨"Unclosed string", none, 2, 8⟩) = true := by decide +kernel
  cases h : Sheet.parse none brokenSource with
  | ok sheet => simp [h] at herror
  | error e =>
      obtain rfl : e = ⟨"Unclosed string", none, 2, 8⟩ := by simpa [h] using herror
      exact ⟨hsmall, rfl, (Sheet.positions_of_parse hsmall none).2.1 _ h⟩

end StyleAudit
