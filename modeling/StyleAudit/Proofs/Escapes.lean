import Mathlib.Logic.Relation
import StyleAudit.Proofs.ByteReading
import StyleAudit.Proofs.Positions

/-!
The search for a colon beside the scan for the end of a statement.

Both go over the same bytes, and both skip strings and comments as a whole. Only the scan knows
that a backslash takes the next character with it. So the search opens the strings and comments
that the scan opens, up to an escape that has a quote or the mark of a comment behind its backslash.
Up to there it always comes to an end within the statement, and nothing is left unclosed.
-/

namespace StyleAudit.ByteReader

open Relation

variable {s : IndexedText} {stop i j next depth : Nat} {terminator : Option UInt8}

/-- What it comes to to skip the string or the comment that begins at an offset, if one does. -/
def skip? (s : IndexedText) (i : Nat) : Option (Except Halt Nat) :=
  match s.bytes[i]? with
  | none => none
  | some b =>
    if isQuoteByte b then some (skipString s i)
    else if isByte '/' b && s.bytes[i + 1]?.any (isByte '*') then some (skipComment s i)
    else none

theorem scanFrom_skip {r : Except Halt Nat} (h : skip? s i = some r) (depth : Nat) :
    scanFrom s depth i = r.bind (scanFrom s depth) := by
  rw [scanFrom_eq_ite]
  rw [skip?] at h
  grind

theorem scanFrom_pass {b : UInt8} (h : skip? s i = none) (hbyte : s.bytes[i]? = some b)
    (depth : Nat) :
    scanFrom s depth i =
      if isByte '\\' b then scanFrom s depth (i + 2)
      else if isByte '(' b then scanFrom s (depth + 1) (i + 1)
      else if isByte ')' b then scanFrom s (depth - 1) (i + 1)
      else if isTerminatorByte b && depth == 0 then .ok (i, some b)
      else scanFrom s depth (i + 1) := by
  rw [scanFrom_eq_ite, hbyte]
  rw [skip?, hbyte] at h
  grind

theorem findColon_skip {r : Except Halt Nat} (hlt : i < stop) (h : skip? s i = some r) :
    findColon s stop i = r.bind (findColon s stop) := by
  rw [findColon_eq_ite, if_pos hlt]
  rw [skip?] at h
  grind

theorem findColon_pass {b : UInt8} (hlt : i < stop) (h : skip? s i = none)
    (hbyte : s.bytes[i]? = some b) :
    findColon s stop i = if isByte ':' b then .ok (some i) else findColon s stop (i + 1) := by
  rw [findColon_eq_ite, if_pos hlt, hbyte]
  rw [skip?, hbyte] at h
  grind

/-! ### Skips -/

theorem stringEnd_le {bytes : ByteArray} {quote : UInt8} (h : stringEnd bytes quote i = some next) :
    next ≤ bytes.size := by
  fun_induction stringEnd bytes quote i <;> grind

theorem skipString_le (h : skipString s i = .ok next) : next ≤ s.size := by
  unfold skipString at h
  cases hquote : s.byteAt i with
  | error e => simp [hquote, bind, Except.bind] at h
  | ok quote =>
      simp only [hquote, bind, Except.bind] at h
      split at h
      · rename_i hend
        obtain rfl := Except.ok.inj h
        exact stringEnd_le hend
      · exact absurd h (fail_ne_ok s _ _ _)

/-- A slice has as many bytes as lie between its ends. -/
theorem byteLength_slice {start : Nat} {text : String} (h : s.slice start stop = .ok text) :
    byteLength text.toList = stop - start ∧ start ≤ stop := by
  rw [IndexedText.slice, sliceOf, Span.slice?] at h
  split at h
  · rename_i slice hslice
    obtain rfl := Except.ok.inj h
    split at hslice
    · rename_i hle
      obtain ⟨rest, -, hrest⟩ := Option.bind_eq_some_iff.1 hslice
      obtain ⟨taken, htaken, htext⟩ := Option.bind_eq_some_iff.1 hrest
      obtain rfl := Option.some.inj htext
      exact ⟨by rw [String.toList_ofList, (takeBytes?_eq_some_iff.1 htaken).2], hle⟩
    · cases hslice
  · cases h

theorem skipComment_le (h : skipComment s i = .ok next) : next ≤ s.size := by
  unfold skipComment at h
  cases hinside : s.slice (i + 2) s.size with
  | error e => simp [hinside, bind, Except.bind] at h
  | ok inside =>
      simp only [hinside, bind, Except.bind] at h
      split at h
      · rename_i body rest hbody
        obtain rfl := Except.ok.inj h
        obtain ⟨hlength, hle⟩ := byteLength_slice hinside
        rw [← Reader.commentBody_append hbody, byteLength_append] at hlength
        simp only [byteLength, show '*'.utf8Size = 1 from rfl, show '/'.utf8Size = 1 from rfl]
          at hlength
        omega
      · exact absurd h (fail_ne_ok s _ _ _)

theorem le_of_skip? (h : skip? s i = some (.ok next)) : i < next ∧ next ≤ s.size := by
  rw [skip?] at h
  split at h
  · cases h
  · split at h
    · have hskip := Option.some.inj h
      exact ⟨lt_skipString s hskip, skipString_le hskip⟩
    · split at h
      · have hskip := Option.some.inj h
        exact ⟨lt_skipComment s hskip, skipComment_le hskip⟩
      · cases h

theorem lt_size_of_skip? {r : Except Halt Nat} (h : skip? s i = some r) : i < s.size := by
  rw [skip?] at h
  split at h
  · cases h
  · rename_i hbyte
    exact (getElem?_eq_some_iff.1 hbyte).1

/-- A scan ends at an offset that it begins before, or at the end of the source. -/
theorem le_of_scanFrom (h : scanFrom s depth i = .ok (stop, terminator)) :
    min i s.size ≤ stop := by
  fun_induction scanFrom s depth i <;> grind [→ lt_skipString, → lt_skipComment]

theorem le_size_of_scanFrom (h : scanFrom s depth i = .ok (stop, terminator)) : stop ≤ s.size := by
  fun_induction scanFrom s depth i <;> grind [IndexedText.size]

/-- What a scan that comes to an end skips, it skips to an offset that it does not end before. -/
theorem ok_of_skip? {r : Except Halt Nat} (h : scanFrom s depth i = .ok (stop, terminator))
    (hskip : skip? s i = some r) : ∃ next, r = .ok next ∧ next ≤ stop := by
  rw [scanFrom_skip hskip] at h
  cases r with
  | error e => cases h
  | ok next =>
      have := le_of_scanFrom h
      have := (le_of_skip? hskip).2
      exact ⟨next, rfl, by omega⟩

/-! ### Where the two go -/

/-- Where the scan goes on from an offset before the end of the statement. -/
inductive ScanStep (s : IndexedText) (stop : Nat) : Nat → Nat → Prop where
  | skip {i next : Nat} (hlt : i < stop) (hskip : skip? s i = some (.ok next)) :
      ScanStep s stop i next
  | escape {i : Nat} {b : UInt8} (hlt : i < stop) (hskip : skip? s i = none)
      (hbyte : s.bytes[i]? = some b) (hescape : isByte '\\' b) : ScanStep s stop i (i + 2)
  | pass {i : Nat} {b : UInt8} (hlt : i < stop) (hskip : skip? s i = none)
      (hbyte : s.bytes[i]? = some b) (hescape : ¬isByte '\\' b) : ScanStep s stop i (i + 1)

/-- Where the search goes on from an offset before the end of the statement. -/
inductive SearchStep (s : IndexedText) (stop : Nat) : Nat → Nat → Prop where
  | skip {i next : Nat} (hlt : i < stop) (hskip : skip? s i = some (.ok next)) :
      SearchStep s stop i next
  | pass {i : Nat} {b : UInt8} (hlt : i < stop) (hskip : skip? s i = none)
      (hbyte : s.bytes[i]? = some b) (hcolon : ¬isByte ':' b) : SearchStep s stop i (i + 1)

/-- The scan that begins at an offset comes to another one, outside strings and comments. -/
abbrev ScansTo (s : IndexedText) (stop : Nat) : Nat → Nat → Prop :=
  ReflTransGen (ScanStep s stop)

/-- The search that begins at an offset comes to another one, outside strings and comments. -/
abbrev SearchesTo (s : IndexedText) (stop : Nat) : Nat → Nat → Prop :=
  ReflTransGen (SearchStep s stop)

theorem ScanStep.lt (h : ScanStep s stop i j) : i < j := by
  cases h with
  | skip _ hskip => exact (le_of_skip? hskip).1
  | escape => omega
  | pass => omega

theorem ScanStep.unique : Relator.RightUnique (ScanStep s stop) := by
  intro i j k hj hk
  cases hj <;> cases hk <;> grind

theorem ScansTo.le (h : ScansTo s stop i j) : i ≤ j := by
  induction h with
  | refl => exact Nat.le_refl i
  | tail _ hstep ih => exact Nat.le_trans ih (Nat.le_of_lt hstep.lt)

/-- Each step is one that the scan takes. -/
theorem ScanStep.scanFrom_eq (h : ScanStep s stop i j)
    (hscan : scanFrom s depth i = .ok (stop, terminator)) :
    ∃ depth', scanFrom s depth' j = .ok (stop, terminator) := by
  cases h with
  | skip hlt hskip =>
      rw [scanFrom_skip hskip] at hscan
      exact ⟨depth, hscan⟩
  | escape hlt hskip hbyte hescape =>
      rw [scanFrom_pass hskip hbyte, if_pos hescape] at hscan
      exact ⟨depth, hscan⟩
  | pass hlt hskip hbyte hescape =>
      rw [scanFrom_pass hskip hbyte, if_neg hescape] at hscan
      split at hscan
      · exact ⟨_, hscan⟩
      · split at hscan
        · exact ⟨_, hscan⟩
        · split at hscan
          · -- The scan would end here, before the end of the statement.
            obtain ⟨rfl, -⟩ := Prod.mk.inj (Except.ok.inj hscan)
            exact absurd hlt (Nat.lt_irrefl i)
          · exact ⟨_, hscan⟩

theorem ScansTo.scanFrom_eq (h : ScansTo s stop i j)
    (hscan : scanFrom s depth i = .ok (stop, terminator)) :
    ∃ depth', scanFrom s depth' j = .ok (stop, terminator) := by
  induction h with
  | refl => exact ⟨depth, hscan⟩
  | tail _ hstep ih =>
      obtain ⟨depth', h⟩ := ih
      exact hstep.scanFrom_eq h

/-- Each step is one that the search takes. -/
theorem SearchStep.findColon_eq (h : SearchStep s stop i j) :
    findColon s stop i = findColon s stop j := by
  cases h with
  | skip hlt hskip => rw [findColon_skip hlt hskip]; rfl
  | pass hlt hskip hbyte hcolon => rw [findColon_pass hlt hskip hbyte, if_neg hcolon]

/-! ### Escapes that hide an opening -/

/-- A backslash before the end of the statement that both the scan and the search stand at. -/
structure EscapeAt (s : IndexedText) (stop start i : Nat) : Prop where
  scanned : ScansTo s stop start i
  searched : SearchesTo s stop start i
  lt : i < stop
  backslash : s.bytes[i]? = some '\\'.toUInt8

/-- Before the first colon stands an escape that a string or a comment would begin behind. -/
def HidesOpening (s : IndexedText) (stop start : Nat) : Prop :=
  ∃ i, EscapeAt s stop start i ∧ (skip? s (i + 1)).isSome

variable {start : Nat}

namespace EscapeAt

variable (h : EscapeAt s stop start i)
include h

theorem skip?_eq_none : skip? s i = none := by
  rw [skip?, h.backslash]
  rfl

theorem scanStep : ScanStep s stop i (i + 2) :=
  .escape h.lt h.skip?_eq_none h.backslash rfl

/-- The search passes the backslash alone. -/
theorem searchesTo_succ : SearchesTo s stop start (i + 1) :=
  h.searched.tail (.pass h.lt h.skip?_eq_none h.backslash (by decide))

/-- The scan does not come to a byte that is escaped. -/
theorem not_scansTo_succ : ¬ScansTo s stop start (i + 1) := by
  intro hscanned
  rcases ReflTransGen.total_of_right_unique ScanStep.unique h.scanned hscanned with hto | hback
  · rcases hto.cases_head with heq | ⟨j, hstep, hrest⟩
    · omega
    · obtain rfl := ScanStep.unique h.scanStep hstep
      have := ScansTo.le hrest
      omega
  · have := ScansTo.le hback
    omega

end EscapeAt

/-- The search stands where the scan stands, or behind the backslash of an escape, as long as no
escape hides an opening. -/
theorem SearchesTo.scanned_or_escaped (hhides : ¬HidesOpening s stop start)
    (h : SearchesTo s stop start j) :
    ScansTo s stop start j ∨ ∃ i, EscapeAt s stop start i ∧ j = i + 1 := by
  induction h with
  | refl => exact .inl .refl
  | @tail j next hsearched hstep ih =>
      rcases ih with hscanned | ⟨i, hescape, rfl⟩
      · cases hstep with
        | skip hlt hskip => exact .inl (hscanned.tail (.skip hlt hskip))
        | @pass b hlt hskip hbyte hcolon =>
            by_cases hb : isByte '\\' b
            · obtain rfl := eq_of_beq hb
              exact .inr ⟨j, ⟨hscanned, hsearched, hlt, hbyte⟩, rfl⟩
            · exact .inl (hscanned.tail (.pass hlt hskip hbyte hb))
      · cases hstep with
        | skip hlt hskip => exact absurd ⟨i, hescape, by rw [hskip]; rfl⟩ hhides
        | pass => exact .inl (hescape.scanned.tail hescape.scanStep)

/-- The search opens what the scan opens, and nothing else, unless an escape hides an opening. -/
theorem hidesOpening_iff (hscan : scanFrom s depth start = .ok (stop, terminator)) :
    HidesOpening s stop start ↔
      ∃ i, SearchesTo s stop start i ∧ i < stop ∧ (skip? s i).isSome ∧ ¬ScansTo s stop start i := by
  constructor
  · rintro ⟨i, hescape, hopens⟩
    refine ⟨i + 1, hescape.searchesTo_succ, ?_, hopens, hescape.not_scansTo_succ⟩
    obtain ⟨depth', hrest⟩ := ScansTo.scanFrom_eq (hescape.scanned.tail hescape.scanStep) hscan
    obtain ⟨r, hr⟩ := Option.isSome_iff_exists.1 hopens
    have := le_of_scanFrom hrest
    have := lt_size_of_skip? hr
    omega
  · rintro ⟨i, hsearched, -, hopens, hscanned⟩
    by_contra hhides
    rcases hsearched.scanned_or_escaped hhides with h | ⟨j, hescape, rfl⟩
    · exact hscanned h
    · exact hhides ⟨j, hescape, hopens⟩

/-- What the search skips ends within the statement, unless an escape hides an opening. -/
theorem SearchesTo.ok_of_skip? (hscan : scanFrom s depth start = .ok (stop, terminator))
    (hhides : ¬HidesOpening s stop start) (h : SearchesTo s stop start i) (hlt : i < stop)
    {r : Except Halt Nat} (hskip : skip? s i = some r) : ∃ next, r = .ok next ∧ next ≤ stop := by
  have hscanned : ScansTo s stop start i := by
    by_contra hnot
    exact hhides ((hidesOpening_iff hscan).2 ⟨i, h, hlt, by rw [hskip]; rfl, hnot⟩)
  obtain ⟨depth', hrest⟩ := hscanned.scanFrom_eq hscan
  exact ByteReader.ok_of_skip? hrest hskip

/-- The search comes to an answer, unless an escape hides an opening. -/
theorem SearchesTo.findColon_ok (hscan : scanFrom s depth start = .ok (stop, terminator))
    (hhides : ¬HidesOpening s stop start) (h : SearchesTo s stop start i) :
    ∃ found, findColon s stop i = .ok found := by
  induction hn : stop - i using Nat.strongRecOn generalizing i with
  | ind n ih =>
    by_cases hlt : i < stop
    · have hnext {j : Nat} (hstep : SearchStep s stop i j) (hij : i < j) :
          ∃ found, findColon s stop i = .ok found := by
        rw [hstep.findColon_eq]
        exact ih (stop - j) (by omega) (h.tail hstep) rfl
      cases hskip : skip? s i with
      | some r =>
          obtain ⟨next, rfl, -⟩ := h.ok_of_skip? hscan hhides hlt hskip
          exact hnext (.skip hlt hskip) (le_of_skip? hskip).1
      | none =>
          obtain ⟨b, hbyte⟩ : ∃ b, s.bytes[i]? = some b :=
            ⟨_, getElem?_pos s.bytes i (Nat.lt_of_lt_of_le hlt (le_size_of_scanFrom hscan))⟩
          by_cases hcolon : isByte ':' b
          · exact ⟨some i, by rw [findColon_pass hlt hskip hbyte, if_pos hcolon]⟩
          · exact hnext (.pass hlt hskip hbyte hcolon) (Nat.lt_succ_self i)
    · exact ⟨none, by rw [findColon_eq_ite, if_neg hlt]⟩

/-! ### What is left to go wrong in a declaration -/

/-- The faults of a declaration itself, which are reported where it begins. -/
inductive DeclarationFault (start : Nat) : Halt → Prop where
  | unknownWord (position : Position) :
      DeclarationFault start (.malformed .unknownWord start position)
  | missingProperty (position : Position) :
      DeclarationFault start (.malformed .missingProperty start position)

variable {pre text rest : List Char} {halt : Halt}

theorem declarationFault_of_place {fault : Fault}
    (hfault : fault = .unknownWord ∨ fault = .missingProperty) (position : Position) :
    DeclarationFault (byteLength pre)
      (.malformed fault (Cursor.start.advanceAll pre).offset position) := by
  rw [offset_advanceAll]
  rcases hfault with rfl | rfl
  · exact .unknownWord position
  · exact .missingProperty position

/-- Where the search comes to an answer, a declaration has only faults of its own. -/
theorem readDeclaration_fault {before : List Char} {semicolon : Bool} {e : FaultAt}
    {found : Option Nat} (h : s.text.toList = pre ++ text ++ rest)
    (hfound : findColon s (byteLength (pre ++ text)) (byteLength pre) = .ok found)
    (hread : Reader.readDeclaration before (Cursor.start.advanceAll pre) (text ++ rest) text
      semicolon = .error e) :
    ∃ fault, (fault = .unknownWord ∨ fault = .missingProperty) ∧
      e = ⟨fault, Cursor.start.advanceAll pre⟩ := by
  have hplace : s.text.toList = pre ++ (text ++ rest) := by rw [h, List.append_assoc]
  have huntil : Until pre (text ++ rest) text.length (byteLength (pre ++ text)) :=
    .inl ⟨by rw [List.length_append]; omega, by rw [List.take_left]⟩
  rw [findColon_append hplace _ huntil] at hfound
  cases hcolon : Reader.colonOffset .plain text.length (Cursor.start.advanceAll pre)
      (text ++ rest) with
  | error e =>
      rw [hcolon] at hfound
      cases hfound
  | ok found =>
      rw [Reader.readDeclaration, hcolon] at hread
      cases found with
      | none => exact ⟨_, .inl rfl, (Except.error.inj hread).symm⟩
      | some n =>
          dsimp only at hread
          split at hread
          · exact ⟨_, .inr rfl, (Except.error.inj hread).symm⟩
          · cases hread

/-- How the search for a colon goes along with the scan that ends the statement at `stop`. -/
structure GoesAlong (s : IndexedText) (stop start : Nat) : Prop where
  /-- The search comes to an answer. -/
  answers : ∃ found, findColon s stop start = .ok found
  /-- What it skips the scan skips, too. -/
  scanned : ∀ i, SearchesTo s stop start i → i < stop → (skip? s i).isSome →
    ScansTo s stop start i
  /-- What it skips ends within the statement. -/
  within : ∀ i r, SearchesTo s stop start i → i < stop → skip? s i = some r →
    ∃ next, r = .ok next ∧ next ≤ stop
  /-- Nothing unclosed is left for the declaration to report. -/
  declaration : ∀ before semicolon halt,
    declaration s before start stop semicolon = .error halt → DeclarationFault start halt
  statement : ∀ before halt, statement s before start = .error halt → DeclarationFault start halt

theorem told_eq_error {α β : Type} {f : α → β} {r : Except FaultAt α}
    (h : told f r = .error halt) :
    ∃ e, r = .error e ∧ halt = .malformed e.fault e.place.offset e.place.position := by
  cases r with
  | ok a => cases h
  | error e => exact ⟨e, rfl, (Except.error.inj h).symm⟩

/-- A statement whose end was found fails as a declaration. -/
theorem readDeclaration_of_readStatement {before source left : List Char} {first : Cursor}
    {e : FaultAt} (hscan : Reader.scan .plain 0 first source = .ok (text, left))
    (h : Reader.readStatement before first source = .error e) :
    ∃ semicolon, Reader.readDeclaration before first source text semicolon = .error e := by
  have hsame {semicolon : Bool} {e' : FaultAt}
      (hdecl : Reader.readDeclaration before first source text semicolon = .error e')
      (he : (.error e' : Except FaultAt (Reader.Item × Cursor × List Char)) = .error e) :
      ∃ semicolon, Reader.readDeclaration before first source text semicolon = .error e :=
    ⟨semicolon, by rw [hdecl, Except.error.inj he]⟩
  rw [Reader.readStatement, hscan] at h
  cases left with
  | nil =>
      dsimp only at h
      split at h
      · exact hsame ‹_› h
      · cases h
  | cons c cs =>
      dsimp only at h
      split at h
      · cases h
      · split at h
        · split at h
          · exact hsame ‹_› h
          · cases h
        · split at h
          · exact hsame ‹_› h
          · cases h

/-- Unless an escape hides an opening, the search goes along with the scan. -/
theorem goesAlong_of_scanFrom (h : s.text.toList = pre ++ rest)
    (hscan : scanFrom s 0 (byteLength pre) = .ok (stop, terminator))
    (hhides : ¬HidesOpening s stop (byteLength pre)) : GoesAlong s stop (byteLength pre) := by
  obtain ⟨found, hfound⟩ := SearchesTo.findColon_ok hscan hhides .refl
  obtain ⟨text, left, hparts, rfl⟩ : ∃ text left,
      Reader.scan .plain 0 (Cursor.start.advanceAll pre) rest = .ok (text, left) ∧
        byteLength (pre ++ text) = stop := by
    rw [scanFrom_append h] at hscan
    cases hparts : Reader.scan .plain 0 (Cursor.start.advanceAll pre) rest with
    | error e =>
        rw [hparts] at hscan
        cases hscan
    | ok parts =>
        rw [hparts] at hscan
        exact ⟨parts.1, parts.2, rfl, congrArg Prod.fst (Except.ok.inj hscan)⟩
  obtain rfl := Reader.scan_append hparts
  have hsource : s.text.toList = pre ++ text ++ left := by rw [h, List.append_assoc]
  have hread {before : List Char} {semicolon : Bool} {e : FaultAt}
      (hfails : Reader.readDeclaration before (Cursor.start.advanceAll pre) (text ++ left) text
        semicolon = .error e) :
      DeclarationFault (byteLength pre) (.malformed e.fault e.place.offset e.place.position) := by
    obtain ⟨fault, hfault, rfl⟩ := readDeclaration_fault hsource hfound hfails
    exact declarationFault_of_place hfault _
  refine ⟨⟨found, hfound⟩, fun i hi hlt hopens => ?_, fun i r hi hlt hskip =>
    hi.ok_of_skip? hscan hhides hlt hskip, fun before semicolon halt hfails => ?_,
    fun before halt hfails => ?_⟩
  · by_contra hnot
    exact hhides ((hidesOpening_iff hscan).2 ⟨i, hi, hlt, hopens, hnot⟩)
  · rw [← String.ofList_toList (s := before), declaration_append before.toList semicolon hsource]
      at hfails
    obtain ⟨e, he, rfl⟩ := told_eq_error hfails
    exact hread he
  · rw [← String.ofList_toList (s := before), statement_append before.toList h] at hfails
    obtain ⟨e, he, rfl⟩ := told_eq_error hfails
    obtain ⟨semicolon, hdecl⟩ := readDeclaration_of_readStatement hparts he
    exact hread hdecl

/--
Where a statement has an end, the search for its colon goes along with the scan that found the end:
it comes to an answer, it stays within the statement, and it leaves nothing unclosed to report. It
leaves the scan exactly where an escape before the colon hides a quote or the mark of a comment.
-/
theorem findColon_of_scanFrom (h : s.text.toList = pre ++ rest)
    (hscan : scanFrom s 0 (byteLength pre) = .ok (stop, terminator)) :
    (¬HidesOpening s stop (byteLength pre) → GoesAlong s stop (byteLength pre)) ∧
      (HidesOpening s stop (byteLength pre) ↔
        ∃ i, SearchesTo s stop (byteLength pre) i ∧ i < stop ∧ (skip? s i).isSome ∧
          ¬ScansTo s stop (byteLength pre) i) :=
  ⟨goesAlong_of_scanFrom h hscan, hidesOpening_iff hscan⟩

/-- A declaration with an escape, and with a comment and a string that hold marks. -/
def escapedSource : String := "a\x7b\\61/*:*/\":\x7d\":x\x7d"

theorem findColon_of_scanFrom_escaped :
    ¬HidesOpening (.ofString escapedSource) 16 2 ∧
      GoesAlong (.ofString escapedSource) 16 2 ∧
      findColon (.ofString escapedSource) 16 2 = .ok (some 14) := by
  have hhides : ¬HidesOpening (.ofString escapedSource) 16 2 := by
    rintro ⟨i, hescape, hopens⟩
    have hplain : ∀ i < 16, (IndexedText.ofString escapedSource).bytes[i]? = some '\\'.toUInt8 →
        skip? (.ofString escapedSource) (i + 1) = none := by
      decide +kernel
    rw [hplain i hescape.lt hescape.backslash] at hopens
    cases hopens
  have hscan : scanFrom (.ofString escapedSource) 0 2 = .ok (16, some '\x7d'.toUInt8) := by
    decide +kernel
  have hsource : (IndexedText.ofString escapedSource).text.toList =
      ['a', '\x7b'] ++ (escapedSource.toList.drop 2) := by
    decide +kernel
  exact ⟨hhides, (findColon_of_scanFrom hsource hscan).1 hhides, by decide +kernel⟩

def quoteSource : String := "a\x7b\\\":x\x7d"

def quotesSource : String := "a\x7b\\\":x;y:\"z\"\x7d"

/-- The search takes an escaped quote for the beginning of a string. It reports that string as
unclosed, or it finds its end behind the end of the statement. -/
theorem findColon_escaped_quote :
    scanFrom (.ofString quoteSource) 0 2 = .ok (6, some '\x7d'.toUInt8) ∧
      findColon (.ofString quoteSource) 6 2 = .error (.malformed .unclosedString 3 ⟨1, 4⟩) ∧
      Sheet.parse none quoteSource = .error ⟨"Unclosed string", none, 1, 4⟩ ∧
      scanFrom (.ofString quotesSource) 0 2 = .ok (6, some ';'.toUInt8) ∧
      SearchesTo (.ofString quotesSource) 6 2 3 ∧
      skip? (.ofString quotesSource) 3 = some (.ok 10) := by
  refine ⟨by decide +kernel, by decide +kernel, ?_, by decide +kernel, ?_, by decide +kernel⟩
  · have herror : (match Sheet.parse none quoteSource with
        | .ok _ => false
        | .error e => e == ⟨"Unclosed string", none, 1, 4⟩) = true := by
      decide +kernel
    cases h : Sheet.parse none quoteSource with
    | ok sheet => simp [h] at herror
    | error e => rw [show e = ⟨"Unclosed string", none, 1, 4⟩ by simpa [h] using herror]
  · have hslash : (IndexedText.ofString quotesSource).bytes[2]? = some '\\'.toUInt8 := by
      decide +kernel
    exact .single (.pass (by decide) (by decide +kernel) hslash (by decide))

end StyleAudit.ByteReader
