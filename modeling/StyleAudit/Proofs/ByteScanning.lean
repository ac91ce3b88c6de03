import StyleAudit.Proofs.LineIndex
import StyleAudit.Proofs.Skipping

/-!
Scanning bytes and scanning characters.

Both readers look for the end of a statement and for its colon, and both skip strings and comments
as a whole. The loops over bytes come to the places that the loops over characters come to.
-/

namespace StyleAudit.ByteReader

open Reader

/-- What the reader of bytes comes to where the reader of characters comes to `r`. -/
def told {α β : Type} (f : α → β) : Except FaultAt α → Except Halt β
  | .ok a => .ok (f a)
  | .error e => .error (.malformed e.fault e.place.offset e.place.position)

variable {s : IndexedText} {text : String} {pre cs rest : List Char} {c : Char}

theorem fail_eq {α : Type} (h : s.text.toList = pre ++ rest) (fault : Fault) :
    s.fail (α := α) fault (byteLength pre) =
      told id (.error ⟨fault, Cursor.start.advanceAll pre⟩) := by
  rw [IndexedText.fail_append h, told, Cursor.offset_advanceAll, Cursor.position_advanceAll]
  simp [Cursor.start]

/-- A character that is no byte `d` has no byte `d`. -/
theorem isByte_eq {d : Char} {b : UInt8} (hd : d.toNat < 0x80) (hb : b ∈ String.utf8EncodeChar c) :
    isByte d b = decide (c = d) :=
  (agrees_isByte hd c b hb).trans (by rw [Bool.eq_iff_iff]; simp)

theorem isQuote_ascii (hc : isQuote c) : c.toNat < 0x80 := by
  simp only [isQuote, Bool.or_eq_true, beq_iff_eq] at hc
  rcases hc with rfl | rfl <;> decide

theorem byteLength_ascii (pre : List Char) (hc : c.toNat < 0x80) :
    byteLength (pre ++ [c]) = byteLength pre + 1 := by
  rw [byteLength_concat, utf8Size_of_ascii hc]

theorem isTerminator_ascii (hc : isTerminator c) : c.toNat < 0x80 := by
  simp only [isTerminator, Bool.or_eq_true, beq_iff_eq] at hc
  rcases hc with (rfl | rfl) | rfl <;> decide

theorem stringEnd_eq_ite (bytes : ByteArray) (quote : UInt8) (i : Nat) :
    stringEnd bytes quote i =
      match bytes[i]? with
      | none => none
      | some b =>
        if isByte '\\' b then stringEnd bytes quote (i + 2)
        else if b = quote then some (i + 1)
        else stringEnd bytes quote (i + 1) := by
  rw [stringEnd]
  by_cases h : i < bytes.size
  · rw [dif_pos h, getElem?_pos bytes i h]
  · rw [dif_neg h, getElem?_neg bytes i h]

theorem passesWide_stringEnd {quote : Char} (hquote : quote.toNat < 0x80) :
    PassesWide text (stringEnd text.toUTF8 quote.toUInt8) := by
  intro i b hi hb
  have hne : ¬b = quote.toUInt8 := fun h => by
    have := isByte_of_wide hquote hb
    rw [h, isByte, beq_self_eq_true] at this
    cases this
  rw [stringEnd_eq_ite, hi]
  simp [isByte_of_wide (d := '\\') (by decide) hb, hne]

/-- The quote that ends a string is found at its place. -/
theorem stringEnd_append {quote : Char} (hquote : quote.toNat < 0x80)
    (h : text.toList = pre ++ rest) :
    stringEnd text.toUTF8 quote.toUInt8 (byteLength pre) =
      (stringBody quote rest).map fun p => byteLength (pre ++ p.1) := by
  fun_induction stringBody quote rest generalizing pre with
  | case1 =>
      rw [stringEnd_eq_ite, byte_of_end (by rw [h, List.append_nil])]
      rfl
  | case2 =>
      have hend : text.toUTF8[byteLength pre + 2]? = none := bytes_append h 2
      rw [stringEnd_eq_ite, byte_of_ascii h (by decide), stringEnd_eq_ite, hend]
      rfl
  | case3 d ds ih =>
      have hnext := toList_next h
      have hbehind := (passesWide_stringEnd hquote).behind hnext
      rw [byteLength_ascii pre (by decide : '\\'.toNat < 0x80)] at hbehind
      rw [stringEnd_eq_ite, byte_of_ascii h (by decide)]
      refine hbehind.trans ?_
      rw [ih (toList_next hnext), Option.map_map]
      simp [Function.comp_def]
  | case4 cs hslash =>
      rw [stringEnd_eq_ite, byte_of_ascii h hquote]
      have hbyte : isByte '\\' quote.toUInt8 = false := by
        rw [isByte_eq (c := quote) (by decide) (by simp [utf8EncodeChar_of_ascii hquote])]
        simpa using hslash
      simp only [hbyte, if_true, Option.map_some, byteLength_concat, utf8Size_of_ascii hquote]
      rfl
  | case5 c cs hslash hne ih =>
      have hover := runs_over h (f := stringEnd text.toUTF8 quote.toUInt8) (fun i b hb hi => by
        have hbyte : ¬b = quote.toUInt8 := by
          have := isByte_eq hquote hb
          simp only [isByte, hne, decide_false, beq_eq_false_iff_ne] at this
          exact this
        rw [stringEnd_eq_ite, hi]
        simp [isByte_eq (d := '\\') (by decide) hb, hslash, hbyte]) (Nat.zero_le _)
      rw [Nat.add_zero] at hover
      rw [hover, ih (toList_next h), Option.map_map]
      simp [Function.comp_def]

/-- A string is skipped to the place behind it, or it is reported at its quote. -/
theorem skipString_append (h : s.text.toList = pre ++ c :: cs) (hc : isQuote c) :
    skipString s (byteLength pre) =
      match stringBody c cs with
      | none => told id (.error ⟨.unclosedString, Cursor.start.advanceAll pre⟩)
      | some (body, _) => .ok (byteLength (pre ++ c :: body)) := by
  have hascii := isQuote_ascii hc
  have hbyte : s.byteAt (byteLength pre) = .ok c.toUInt8 := by
    rw [IndexedText.byteAt, IndexedText.bytes, byte_of_ascii h hascii]
  have hend := stringEnd_append hascii (toList_next h)
  rw [byteLength_ascii pre hascii] at hend
  simp only [skipString, hbyte, bind, Except.bind, IndexedText.bytes, hend]
  cases stringBody c cs with
  | none => exact fail_eq h _
  | some p =>
      simp only [Option.map_some, List.append_assoc]
      rfl

/-- The mark that opens a comment has two bytes. -/
theorem byteLength_mark (pre back : List Char) :
    byteLength (pre ++ '/' :: '*' :: back) = byteLength pre + 2 + byteLength back := by
  rw [byteLength_append, Nat.add_assoc]
  simp only [byteLength, show '/'.utf8Size = 1 from rfl, show '*'.utf8Size = 1 from rfl]
  omega

theorem slice_comment (h : s.text.toList = pre ++ '/' :: '*' :: cs) :
    s.slice (byteLength pre + 2) s.size = .ok (String.ofList cs) := by
  have hmark := byteLength_mark pre []
  rw [byteLength, Nat.add_zero] at hmark
  rw [← hmark]
  exact IndexedText.slice_back (by rw [h, List.append_assoc]; rfl)

/-- A comment is skipped to the place behind it, or it is reported at its mark. -/
theorem skipComment_append (h : s.text.toList = pre ++ '/' :: '*' :: cs) :
    skipComment s (byteLength pre) =
      match commentBody cs with
      | none => told id (.error ⟨.unclosedComment, Cursor.start.advanceAll pre⟩)
      | some (body, _) => .ok (byteLength (pre ++ '/' :: '*' :: (body ++ ['*', '/']))) := by
  have hinside := slice_comment h
  simp only [skipComment, hinside, bind, Except.bind, String.toList_ofList]
  cases hbody : commentBody cs with
  | none => exact fail_eq h _
  | some p =>
      dsimp only
      rw [byteLength_mark, byteLength_append]
      rfl

theorem scanFrom_eq_ite (s : IndexedText) (depth i : Nat) :
    scanFrom s depth i =
      match s.bytes[i]? with
      | none => .ok (s.size, none)
      | some b =>
        if isQuoteByte b then (skipString s i).bind (scanFrom s depth)
        else if isByte '/' b && s.bytes[i + 1]?.any (isByte '*') then
          (skipComment s i).bind (scanFrom s depth)
        else if isByte '\\' b then scanFrom s depth (i + 2)
        else if isByte '(' b then scanFrom s (depth + 1) (i + 1)
        else if isByte ')' b then scanFrom s (depth - 1) (i + 1)
        else if isTerminatorByte b && depth == 0 then .ok (i, some b)
        else scanFrom s depth (i + 1) := by
  rw [scanFrom]
  by_cases h : i < s.bytes.size
  · rw [dif_pos h, getElem?_pos s.bytes i h]
    dsimp only
    split
    · split <;> simp_all [Except.bind]
    · split
      · split <;> simp_all [Except.bind]
      · rfl
  · rw [dif_neg h, getElem?_neg s.bytes i h]

theorem passesWide_scanFrom (s : IndexedText) (depth : Nat) :
    PassesWide s.text (scanFrom s depth) := by
  intro i b hi hb
  rw [scanFrom_eq_ite, IndexedText.bytes, hi]
  simp [isQuoteByte, isTerminatorByte, isByte_of_wide _ hb]

/-- Where a statement ends that a scan split off behind a place, and the byte that ends it. -/
def ends (pre : List Char) (p : List Char × List Char) : Nat × Option UInt8 :=
  (byteLength (pre ++ p.1), p.2.head?.map Char.toUInt8)

theorem told_prepend (pre front : List Char) (r : Except FaultAt (List Char × List Char)) :
    told (ends pre) (prepend front r) = told (ends (pre ++ front)) r := by
  cases r with
  | error e => rfl
  | ok p => rw [prepend, told, told, ends, ends, List.append_assoc]

/-- From this place on, the scan over bytes ends where the scan over characters does. -/
def ScansAt (s : IndexedText) (pre rest : List Char) : Prop :=
  ∀ depth, scanFrom s depth (byteLength pre) =
    told (ends pre) (scan .plain depth (Cursor.start.advanceAll pre) rest)

/-- The two scans end alike from every later place on. -/
def ScansBehind (s : IndexedText) (pre rest : List Char) : Prop :=
  ∀ front back, front ≠ [] → rest = front ++ back → ScansAt s (pre ++ front) back

/-- The scan over characters takes a text that the scan over bytes skips. -/
theorem ScansBehind.take {back : List Char} (h : ScansBehind s pre rest) (front : List Char)
    (hne : front ≠ []) (hrest : rest = front ++ back) (depth : Nat) :
    scanFrom s depth (byteLength (pre ++ front)) =
      told (ends pre) (prepend front
        (scan .plain depth ((Cursor.start.advanceAll pre).advanceAll front) back)) := by
  rw [told_prepend, ← Cursor.advanceAll_append]
  exact h front back hne hrest depth

theorem scansAt_nil (h : s.text.toList = pre) : ScansAt s pre [] := by
  intro depth
  rw [scanFrom_eq_ite, IndexedText.bytes, byte_of_end h, IndexedText.size_eq, h]
  simp [scan, told, ends]

/-- A backslash takes the next character with it, of which the scan over bytes skips one byte. -/
theorem scansAt_escape (h : s.text.toList = pre ++ '\\' :: cs)
    (hbehind : ScansBehind s pre ('\\' :: cs)) : ScansAt s pre ('\\' :: cs) := by
  intro depth
  rw [scanFrom_eq_ite, IndexedText.bytes, byte_of_ascii h (by decide)]
  change scanFrom s depth (byteLength pre + 2) = _
  cases cs with
  | nil =>
      have hend : s.text.toUTF8[byteLength pre + 2]? = none := bytes_append h 2
      rw [scanFrom_eq_ite, IndexedText.bytes, hend, IndexedText.size_eq, h]
      rfl
  | cons d ds =>
      have hover := (passesWide_scanFrom s depth).behind (toList_next h)
      rw [byteLength_ascii pre (by decide : '\\'.toNat < 0x80), List.append_assoc] at hover
      exact hover.trans (hbehind.take ['\\', d] (by simp) rfl depth)

theorem scansAt_string (h : s.text.toList = pre ++ c :: cs) (hquote : isQuote c)
    (hbehind : ScansBehind s pre (c :: cs)) : ScansAt s pre (c :: cs) := by
  intro depth
  obtain ⟨b, hb, hbyte⟩ := byte_of_cons h
  rw [scanFrom_eq_ite, IndexedText.bytes, hbyte, scan_string hquote]
  simp only [agrees_isQuote c b hb, hquote, if_true, skipString_append h hquote]
  cases hbody : stringBody c cs with
  | none => rfl
  | some p =>
      obtain ⟨body, back⟩ := p
      have hcs := stringBody_append hbody
      exact hbehind.take (c :: body) (by simp) (by rw [← hcs]; rfl) depth

theorem scansAt_comment (h : s.text.toList = pre ++ '/' :: '*' :: cs)
    (hbehind : ScansBehind s pre ('/' :: '*' :: cs)) : ScansAt s pre ('/' :: '*' :: cs) := by
  intro depth
  have hsecond := byte_of_ascii (toList_next h) (by decide)
  rw [byteLength_ascii pre (by decide : '/'.toNat < 0x80)] at hsecond
  rw [scanFrom_eq_ite, IndexedText.bytes, byte_of_ascii h (by decide), hsecond, scan_mark]
  change Except.bind (skipComment s (byteLength pre)) (scanFrom s depth) = _
  rw [skipComment_append h]
  cases hbody : commentBody cs with
  | none => rfl
  | some p =>
      obtain ⟨body, back⟩ := p
      have hcs := commentBody_append hbody
      exact hbehind.take ('/' :: '*' :: (body ++ ['*', '/'])) (by simp)
        (by rw [← hcs]; simp) depth

/-- Behind a slash that opens no comment stands no byte of a star. -/
theorem second_of_slash (h : text.toList = pre ++ '/' :: cs) (hmark : cs.head? ≠ some '*') :
    text.toUTF8[byteLength pre + 1]?.any (isByte '*') = false := by
  rw [← byteLength_ascii pre (by decide : '/'.toNat < 0x80)]
  cases cs with
  | nil =>
      rw [byte_of_end ((toList_next h).trans (List.append_nil _))]
      rfl
  | cons d ds =>
      have hd : d ≠ '*' := fun hd => hmark (by rw [hd]; rfl)
      obtain ⟨b, hb, hbyte⟩ := byte_of_cons (toList_next h)
      rw [hbyte, Option.any_some, isByte_eq (by decide) hb, decide_eq_false hd]

theorem scansAt_slash (h : s.text.toList = pre ++ '/' :: cs) (hmark : cs.head? ≠ some '*')
    (hbehind : ScansBehind s pre ('/' :: cs)) : ScansAt s pre ('/' :: cs) := by
  intro depth
  rw [scanFrom_eq_ite, IndexedText.bytes, byte_of_ascii h (by decide), scan_slash hmark]
  simp only [second_of_slash h hmark]
  change scanFrom s depth (byteLength pre + 1) = _
  rw [← byteLength_ascii pre (by decide : '/'.toNat < 0x80)]
  exact hbehind.take ['/'] (by simp) rfl depth

/-- Parentheses change the depth, terminators end the scan, and other characters are taken. -/
theorem scansAt_other (h : s.text.toList = pre ++ c :: cs) (hescape : c ≠ '\\')
    (hquote : ¬isQuote c) (hslash : c ≠ '/') (hbehind : ScansBehind s pre (c :: cs)) :
    ScansAt s pre (c :: cs) := by
  intro depth
  rw [scan_other hquote hslash hescape]
  by_cases hopen : c = '('
  · subst hopen
    rw [scanFrom_eq_ite, IndexedText.bytes, byte_of_ascii h (by decide)]
    change scanFrom s (depth + 1) (byteLength pre + 1) = _
    rw [← byteLength_ascii pre (by decide : '('.toNat < 0x80)]
    exact hbehind.take ['('] (by simp) rfl (depth + 1)
  · by_cases hclose : c = ')'
    · subst hclose
      rw [scanFrom_eq_ite, IndexedText.bytes, byte_of_ascii h (by decide)]
      change scanFrom s (depth - 1) (byteLength pre + 1) = _
      rw [← byteLength_ascii pre (by decide : ')'.toNat < 0x80)]
      exact hbehind.take [')'] (by simp) rfl (depth - 1)
    · have hbyte (i : Nat) (b : UInt8) (hb : b ∈ String.utf8EncodeChar c)
          (hi : s.text.toUTF8[i]? = some b) : scanFrom s depth i =
            if isTerminator c && depth == 0 then .ok (i, some b) else scanFrom s depth (i + 1) := by
        rw [scanFrom_eq_ite, IndexedText.bytes, hi]
        simp [agrees_isQuote c b hb, agrees_isTerminator c b hb, isByte_eq _ hb, hescape, hquote,
          hslash, hopen, hclose]
      simp only [hopen, hclose, if_false]
      by_cases hstop : isTerminator c && depth == 0
      · obtain ⟨b, hb, hi⟩ := byte_of_cons h
        have hascii : c.toNat < 0x80 := isTerminator_ascii (Bool.and_eq_true_iff.1 hstop).1
        rw [utf8EncodeChar_of_ascii hascii, List.mem_singleton] at hb
        rw [hbyte _ b (by rw [hb, utf8EncodeChar_of_ascii hascii]; simp) hi, if_pos hstop,
          if_pos hstop, hb]
        simp [told, ends]
      · have hover := runs_over h (f := scanFrom s depth)
          (fun i b hb hi => by rw [hbyte i b hb hi, if_neg hstop]) (Nat.zero_le _)
        rw [Nat.add_zero] at hover
        rw [if_neg hstop, hover]
        exact hbehind.take [c] (by simp) rfl depth

/-- The scan over bytes ends at the place at which the scan over characters ends. -/
theorem scanFrom_append (h : s.text.toList = pre ++ rest) : ScansAt s pre rest := by
  induction hn : rest.length using Nat.strongRecOn generalizing pre rest with
  | ind n ih =>
    have hbehind : ScansBehind s pre rest := by
      rintro front back hne hrest
      exact ih back.length (hn ▸ length_lt_of_piece hrest hne)
        (by rw [h, hrest, List.append_assoc]) rfl
    cases head_cases rest with
    | nil => exact scansAt_nil (by rw [h, List.append_nil])
    | string hquote => exact scansAt_string h hquote hbehind
    | comment => exact scansAt_comment h hbehind
    | slash hmark => exact scansAt_slash h hmark hbehind
    | @other c cs hquote hslash =>
        by_cases hescape : c = '\\'
        · subst hescape
          exact scansAt_escape h hbehind
        · exact scansAt_other h hescape hquote hslash hbehind

/-! ### The colon of a declaration -/

theorem findColon_eq_ite (s : IndexedText) (stop i : Nat) :
    findColon s stop i =
      if i < stop then
        match s.bytes[i]? with
        | none => .error (.noEntry i)
        | some b =>
          if isQuoteByte b then (skipString s i).bind (findColon s stop)
          else if isByte '/' b && s.bytes[i + 1]?.any (isByte '*') then
            (skipComment s i).bind (findColon s stop)
          else if isByte ':' b then .ok (some i)
          else findColon s stop (i + 1)
      else .ok none := by
  rw [findColon, IndexedText.byteAt]
  split
  · cases s.bytes[i]? with
    | none => rfl
    | some b =>
        dsimp only
        split
        · split <;> simp_all [Except.bind]
        · split
          · split <;> simp_all [Except.bind]
          · rfl
  · rfl

/-- The offset `stop` is `limit` characters further on, or it lies behind and none are left. -/
def Until (pre rest : List Char) (limit stop : Nat) : Prop :=
  limit ≤ rest.length ∧ stop = byteLength (pre ++ rest.take limit) ∨
    limit = 0 ∧ stop ≤ byteLength pre

theorem Until.lt_iff {stop : Nat} {limit : Nat} (h : Until pre rest limit stop) :
    byteLength pre < stop ↔ limit ≠ 0 := by
  rcases h with ⟨hle, rfl⟩ | ⟨rfl, hstop⟩
  · rw [byteLength_append]
    cases limit with
    | zero => simp [byteLength]
    | succ n =>
        have hne : rest.take (n + 1) ≠ [] := by
          intro h
          rcases List.take_eq_nil_iff.1 h with h | rfl
          · cases h
          · cases hle
        have := byteLength_pos hne
        exact iff_of_true (by omega) (Nat.succ_ne_zero n)
  · exact iff_of_false (Nat.not_lt.2 hstop) fun h => h rfl

theorem byteLength_take_le (n : Nat) (cs : List Char) : byteLength (cs.take n) ≤ byteLength cs := by
  have h := byteLength_append (cs.take n) (cs.drop n)
  rw [List.take_append_drop] at h
  omega

theorem Until.take {front back : List Char} {limit stop : Nat}
    (h : Until pre (front ++ back) limit stop) :
    Until (pre ++ front) back (limit - front.length) stop := by
  rcases h with ⟨hle, rfl⟩ | ⟨rfl, hstop⟩
  · rw [List.length_append] at hle
    by_cases hlimit : front.length ≤ limit
    · refine .inl ⟨by omega, ?_⟩
      rw [List.take_append, List.take_of_length_le hlimit, List.append_assoc]
    · refine .inr ⟨by omega, ?_⟩
      have := byteLength_take_le limit front
      rw [List.take_append_of_le_length (by omega), byteLength_append, byteLength_append]
      omega
  · refine .inr ⟨Nat.zero_sub _, ?_⟩
    rw [byteLength_append]
    omega

def colonAt (pre rest : List Char) (n : Option Nat) : Option Nat :=
  n.map fun n => byteLength (pre ++ rest.take n)

theorem told_after (pre : List Char) {front back : List Char} (hrest : rest = front ++ back)
    (r : Except FaultAt (Option Nat)) :
    told (colonAt pre rest) (colonOffset.after front.length r) =
      told (colonAt (pre ++ front) back) r := by
  subst hrest
  match r with
  | .error e => rfl
  | .ok none => rfl
  | .ok (some n) =>
      simp only [colonOffset.after, told, colonAt, Option.map_some, List.append_assoc,
        List.take_length_add_append]

/-- From this place on, the search over bytes finds the colon that the search over characters
finds. -/
def FindsAt (s : IndexedText) (stop : Nat) (pre rest : List Char) : Prop :=
  ∀ limit, Until pre rest limit stop → findColon s stop (byteLength pre) =
    told (colonAt pre rest) (colonOffset .plain limit (Cursor.start.advanceAll pre) rest)

def FindsBehind (s : IndexedText) (stop : Nat) (pre rest : List Char) : Prop :=
  ∀ front back, front ≠ [] → rest = front ++ back → FindsAt s stop (pre ++ front) back

theorem FindsBehind.take {stop limit : Nat} {back : List Char}
    (h : FindsBehind s stop pre rest) (front : List Char) (hne : front ≠ [])
    (hrest : rest = front ++ back) (huntil : Until pre rest limit stop) :
    findColon s stop (byteLength (pre ++ front)) =
      told (colonAt pre rest) (colonOffset.after front.length
        (colonOffset .plain (limit - front.length)
          ((Cursor.start.advanceAll pre).advanceAll front) back)) := by
  rw [told_after pre hrest, ← Cursor.advanceAll_append]
  exact h front back hne hrest _ (hrest ▸ huntil).take

/-- Where no characters are left to search, both searches have ended. -/
theorem FindsAt.of_pos {stop : Nat}
    (h : ∀ limit, limit ≠ 0 → byteLength pre < stop → Until pre rest limit stop →
      findColon s stop (byteLength pre) =
        told (colonAt pre rest) (colonOffset .plain limit (Cursor.start.advanceAll pre) rest)) :
    FindsAt s stop pre rest := by
  intro limit huntil
  by_cases hlimit : limit = 0
  · subst hlimit
    rw [findColon_eq_ite, if_neg fun hlt => huntil.lt_iff.1 hlt rfl]
    rw [colonOffset.eq_def]
    cases rest <;> rfl
  · exact h limit hlimit (huntil.lt_iff.2 hlimit) huntil

theorem findsAt_nil {stop : Nat} : FindsAt s stop pre [] := by
  refine .of_pos fun limit hlimit hlt huntil => ?_
  rcases huntil with ⟨hle, -⟩ | ⟨hzero, -⟩
  · exact absurd (Nat.le_zero.1 hle) hlimit
  · exact absurd hzero hlimit

theorem findsAt_string {stop : Nat} (h : s.text.toList = pre ++ c :: cs) (hquote : isQuote c)
    (hbehind : FindsBehind s stop pre (c :: cs)) : FindsAt s stop pre (c :: cs) := by
  refine .of_pos fun limit hlimit hlt huntil => ?_
  obtain ⟨b, hb, hbyte⟩ := byte_of_cons h
  rw [findColon_eq_ite, if_pos hlt, IndexedText.bytes, hbyte, colonOffset_string hquote hlimit]
  simp only [agrees_isQuote c b hb, hquote, if_true, skipString_append h hquote]
  cases hbody : stringBody c cs with
  | none => rfl
  | some p =>
      obtain ⟨body, back⟩ := p
      have hcs := stringBody_append hbody
      exact hbehind.take (c :: body) (by simp) (by rw [← hcs]; rfl) huntil

theorem findsAt_comment {stop : Nat} (h : s.text.toList = pre ++ '/' :: '*' :: cs)
    (hbehind : FindsBehind s stop pre ('/' :: '*' :: cs)) :
    FindsAt s stop pre ('/' :: '*' :: cs) := by
  refine .of_pos fun limit hlimit hlt huntil => ?_
  have hsecond := byte_of_ascii (toList_next h) (by decide)
  rw [byteLength_ascii pre (by decide : '/'.toNat < 0x80)] at hsecond
  rw [findColon_eq_ite, if_pos hlt, IndexedText.bytes, byte_of_ascii h (by decide), hsecond,
    colonOffset_mark hlimit]
  change Except.bind (skipComment s (byteLength pre)) (findColon s stop) = _
  rw [skipComment_append h]
  cases hbody : commentBody cs with
  | none => rfl
  | some p =>
      obtain ⟨body, back⟩ := p
      have hcs := commentBody_append hbody
      exact hbehind.take ('/' :: '*' :: (body ++ ['*', '/'])) (by simp)
        (by rw [← hcs]; simp) huntil

theorem findsAt_slash {stop : Nat} (h : s.text.toList = pre ++ '/' :: cs)
    (hmark : cs.head? ≠ some '*') (hbehind : FindsBehind s stop pre ('/' :: cs)) :
    FindsAt s stop pre ('/' :: cs) := by
  refine .of_pos fun limit hlimit hlt huntil => ?_
  rw [findColon_eq_ite, if_pos hlt, IndexedText.bytes, byte_of_ascii h (by decide),
    colonOffset_slash hmark hlimit]
  simp only [second_of_slash h hmark]
  change findColon s stop (byteLength pre + 1) = _
  rw [← byteLength_ascii pre (by decide : '/'.toNat < 0x80)]
  exact hbehind.take ['/'] (by simp) rfl huntil

theorem findsAt_other {stop : Nat} (h : s.text.toList = pre ++ c :: cs) (hquote : ¬isQuote c)
    (hslash : c ≠ '/') (hbehind : FindsBehind s stop pre (c :: cs)) :
    FindsAt s stop pre (c :: cs) := by
  refine .of_pos fun limit hlimit hlt huntil => ?_
  rw [colonOffset_other hquote hslash hlimit]
  by_cases hcolon : c = ':'
  · subst hcolon
    rw [findColon_eq_ite, if_pos hlt, IndexedText.bytes, byte_of_ascii h (by decide)]
    simp only [if_true, told, colonAt, Option.map_some, List.take_zero, List.append_nil]
    rfl
  · have hover := runs_over h (f := findColon s stop) (fun i b hb hi => by
      by_cases hi' : i < stop
      · rw [findColon_eq_ite, if_pos hi', IndexedText.bytes, hi]
        simp [agrees_isQuote c b hb, isByte_eq _ hb, hquote, hslash, hcolon]
      · rw [findColon_eq_ite, if_neg hi', findColon_eq_ite, if_neg (by omega)]) (Nat.zero_le _)
    rw [Nat.add_zero] at hover
    rw [if_neg hcolon, hover]
    exact hbehind.take [c] (by simp) rfl huntil

/-- The search over bytes finds the colon that the search over characters finds. -/
theorem findColon_append {stop : Nat} (h : s.text.toList = pre ++ rest) :
    FindsAt s stop pre rest := by
  induction hn : rest.length using Nat.strongRecOn generalizing pre rest with
  | ind n ih =>
    have hbehind : FindsBehind s stop pre rest := by
      rintro front back hne hrest
      exact ih back.length (hn ▸ length_lt_of_piece hrest hne)
        (by rw [h, hrest, List.append_assoc]) rfl
    cases head_cases rest with
    | nil => exact findsAt_nil
    | string hquote => exact findsAt_string h hquote hbehind
    | comment => exact findsAt_comment h hbehind
    | slash hmark => exact findsAt_slash h hmark hbehind
    | other hquote hslash => exact findsAt_other h hquote hslash hbehind

end StyleAudit.ByteReader
