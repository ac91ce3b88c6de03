import StyleAudit.Proofs.Spans
import StyleAudit.Sheet.ByteReader

/-!
What stands at the offsets of a text.

A place in a text is given by the characters before it and those behind it. Its offset is the number
of bytes before it. Between two places a slice is never refused. A byte below 128 is a whole
character, so a loop that only stops at such bytes runs from place to place, even where one of its
steps leads into the middle of a character.
-/

namespace StyleAudit

variable {text : String} {pre rest : List Char} {c : Char}

theorem toList_next (h : text.toList = pre ++ c :: rest) : text.toList = pre ++ [c] ++ rest := by
  rw [h, List.append_assoc]
  rfl

theorem sliceOf_append {front slice back : List Char} (h : text.toList = front ++ slice ++ back) :
    sliceOf text (byteLength front) (byteLength (front ++ slice)) =
      .ok (String.ofList slice) := by
  unfold sliceOf
  rw [Span.slice?_of_append h]

theorem utf8ByteSize_eq (text : String) : text.utf8ByteSize = byteLength text.toList := by
  rw [← utf8ByteSize_ofList, String.ofList_toList]

theorem sliceOf_front {front back : List Char} (h : text.toList = front ++ back) :
    sliceOf text 0 (byteLength front) = .ok (String.ofList front) :=
  sliceOf_append (show text.toList = [] ++ front ++ back by rwa [List.nil_append])

theorem sliceOf_back {front back : List Char} (h : text.toList = front ++ back) :
    sliceOf text (byteLength front) text.utf8ByteSize = .ok (String.ofList back) := by
  rw [utf8ByteSize_eq, h]
  exact sliceOf_append (show text.toList = front ++ back ++ [] by rw [List.append_nil, h])

/-- The length of a text, less that of what it begins with. -/
theorem difference_front (front back : List Char) :
    difference (byteLength (front ++ back)) (byteLength front) = .ok (byteLength back) := by
  rw [difference, byteLength_append, if_pos (Nat.le_add_right _ _), Nat.add_sub_cancel_left]

/-- The length of a text, less that of what it ends with. -/
theorem difference_back (front back : List Char) :
    difference (byteLength (front ++ back)) (byteLength back) = .ok (byteLength front) := by
  rw [difference, byteLength_append, if_pos (Nat.le_add_left _ _), Nat.add_sub_cancel]

/-! ### The bytes of a character -/

theorem utf8EncodeChar_of_ascii (hc : c.toNat < 0x80) :
    String.utf8EncodeChar c = [c.toUInt8] := by
  unfold String.utf8EncodeChar
  exact if_pos (Nat.le_of_lt_succ hc)

theorem le_of_mem_utf8EncodeChar (hc : 0x80 ≤ c.toNat) {b : UInt8}
    (hb : b ∈ String.utf8EncodeChar c) : 0x80 ≤ b := by
  have hhigh (x : Nat) (hx : 0x80 ≤ x) (hlt : x < 0x100) : (0x80 : UInt8) ≤ UInt8.ofNat x := by
    rw [UInt8.le_iff_toNat_le, UInt8.toNat_ofNat', Nat.mod_eq_of_lt hlt]
    exact hx
  have hbeyond : ¬c.val.toNat ≤ 127 := Nat.not_le.2 hc
  unfold String.utf8EncodeChar at hb
  simp only [if_neg hbeyond] at hb
  split at hb
  · simp only [List.mem_cons, List.not_mem_nil, or_false] at hb
    rcases hb with rfl | rfl <;> exact hhigh _ (by omega) (by omega)
  · split at hb
    · simp only [List.mem_cons, List.not_mem_nil, or_false] at hb
      rcases hb with rfl | rfl | rfl <;> exact hhigh _ (by omega) (by omega)
    · simp only [List.mem_cons, List.not_mem_nil, or_false] at hb
      rcases hb with rfl | rfl | rfl | rfl <;> exact hhigh _ (by omega) (by omega)

theorem toNat_toUInt8 (hc : c.toNat < 0x80) : c.toUInt8.toNat = c.toNat := by
  rw [Char.toUInt8, UInt32.toNat_toUInt8]
  exact Nat.mod_eq_of_lt (Nat.lt_trans hc (by decide))

/-- Two ASCII characters with one byte are the same. -/
theorem toUInt8_inj {d : Char} (hc : c.toNat < 0x80) (hd : d.toNat < 0x80) :
    c.toUInt8 = d.toUInt8 ↔ c = d := by
  refine ⟨fun h => ?_, congrArg Char.toUInt8⟩
  have hnat := congrArg UInt8.toNat h
  rw [toNat_toUInt8 hc, toNat_toUInt8 hd] at hnat
  exact Char.toNat_inj.1 hnat

/-! ### The bytes at a place -/

/-- The bytes from a place on are those of the characters behind it. -/
theorem bytes_append (h : text.toList = pre ++ rest) (k : Nat) :
    text.toUTF8[byteLength pre + k]? = (rest.flatMap String.utf8EncodeChar)[k]? := by
  have hlength : (pre.flatMap String.utf8EncodeChar).length = byteLength pre := by
    clear h
    induction pre with
    | nil => rfl
    | cons d ds ih =>
        rw [List.flatMap_cons, List.length_append, ih, String.length_utf8EncodeChar, byteLength]
  have hdata : text.toUTF8.data.toList =
      pre.flatMap String.utf8EncodeChar ++ rest.flatMap String.utf8EncodeChar := by
    rw [← List.flatMap_append, ← h, String.toUTF8, ← String.utf8Encode_toList, List.utf8Encode,
      List.data_toByteArray]
  have hget : text.toUTF8[byteLength pre + k]? = text.toUTF8.data.toList[byteLength pre + k]? := by
    rw [Array.getElem?_toList]
    rfl
  rw [hget, hdata, ← hlength, List.getElem?_append_right (Nat.le_add_right _ _),
    Nat.add_sub_cancel_left]

theorem bytes_cons (h : text.toList = pre ++ c :: rest) {k : Nat} (hk : k < c.utf8Size) :
    text.toUTF8[byteLength pre + k]? = (String.utf8EncodeChar c)[k]? := by
  rw [bytes_append h, List.flatMap_cons,
    List.getElem?_append_left (by rwa [String.length_utf8EncodeChar])]

/-- At the place of a character stands a byte of it. -/
theorem byte_of_cons (h : text.toList = pre ++ c :: rest) :
    ∃ b ∈ String.utf8EncodeChar c, text.toUTF8[byteLength pre]? = some b := by
  have hlength : 0 < (String.utf8EncodeChar c).length := by
    rw [String.length_utf8EncodeChar]
    exact c.utf8Size_pos
  have hbyte := bytes_cons h c.utf8Size_pos
  rw [List.getElem?_eq_getElem hlength] at hbyte
  exact ⟨_, List.getElem_mem hlength, hbyte⟩

theorem byte_of_ascii (h : text.toList = pre ++ c :: rest) (hc : c.toNat < 0x80) :
    text.toUTF8[byteLength pre]? = some c.toUInt8 := by
  obtain ⟨b, hb, hbyte⟩ := byte_of_cons h
  rw [utf8EncodeChar_of_ascii hc, List.mem_singleton] at hb
  rw [hbyte, hb]

theorem byte_of_end (h : text.toList = pre) : text.toUTF8[byteLength pre]? = none :=
  bytes_append (show text.toList = pre ++ [] by rw [List.append_nil, h]) 0

theorem byteLength_concat (pre : List Char) (c : Char) :
    byteLength (pre ++ [c]) = byteLength pre + c.utf8Size := by
  rw [byteLength_append, byteLength, byteLength, Nat.add_zero]

theorem length_le_byteLength (cs : List Char) : cs.length ≤ byteLength cs := by
  induction cs with
  | nil => exact Nat.le_refl _
  | cons c cs ih =>
      have := c.utf8Size_pos
      rw [List.length_cons, byteLength]
      omega

theorem utf8Size_of_ascii (hc : c.toNat < 0x80) : c.utf8Size = 1 := by
  rw [← String.length_utf8EncodeChar, utf8EncodeChar_of_ascii hc, List.length_singleton]

/-- What goes over the bytes of a character one at a time leads to the place behind it. -/
theorem runs_over {β : Type} {f : Nat → β} (h : text.toList = pre ++ c :: rest)
    (hf : ∀ i, ∀ b ∈ String.utf8EncodeChar c, text.toUTF8[i]? = some b → f i = f (i + 1))
    {k : Nat} (hk : k ≤ c.utf8Size) : f (byteLength pre + k) = f (byteLength (pre ++ [c])) := by
  rw [byteLength_concat]
  induction hn : c.utf8Size - k generalizing k with
  | zero => rw [show k = c.utf8Size by omega]
  | succ n ih =>
      have hsize : k < c.utf8Size := by omega
      have hlt : k < (String.utf8EncodeChar c).length := by
        rwa [String.length_utf8EncodeChar]
      have hbyte := bytes_cons h hsize
      rw [List.getElem?_eq_getElem hlt] at hbyte
      rw [hf _ _ (List.getElem_mem hlt) hbyte]
      exact ih hsize (by omega)

/-- Whether a loop over bytes passes every byte beyond ASCII. -/
def PassesWide {β : Type} (text : String) (f : Nat → β) : Prop :=
  ∀ i b, text.toUTF8[i]? = some b → 0x80 ≤ b → f i = f (i + 1)

/-- After the first byte of any character, such a loop goes on behind the character. -/
theorem PassesWide.behind {β : Type} {f : Nat → β} (hf : PassesWide text f)
    (h : text.toList = pre ++ c :: rest) :
    f (byteLength pre + 1) = f (byteLength (pre ++ [c])) := by
  by_cases hc : c.toNat < 0x80
  · rw [byteLength_concat, utf8Size_of_ascii hc]
  · exact runs_over h
      (fun i b hb hi => hf i b hi (le_of_mem_utf8EncodeChar (Nat.le_of_not_lt hc) hb))
      c.utf8Size_pos

namespace ByteReader

open Reader

/-! ### Bytes and characters of one kind -/

/-- Every byte of a character answers as the character does. -/
def Agrees (p : UInt8 → Bool) (q : Char → Bool) : Prop :=
  ∀ c, ∀ b ∈ String.utf8EncodeChar c, p b = q c

theorem Agrees.or {p p' : UInt8 → Bool} {q q' : Char → Bool} (h : Agrees p q)
    (h' : Agrees p' q') : Agrees (fun b => p b || p' b) (fun c => q c || q' c) := by
  intro c b hb
  dsimp only
  rw [h c b hb, h' c b hb]

/-- It is enough to look at ASCII, and at what all other bytes and characters answer. -/
theorem agrees_of_ascii {p : UInt8 → Bool} {q : Char → Bool} (wide : Bool)
    (hascii : ∀ c : Char, c.toNat < 0x80 → p c.toUInt8 = q c)
    (hbyte : ∀ b : UInt8, 0x80 ≤ b → p b = wide)
    (hchar : ∀ c : Char, 0x80 ≤ c.toNat → q c = wide) : Agrees p q := by
  intro c b hb
  by_cases hc : c.toNat < 0x80
  · rw [utf8EncodeChar_of_ascii hc, List.mem_singleton] at hb
    rw [hb, hascii c hc]
  · have hwide := Nat.le_of_not_lt hc
    rw [hbyte b (le_of_mem_utf8EncodeChar hwide hb), hchar c hwide]

theorem isByte_of_wide {d : Char} (hd : d.toNat < 0x80) {b : UInt8} (hb : 0x80 ≤ b) :
    isByte d b = false := by
  rw [isByte, beq_eq_false_iff_ne]
  rintro rfl
  rw [UInt8.le_iff_toNat_le, toNat_toUInt8 hd] at hb
  exact Nat.not_le.2 hd hb

theorem agrees_isByte {d : Char} (hd : d.toNat < 0x80) : Agrees (isByte d) (· == d) := by
  refine agrees_of_ascii false (fun c hc => ?_) (fun b hb => isByte_of_wide hd hb)
    fun c hc => ?_
  · rw [isByte, Bool.eq_iff_iff, beq_iff_eq, beq_iff_eq]
    exact toUInt8_inj hc hd
  · rw [beq_eq_false_iff_ne]
    rintro rfl
    omega

theorem agrees_isBlank : Agrees isBlankByte isBlankChar :=
  ((((agrees_isByte (by decide)).or (agrees_isByte (by decide))).or
    (agrees_isByte (by decide))).or (agrees_isByte (by decide))).or (agrees_isByte (by decide))

theorem agrees_isSeparator : Agrees isSeparatorByte isSeparator :=
  agrees_isBlank.or (agrees_isByte (by decide))

theorem agrees_isQuote : Agrees isQuoteByte isQuote :=
  (agrees_isByte (by decide)).or (agrees_isByte (by decide))

theorem agrees_isTerminator : Agrees isTerminatorByte isTerminator :=
  ((agrees_isByte (by decide)).or (agrees_isByte (by decide))).or (agrees_isByte (by decide))

theorem agrees_isName : Agrees isNameByte isNameChar := by
  refine agrees_of_ascii true (fun c hc => ?_) (fun b hb => ?_) fun c hc => ?_
  · have hall : ∀ n < 0x80, isNameByte (Char.ofNat n).toUInt8 = isNameChar (Char.ofNat n) := by
      decide +kernel
    have h := hall c.toNat hc
    rwa [Char.ofNat_toNat] at h
  · simp [isNameByte, hb]
  · simp [isNameChar, hc]

/-! ### Splitting at the ends -/

variable {p : UInt8 → Bool} {q : Char → Bool}

theorem skipWhile_eq (bytes : ByteArray) (p : UInt8 → Bool) (i : Nat) :
    skipWhile bytes p i = if bytes[i]?.any p then skipWhile bytes p (i + 1) else i := by
  rw [skipWhile]
  by_cases h : i < bytes.size
  · rw [dif_pos h, getElem?_pos bytes i h, Option.any_some]
  · rw [dif_neg h, getElem?_neg bytes i h]
    rfl

/-- A loop over bytes skips the head that the loop over characters splits off. -/
theorem skipWhile_append (hpq : Agrees p q) (h : text.toList = pre ++ rest) :
    skipWhile text.toUTF8 p (byteLength pre) =
      byteLength (pre ++ (Text.splitHead q rest).1) := by
  induction rest generalizing pre with
  | nil =>
      rw [skipWhile_eq, byte_of_end (by rw [h, List.append_nil]), Text.splitHead, List.append_nil]
      rfl
  | cons c cs ih =>
      by_cases hc : q c
      · have hover := runs_over h (f := skipWhile text.toUTF8 p) (fun i b hb hi => by
          rw [skipWhile_eq, hi, Option.any_some, hpq c b hb, if_pos hc]) (Nat.zero_le _)
        rw [Nat.add_zero] at hover
        rw [hover, ih (by rw [h, List.append_assoc]; rfl), Text.splitHead, if_pos hc,
          List.append_assoc]
        rfl
      · obtain ⟨b, hb, hbyte⟩ := byte_of_cons h
        rw [skipWhile_eq, hbyte, Option.any_some, hpq c b hb, if_neg hc, Text.splitHead, if_neg hc,
          List.append_nil]

/-- Going back over bytes comes to where the tail begins that is split off. -/
theorem skipBack_append (hpq : Agrees p q) {kept tail : List Char}
    (h : Text.splitTail q text.toList = (kept, tail)) :
    skipBack text.toUTF8 p text.utf8ByteSize = byteLength kept := by
  obtain ⟨happ, htail, hlast⟩ := Text.splitTail_eq_iff.1 h
  have hback (front cs back : List Char) (hsource : text.toList = front ++ (cs ++ back))
      (hcs : ∀ c ∈ cs, q c) :
      skipBack text.toUTF8 p (byteLength (front ++ cs)) =
        skipBack text.toUTF8 p (byteLength front) := by
    induction cs generalizing front with
    | nil => rw [List.append_nil]
    | cons c cs ih =>
        have hover := runs_over (c := c) hsource (f := skipBack text.toUTF8 p) (fun i b hb hi => by
          rw [skipBack, hi, Option.any_some, hpq c b hb, if_pos (hcs c (by simp))]) (Nat.zero_le _)
        rw [Nat.add_zero] at hover
        rw [hover, ← ih (front ++ [c]) (by rw [hsource]; simp) fun d hd => hcs d (by simp [hd]),
          List.append_assoc]
        rfl
  rw [utf8ByteSize_eq, ← happ, hback kept tail [] (by rw [List.append_nil, happ]) htail]
  rcases List.eq_nil_or_concat kept with rfl | ⟨front, c, rfl⟩
  · rfl
  · have hsource : text.toList = front ++ c :: tail := by
      rw [← happ, List.concat_eq_append, List.append_assoc]
      rfl
    have hsize := c.utf8Size_pos
    obtain ⟨k, hk⟩ : ∃ k, c.utf8Size = k + 1 := ⟨c.utf8Size - 1, by omega⟩
    have hlt : k < (String.utf8EncodeChar c).length := by
      rw [String.length_utf8EncodeChar]
      omega
    have hbyte := bytes_cons hsource (k := k) (by omega)
    rw [List.getElem?_eq_getElem hlt] at hbyte
    have hc : ¬q c := hlast c (by rw [List.concat_eq_append, List.getLast?_concat]; rfl)
    rw [List.concat_eq_append, byteLength_concat, hk, ← Nat.add_assoc, skipBack, hbyte,
      Option.any_some, hpq c _ (List.getElem_mem hlt), if_neg hc]

theorem splitAt_append {front back : List Char} (h : text.toList = front ++ back) :
    splitAt text (byteLength front) = .ok (String.ofList front, String.ofList back) := by
  rw [splitAt, sliceOf_front h, sliceOf_back h]
  rfl

theorem splitLeading_eq {cs front back : List Char}
    (h : Text.splitHead isBlankChar cs = (front, back)) :
    splitLeading (String.ofList cs) = .ok (String.ofList front, String.ofList back) := by
  have hcs : (String.ofList cs).toList = [] ++ cs := String.toList_ofList
  have hskip := skipWhile_append agrees_isBlank hcs
  rw [h, byteLength, List.nil_append] at hskip
  rw [splitLeading, hskip]
  exact splitAt_append (by rw [String.toList_ofList, (Text.splitHead_eq_iff.1 h).1])

theorem splitTrailing_eq {cs front back : List Char}
    (h : Text.splitTail isBlankChar cs = (front, back)) :
    splitTrailing (String.ofList cs) = .ok (String.ofList front, String.ofList back) := by
  have hsplit : Text.splitTail isBlankChar (String.ofList cs).toList = (front, back) := by
    rwa [String.toList_ofList]
  rw [splitTrailing, skipBack_append agrees_isBlank hsplit]
  exact splitAt_append (by rw [String.toList_ofList, (Text.splitTail_eq_iff.1 h).1])

/-- The slices that cut an important mark off are never refused. -/
theorem splitImportant_eq {cs value : List Char} {mark : Option (List Char)}
    (h : cutImportantMark cs = (value, mark)) :
    splitImportant (String.ofList cs) = .ok (String.ofList value, mark.map String.ofList) := by
  unfold cutImportantMark at h
  unfold splitImportant
  rw [String.toList_ofList]
  cases hsplit : splitLast (· == '!') cs with
  | none =>
      rw [hsplit] at h
      obtain ⟨rfl, rfl⟩ := Prod.mk.inj h
      rfl
  | some parts =>
      obtain ⟨head, tail⟩ := parts
      obtain ⟨c, hc, happ⟩ := splitLast_append hsplit
      obtain rfl : c = '!' := by simpa using hc
      have hcs : (String.ofList cs).toList = head ++ '!' :: tail := by
        rw [String.toList_ofList, happ]
      have hbang : byteLength head + 1 = byteLength (head ++ ['!']) := by
        rw [byteLength_concat]
        rfl
      have hword := sliceOf_back (toList_next hcs)
      simp only [hsplit] at h
      simp only [hbang, hword, bind, Except.bind, String.toList_ofList]
      by_cases himportant : Text.eqIgnoreCase (Text.trim tail) "important".toList
      · obtain ⟨kept, space, hkept⟩ : ∃ kept space,
            Text.splitTail isBlankChar head = (kept, space) := ⟨_, _, rfl⟩
        have hhead := (Text.splitTail_eq_iff.1 hkept).1
        have htext : (String.ofList cs).toList = kept ++ (space ++ '!' :: tail) := by
          rw [hcs, ← hhead, List.append_assoc]
        have hmark := sliceOf_back htext
        rw [utf8ByteSize_ofList] at hmark
        rw [if_pos himportant, hkept] at h
        obtain ⟨rfl, rfl⟩ := Prod.mk.inj h
        simp only [if_pos himportant, sliceOf_front hcs, splitTrailing_eq hkept,
          utf8ByteSize_ofList, hmark]
        rfl
      · rw [if_neg himportant] at h
        obtain ⟨rfl, rfl⟩ := Prod.mk.inj h
        simp only [if_neg himportant]
        rfl

end ByteReader

end StyleAudit
