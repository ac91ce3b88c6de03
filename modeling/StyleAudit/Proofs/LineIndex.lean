import StyleAudit.Proofs.Offsets

/-!
Positions from the index of lines.

The position of an offset is looked up: a binary search finds the line among the offsets at which
lines begin, and the column is counted from there. At every place of a text this is the position
that the reference walk over the characters before the place comes to.
-/

namespace StyleAudit

/-- The search finds how many entries satisfy `p`, when those are the first ones. -/
theorem partitionPoint_eq {p : Nat → Bool} {entries : Array Nat} {low high k : Nat}
    (hhigh : high ≤ entries.size) (hp : ∀ i (h : i < entries.size), p entries[i] ↔ i < k)
    (hlow : low ≤ k) (hk : k ≤ high) : partitionPoint p entries low high hhigh = k := by
  fun_induction partitionPoint p entries low high hhigh with
  | case1 low high hhigh hlt middle hmiddle ih =>
      exact ih ((hp _ _).1 hmiddle) hk
  | case2 low high hhigh hlt middle hmiddle ih =>
      exact ih hlow (Nat.le_of_not_lt fun h => hmiddle ((hp _ _).2 h))
  | case3 low high hhigh hlt => omega

theorem lineBreaks_append (offset : Nat) (a b : List Char) :
    lineBreaks offset (a ++ b) =
      lineBreaks offset a ++ lineBreaks (offset + byteLength a) b := by
  induction a generalizing offset with
  | nil => rfl
  | cons c cs ih =>
      rw [List.cons_append, lineBreaks, lineBreaks, ih, byteLength, Nat.add_assoc]
      split <;> rfl

/-- A line that a line feed opens begins behind the feed, and not past the end of the text. -/
theorem bounds_of_mem_lineBreaks {offset start : Nat} {cs : List Char}
    (h : start ∈ lineBreaks offset cs) : offset < start ∧ start ≤ offset + byteLength cs := by
  induction cs generalizing offset with
  | nil => simp [lineBreaks] at h
  | cons c cs ih =>
      have hc := c.utf8Size_pos
      rw [byteLength]
      rw [lineBreaks] at h
      split at h
      · rcases List.mem_cons.1 h with rfl | h
        · omega
        · have := ih h
          omega
      · have := ih h
        omega

/-- `last` is what stands on the last line of a text, and `front` is all before that line. -/
structure EndsIn (cs front last : List Char) : Prop where
  split : cs = front ++ last
  opened : (0 :: lineBreaks 0 cs).getLast? = some (byteLength front)
  position : Position.start.advanceAll cs =
    ⟨Position.following ((lineBreaks 0 cs).length % Position.limit),
      (last.length + 1) % Position.limit⟩

theorem Position.advanceAll_cons (p : Position) (c : Char) (cs : List Char) :
    p.advanceAll (c :: cs) = (p.advance c).advanceAll cs :=
  rfl

theorem Position.advanceAll_append (p : Position) (a b : List Char) :
    p.advanceAll (a ++ b) = (p.advanceAll a).advanceAll b :=
  List.foldl_append

theorem Position.advanceAll_concat (p : Position) (cs : List Char) (c : Char) :
    p.advanceAll (cs ++ [c]) = (p.advanceAll cs).advance c :=
  p.advanceAll_append cs [c]

theorem Position.following_mod (n : Nat) : following (n % limit) = following n := by
  rw [following, following, Nat.mod_add_mod]

/-- One more character stands on the last line, or it opens a line that is empty. -/
theorem EndsIn.concat {cs front last : List Char} (h : EndsIn cs front last) (c : Char) :
    ∃ front' last', EndsIn (cs ++ [c]) front' last' := by
  have hbreaks := lineBreaks_append 0 cs [c]
  by_cases hc : c = '\n'
  · have hfeed : lineBreaks 0 (cs ++ [c]) = lineBreaks 0 cs ++ [byteLength (cs ++ [c])] := by
      rw [hbreaks, byteLength_concat, lineBreaks, if_pos hc, lineBreaks, Nat.zero_add]
    refine ⟨cs ++ [c], [], (List.append_nil _).symm, ?_, ?_⟩
    · rw [hfeed, ← List.cons_append, List.getLast?_concat]
    · rw [Position.advanceAll_concat, h.position, Position.advance, if_pos hc, hfeed,
        List.length_append, List.length_singleton]
      dsimp only
      rw [Position.following_mod, Position.following_mod]
      congr 1
      exact Position.following_mod _
  · have hsame : lineBreaks 0 (cs ++ [c]) = lineBreaks 0 cs := by
      rw [hbreaks, lineBreaks, if_neg hc, lineBreaks, List.append_nil]
    refine ⟨front, last ++ [c], ?_, by rw [hsame]; exact h.opened, ?_⟩
    · rw [h.split, List.append_assoc]
    · rw [Position.advanceAll_concat, h.position, Position.advance, if_neg hc, hsame,
        List.length_append, List.length_singleton]
      congr 1
      rw [Position.following, Nat.mod_add_mod]

theorem exists_endsIn (cs : List Char) : ∃ front last, EndsIn cs front last := by
  suffices h : ∀ back done, (∃ front last, EndsIn done front last) →
      ∃ front last, EndsIn (done ++ back) front last from
    h cs [] ⟨[], [], rfl, rfl, rfl⟩
  intro back
  induction back with
  | nil =>
      intro done hdone
      rwa [List.append_nil]
  | cons c cs ih =>
      intro done ⟨front, last, hdone⟩
      have h := ih (done ++ [c]) (hdone.concat c)
      rwa [List.append_assoc] at h

namespace IndexedText

variable {s : IndexedText} {pre rest : List Char}

theorem size_eq (s : IndexedText) : s.size = byteLength s.text.toList := by
  rw [← utf8ByteSize_eq]
  exact String.size_toByteArray

theorem slice_append {front slice back : List Char}
    (h : s.text.toList = front ++ slice ++ back) :
    s.slice (byteLength front) (byteLength (front ++ slice)) = .ok (String.ofList slice) :=
  sliceOf_append h

theorem slice_back {front back : List Char} (h : s.text.toList = front ++ back) :
    s.slice (byteLength front) s.size = .ok (String.ofList back) := by
  rw [size_eq, ← utf8ByteSize_eq]
  exact sliceOf_back h

theorem lineStarts_append (h : s.text.toList = pre ++ rest) :
    s.lineStarts.toList = 0 :: (lineBreaks 0 pre ++ lineBreaks (byteLength pre) rest) := by
  rw [s.indexed, h, lineBreaks_append, Nat.zero_add]

/-- The lines that begin at a place or before it are the first line and those that the line feeds
before the place open. -/
theorem lineStart_le_iff (h : s.text.toList = pre ++ rest) {i : Nat}
    (hi : i < s.lineStarts.size) :
    s.lineStarts[i] ≤ byteLength pre ↔ i < (lineBreaks 0 pre).length + 1 := by
  have hget : s.lineStarts.toList[i]? = some s.lineStarts[i] := by
    rw [Array.getElem?_toList, Array.getElem?_eq_getElem hi]
  rw [lineStarts_append h] at hget
  generalize s.lineStarts[i] = start at hget
  cases i with
  | zero =>
      obtain rfl : 0 = start := Option.some.inj hget
      exact iff_of_true (Nat.zero_le _) (Nat.succ_pos _)
  | succ i =>
      rw [List.getElem?_cons_succ] at hget
      by_cases hlt : i < (lineBreaks 0 pre).length
      · rw [List.getElem?_append_left hlt] at hget
        have hbounds := bounds_of_mem_lineBreaks (List.mem_of_getElem? hget)
        exact iff_of_true (by omega) (by omega)
      · rw [List.getElem?_append_right (Nat.le_of_not_lt hlt)] at hget
        have hbounds := bounds_of_mem_lineBreaks (List.mem_of_getElem? hget)
        exact iff_of_false (by omega) (by omega)

/-- The position that is looked up for a place is that of the reference walk. -/
theorem positionAt_append (h : s.text.toList = pre ++ rest) :
    s.positionAt (byteLength pre) = .ok (Position.start.advanceAll pre) := by
  obtain ⟨front, last, hends⟩ := exists_endsIn pre
  have hcount : (lineBreaks 0 pre).length + 1 ≤ s.lineStarts.size := by
    rw [← Array.length_toList, lineStarts_append h]
    simp
  have hpoint : partitionPoint (fun lineStart => lineStart ≤ byteLength pre) s.lineStarts 0
      s.lineStarts.size (Nat.le_refl _) = (lineBreaks 0 pre).length + 1 :=
    partitionPoint_eq (Nat.le_refl _)
      (fun i hi => by rw [decide_eq_true_iff]; exact lineStart_le_iff h hi) (Nat.zero_le _) hcount
  have hline : s.lineStarts[(lineBreaks 0 pre).length]? = some (byteLength front) := by
    rw [← Array.getElem?_toList, lineStarts_append h, ← List.cons_append,
      List.getElem?_append_left (Nat.lt_succ_self _), ← hends.opened,
      List.getLast?_eq_getElem?]
    rfl
  have hslice := slice_append (show s.text.toList = front ++ last ++ rest by rw [h, hends.split])
  rw [← hends.split] at hslice
  simp only [positionAt, hpoint, difference, bind, Except.bind]
  rw [if_pos (Nat.le_add_left 1 _)]
  simp only [Nat.add_sub_cancel, hline, hslice]
  rw [hends.position, ← String.length_toList, String.toList_ofList]
  rfl

/-- The range from a place to a later one is that between the cursors there. -/
theorem range_of_prefix {front : List Char} (h : s.text.toList = pre ++ rest)
    (hfront : front <+: pre) :
    s.range (byteLength front) (byteLength pre) =
      .ok ((Cursor.start.advanceAll front).rangeTo (Cursor.start.advanceAll pre)) := by
  obtain ⟨between, rfl⟩ := hfront
  have hplace : s.text.toList = front ++ (between ++ rest) := by rw [h, List.append_assoc]
  have hfirst := positionAt_append hplace
  simp only [range, hfirst, positionAt_append h, bind, Except.bind, Cursor.rangeTo,
    Cursor.offset_advanceAll, Cursor.position_advanceAll]
  simp [Cursor.start]
  rfl

/-- A fault at a place is reported with the position of the place. -/
theorem fail_append {α : Type} (h : s.text.toList = pre ++ rest) (fault : Fault) :
    s.fail (α := α) fault (byteLength pre) =
      .error (.malformed fault (byteLength pre) (Position.start.advanceAll pre)) := by
  simp only [fail, positionAt_append h, bind, Except.bind]

end IndexedText

end StyleAudit
