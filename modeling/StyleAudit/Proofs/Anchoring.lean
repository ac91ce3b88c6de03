import StyleAudit.Proofs.Normalizing
import StyleAudit.Proofs.Reading

/-!
What globs match when a literal text and a separator stand before them.

The characters of a text have codes that are told apart from the left, so a path whose bytes begin
with those of a text begins with the text.
-/

namespace StyleAudit.Glob

theorem bytesOf_append (cs ds : List Char) : bytesOf (cs ++ ds) = bytesOf cs ++ bytesOf ds :=
  List.flatMap_append

theorem bytesOf_cons (c : Char) (cs : List Char) :
    bytesOf (c :: cs) = String.utf8EncodeChar c ++ bytesOf cs :=
  List.flatMap_cons

/-- No code of a character begins that of another. -/
theorem utf8EncodeChar_append_inj {c d : Char} {u v : Bytes}
    (h : String.utf8EncodeChar c ++ u = String.utf8EncodeChar d ++ v) : c = d ∧ u = v := by
  have hdecode (e : Char) (w : Bytes) :
      ByteArray.utf8DecodeChar? (String.utf8EncodeChar e ++ w).toByteArray 0 = some e := by
    rw [List.toByteArray_append]
    exact ByteArray.utf8DecodeChar?_utf8EncodeChar_append
  have hc := hdecode c u
  rw [h, hdecode d v] at hc
  obtain rfl := Option.some.inj hc
  exact ⟨rfl, List.append_cancel_left h⟩

/-- What follows the bytes of a text and a separator follows the text and the separator. -/
theorem append_of_bytesOf {cs qs : List Char} {bs : Bytes}
    (h : bytesOf qs = bytesOf cs ++ bs) : ∃ xs, qs = cs ++ xs ∧ bytesOf xs = bs := by
  induction cs generalizing qs with
  | nil => exact ⟨qs, rfl, h⟩
  | cons c cs ih =>
      cases qs with
      | nil =>
          rw [bytesOf_cons] at h
          have hempty := (List.append_eq_nil_iff.1 h.symm).1
          exact (String.utf8EncodeChar_ne_nil (List.append_eq_nil_iff.1 hempty).1).elim
      | cons q qs =>
          rw [bytesOf_cons, bytesOf_cons, List.append_assoc] at h
          obtain ⟨rfl, hrest⟩ := utf8EncodeChar_append_inj h
          obtain ⟨xs, rfl, hxs⟩ := ih hrest
          exact ⟨xs, rfl, hxs⟩

/-- The bytes of a text stand for the text alone. -/
theorem bytesOf_inj {cs ds : List Char} : bytesOf cs = bytesOf ds ↔ cs = ds := by
  refine ⟨fun h => ?_, congrArg bytesOf⟩
  rw [← List.append_nil (bytesOf ds)] at h
  obtain ⟨xs, rfl, hxs⟩ := append_of_bytesOf h
  cases xs with
  | nil => exact List.append_nil _
  | cons x xs =>
      rw [bytesOf_cons] at hxs
      exact (String.utf8EncodeChar_ne_nil (List.append_eq_nil_iff.1 hxs).1).elim

namespace Token

theorem meaning_ofChar (c : Char) : (ofChar c).meaning = {String.utf8EncodeChar c} := by
  rw [ofChar]
  by_cases hspecial : isSpecial c = true
  · rw [if_pos hspecial, meaning]
    have hbyte (x : UInt8) (h : String.utf8EncodeChar c = [x]) :
        (byteWhere fun b => inRanges [(c, c)] b != false) = {String.utf8EncodeChar c} := by
      ext u
      have hin (b : UInt8) : inRanges [(c, c)] b = true ↔ b = x := by
        simp [inRanges, byteRanges, h, UInt8.le_antisymm_iff, and_comm]
      rw [mem_byteWhere, h]
      simp only [Bool.bne_false, hin]
      constructor
      · rintro ⟨_, rfl, hu⟩
        exact hu
      · exact fun hu => ⟨x, rfl, hu⟩
    rcases isSpecial_iff.1 hspecial with rfl | rfl | rfl | rfl | rfl | rfl <;> exact hbyte _ rfl
  · rw [if_neg hspecial, meaning]

theorem singleton_mul_singleton (u v : Bytes) : ({u} * {v} : Language UInt8) = {u ++ v} := by
  ext w
  rw [Language.mem_mul]
  constructor
  · rintro ⟨_, rfl, _, rfl, hw⟩
    exact hw.symm
  · exact fun hw => ⟨u, rfl, v, rfl, hw.symm⟩

/-- Characters that are taken literally stand for their text. -/
theorem meaningOfAll_ofChar (cs : List Char) : meaningOfAll (cs.map ofChar) = {bytesOf cs} := by
  induction cs with
  | nil => rfl
  | cons c cs ih =>
      rw [List.map_cons, meaningOfAll, meaning_ofChar, ih, singleton_mul_singleton, bytesOf_cons]

theorem meaning_separator : (literal '/').meaning = oneSeparator := by
  ext u
  rw [mem_oneSeparator]
  rfl

/-- Behind a separator a glob stands for the separator and what it stands for on its own. -/
theorem meaningOfAll_behind {ts us : List Token} (h : Behind ts us) (hus : us ≠ [.between]) :
    meaningOfAll us = oneSeparator * meaningOfGlob ts := by
  cases h with
  | plain hplain =>
      have hts : ts ≠ [.leading] := by
        rintro rfl
        exact hplain List.mem_cons_self
      rw [meaningOfAll, meaning_separator, meaningOfGlob_eq hts]
  | everything => rw [meaningOfAll, meaningOfAll, meaning, mul_one, meaningOfGlob]
  | components ts =>
      have hts : Token.leading :: ts ≠ [.leading] := by
        rintro heq
        exact hus (by rw [(List.cons.inj heq).2])
      rw [meaningOfGlob_eq hts, meaningOfAll, meaningOfAll, meaning, meaning, mul_assoc]

/-- Behind a separator every glob begins with the separator. -/
theorem separator_of_behind {ts us : List Token} (h : Behind ts us) {u : Bytes}
    (hu : u ∈ meaningOfAll us) : ∃ v, u = separator :: v := by
  have hsplit {L : Language UInt8} (hL : u ∈ oneSeparator * L) : ∃ v, u = separator :: v := by
    obtain ⟨_, hsep, v, -, rfl⟩ := Language.mem_mul.1 hL
    exact ⟨v, by rw [mem_oneSeparator.1 hsep]; rfl⟩
  cases h with
  | plain hplain =>
      rw [meaningOfAll, meaning_separator] at hu
      exact hsplit hu
  | everything =>
      rw [meaningOfAll, meaning, mul_assoc] at hu
      exact hsplit hu
  | components ts =>
      rw [meaningOfAll, meaning, mul_assoc] at hu
      exact hsplit hu

end Token

/-- How a glob and the one behind a literal text compare. -/
structure Anchors (text : String) (full glob : Glob) : Prop where
  /-- What is matched is the text, a separator and something after it. -/
  below {path : String} (h : full.isMatch path = true) : ∃ x, path = text ++ "/" ++ x
  /-- What comes after the separator is what the glob matches. -/
  rest (h : glob.source.toList.getLast? ≠ some '/') (x : String) :
    full.isMatch (text ++ "/" ++ x) = glob.isMatch x
  /-- A glob of several tokens keeps the last one. -/
  last (h : 1 < glob.tokens.length) : full.tokens.getLast? = glob.tokens.getLast?

variable {text source : String}

theorem toList_anchored (text source : String) :
    (escape text ++ "/" ++ source).toList =
      text.toList.flatMap bracketed ++ '/' :: source.toList := by
  rw [String.toList_append, String.toList_append, toList_escape, List.append_assoc]
  rfl

theorem bytesOf_anchored (text x : String) :
    bytesOf (text ++ "/" ++ x).toList =
      bytesOf text.toList ++ separator :: bytesOf x.toList := by
  rw [String.toList_append, String.toList_append, bytesOf_append, bytesOf_append,
    List.append_assoc]
  rfl

theorem ne_leading_of_behind {ts us : List Token} (h : Behind ts us) {cs : List Char} :
    cs.map Token.ofChar ++ us ≠ [.leading] := by
  intro heq
  rcases List.append_eq_singleton_iff.1 heq with ⟨-, hus⟩ | ⟨-, hus⟩
  · cases h <;> cases hus
  · cases h <;> cases hus

/-- What is matched behind a literal text is the text and what the tokens behind it stand for. -/
theorem isMatch_behind {full : Glob} {ts us : List Token} (hbehind : Behind ts us)
    (hfull : full.tokens = text.toList.map Token.ofChar ++ us) {path : String} :
    full.isMatch path = true ↔
      ∃ v, bytesOf path.toList = bytesOf text.toList ++ v ∧ v ∈ Token.meaningOfAll us := by
  have hlone : full.tokens ≠ [.leading] := by
    rw [hfull]
    exact ne_leading_of_behind hbehind
  rw [isMatch_iff, Token.meaningOfGlob_eq hlone, hfull, Token.meaningOfAll_append,
    Token.meaningOfAll_ofChar, Language.mem_mul]
  constructor
  · rintro ⟨_, rfl, v, hv, hpath⟩
    exact ⟨v, hpath.symm, hv⟩
  · rintro ⟨v, hpath, hv⟩
    exact ⟨_, rfl, v, hv, hpath.symm⟩

theorem getLast?_behind {ts us : List Token} (hbehind : Behind ts us) (h : 1 < ts.length)
    (before : List Token) : (before ++ us).getLast? = ts.getLast? := by
  cases hbehind with
  | plain =>
      obtain ⟨first, rest, rfl⟩ := List.exists_cons_of_length_pos (Nat.lt_of_succ_lt h)
      simp [List.getLast?_append, List.getLast?_cons]
  | everything => simp at h
  | components ts =>
      obtain ⟨first, rest, rfl⟩ := List.exists_cons_of_length_pos (Nat.lt_of_succ_lt_succ h)
      simp [List.getLast?_append, List.getLast?_cons]

theorem anchors_of_behind {full glob : Glob} {us : List Token} (hbehind : Behind glob.tokens us)
    (hfull : full.tokens = text.toList.map Token.ofChar ++ us)
    (hus : us = [.between] → glob.source.toList.getLast? = some '/') : Anchors text full glob := by
  refine ⟨?_, ?_, fun h => hfull ▸ getLast?_behind hbehind h _⟩
  · intro path h
    obtain ⟨v, hpath, hv⟩ := (isMatch_behind hbehind hfull).1 h
    obtain ⟨w, rfl⟩ := Token.separator_of_behind hbehind hv
    have hsep : bytesOf text.toList ++ separator :: w = bytesOf (text ++ "/").toList ++ w := by
      rw [String.toList_append, bytesOf_append, List.append_assoc]
      rfl
    obtain ⟨xs, hxs, -⟩ := append_of_bytesOf (hpath.trans hsep)
    exact ⟨String.ofList xs, String.toList_inj.1 (by simpa using hxs)⟩
  · intro h x
    have hmeaning := Token.meaningOfAll_behind hbehind fun hbetween => h (hus hbetween)
    rw [Bool.eq_iff_iff, isMatch_behind hbehind hfull, isMatch_iff, bytesOf_anchored, hmeaning]
    constructor
    · rintro ⟨v, hv, hmem⟩
      rw [← List.append_cancel_left hv, Language.mem_mul] at hmem
      obtain ⟨_, hsep, w, hw, heq⟩ := hmem
      rw [mem_oneSeparator.1 hsep] at heq
      rwa [← (List.cons.inj heq).2]
    · intro hmem
      exact ⟨_, rfl, Language.mem_mul.2 ⟨_, mem_oneSeparator.2 rfl, _, hmem, rfl⟩⟩

/-- A glob behind a literal text is read if and only if it is read on its own. -/
theorem parse_anchored (d : Dialect) (htext : '\\' ∉ text.toList) (source : String) :
    match parse d source with
    | .error e =>
      parse d (escape text ++ "/" ++ source) = .error ⟨escape text ++ "/" ++ source, e.fault⟩
    | .ok glob =>
      ∃ full, parse d (escape text ++ "/" ++ source) = .ok full ∧ Anchors text full glob := by
  obtain ⟨last, htext⟩ := readFrom_escaped d [] none htext ('/' :: source.toList)
  rw [readFrom_separator, List.append_nil] at htext
  have hbehind := readFrom_behind d (text.toList.map Token.ofChar).reverse source.toList
  rw [parse, parse, toList_anchored, htext]
  cases hread : readFrom d ⟨[], [], none, false⟩ source.toList with
  | error fault =>
      rw [hread] at hbehind
      dsimp only at hbehind ⊢
      rw [hbehind]
  | ok ts =>
      rw [hread] at hbehind
      obtain ⟨us, hfull, hus, hbetween⟩ := hbehind
      dsimp only
      rw [hfull, List.reverse_reverse]
      exact ⟨_, rfl, anchors_of_behind hus rfl hbetween⟩

/-- An escaped text is a glob for the text alone. -/
theorem parse_escape (d : Dialect) (htext : '\\' ∉ text.toList) :
    ∃ full, parse d (escape text) = .ok full ∧ ∀ path, full.isMatch path = true ↔ path = text := by
  obtain ⟨last, hread⟩ := readFrom_escaped d [] none htext []
  rw [List.append_nil, List.append_nil, readFrom_nil d rfl, List.reverse_reverse] at hread
  refine ⟨⟨escape text, text.toList.map Token.ofChar⟩, ?_, fun path => ?_⟩
  · rw [parse, toList_escape, hread]
  · have hlone : text.toList.map Token.ofChar ≠ [.leading] := by
      intro heq
      obtain ⟨c, -, hc⟩ := List.map_eq_singleton_iff.1 heq
      rw [Token.ofChar] at hc
      split at hc <;> cases hc
    rw [isMatch_iff, Token.meaningOfGlob_eq hlone, Token.meaningOfAll_ofChar]
    exact bytesOf_inj.trans String.toList_inj

section Names

open StyleAudit.Path (IsName walkNames)

theorem toList_withSlashes (s : String) :
    (Path.withSlashes s).toList = s.toList.map fun c => if c = '\\' then '/' else c :=
  String.toList_ofList

theorem not_mem_withSlashes (s : String) : '\\' ∉ (Path.withSlashes s).toList := by
  rw [toList_withSlashes, List.mem_map]
  rintro ⟨c, -, hc⟩
  split_ifs at hc with hback
  · cases hc
  · exact hback hc

theorem withSlashes_of_not_mem {s : String} (h : '\\' ∉ s.toList) : Path.withSlashes s = s := by
  rw [Path.withSlashes, ← String.toList_inj, String.toList_ofList]
  refine (List.map_congr_left fun c hc => if_neg ?_).trans (List.map_id _)
  rintro rfl
  exact h hc

theorem toList_bracketed_eq {cs : List Char} (h : '[' ∉ cs.flatMap bracketed) :
    cs.flatMap bracketed = cs := by
  induction cs with
  | nil => rfl
  | cons c cs ih =>
      rw [List.flatMap_cons, List.mem_append, not_or] at h
      rw [List.flatMap_cons, ih h.2]
      have hplain : ¬isSpecial c = true := fun hspecial => h.1 (by simp [bracketed, hspecial])
      rw [bracketed, if_neg hplain, List.singleton_append]

/-- A character that takes no brackets only comes from itself. -/
theorem bracketed_of_plain {c : Char} (hc : isSpecial c = false) (d : Char) :
    (c ∈ bracketed d ↔ d = c) ∧ ((bracketed d).head? = some c ↔ d = c) ∧
      ((bracketed d).getLast? = some c ↔ d = c) := by
  rw [bracketed]
  split_ifs with hd
  · have hne : d ≠ c := by
      rintro rfl
      rw [hc] at hd
      cases hd
    have hopen : '[' ≠ c := by
      rintro rfl
      cases hc
    have hclose : ']' ≠ c := by
      rintro rfl
      cases hc
    simp [hne, hne.symm, hopen, hopen.symm, hclose, hclose.symm]
  · simp [eq_comm]

theorem bracketed_ne_nil (c : Char) : bracketed c ≠ [] := by
  rw [bracketed]
  split_ifs <;> simp

theorem mem_bracketed {c : Char} {cs : List Char} (hc : isSpecial c = false) :
    c ∈ cs.flatMap bracketed ↔ c ∈ cs := by
  simp [List.mem_flatMap, (bracketed_of_plain hc _).1]

theorem head?_bracketed {c : Char} (hc : isSpecial c = false) (cs : List Char) :
    (cs.flatMap bracketed).head? = some c ↔ cs.head? = some c := by
  cases cs with
  | nil => rfl
  | cons d cs =>
      rw [List.flatMap_cons, List.head?_append_of_ne_nil _ (bracketed_ne_nil d),
        (bracketed_of_plain hc d).2.1, List.head?_cons, Option.some.injEq]

theorem getLast?_bracketed {c : Char} (hc : isSpecial c = false) (cs : List Char) :
    (cs.flatMap bracketed).getLast? = some c ↔ cs.getLast? = some c := by
  rcases List.eq_nil_or_concat' cs with rfl | ⟨init, d, rfl⟩
  · rfl
  · rw [List.flatMap_append, List.flatMap_singleton,
      List.getLast?_append_of_ne_nil _ (bracketed_ne_nil d), (bracketed_of_plain hc d).2.2,
      List.getLast?_concat, Option.some.injEq]

theorem joinSegments_bracketed (parts : List (List Char)) :
    Path.joinSegments (parts.map (·.flatMap bracketed)) =
      (Path.joinSegments parts).flatMap bracketed := by
  induction parts with
  | nil => rfl
  | cons s parts ih =>
      by_cases hne : parts = []
      · rw [hne]
        rfl
      · rw [List.map_cons, Path.joinSegments_cons _ (by simpa using hne), ih,
          Path.joinSegments_cons s hne, List.flatMap_append, List.flatMap_cons]
        rfl

theorem not_mem_escape {s : String} (h : '\\' ∉ s.toList) : '\\' ∉ (escape s).toList := by
  rw [toList_escape, mem_bracketed rfl]
  exact h

theorem isName_escape {name : String} (h : IsName name) : IsName (escape name) := by
  have hplain (cs : List Char) (hopen : '[' ∉ cs) (hcs : (escape name).toList = cs) :
      name.toList = cs := by
    rw [toList_escape] at hcs
    rw [← hcs, toList_bracketed_eq (by rwa [hcs])]
  have hvoid : name.toList ≠ [] ∧ name.toList ≠ ['.'] := by simpa [Path.isVoid] using h.noVoid
  refine ⟨?_, ?_, ?_⟩
  · simpa [Path.isVoid] using
      ⟨fun heq => hvoid.1 (hplain [] (by simp) (by simp [heq])),
        fun heq => hvoid.2 (hplain ['.'] (by decide) heq)⟩
  · exact fun heq => h.noParent (hplain ['.', '.'] (by decide) heq)
  · rw [toList_escape, mem_bracketed rfl]
    exact h.noSlash

theorem spelled_escape (names : List String) :
    (Path.spelled names).flatMap bracketed = Path.spelled (names.map escape) := by
  induction names with
  | nil => rfl
  | cons name names ih =>
      rw [Path.spelled_cons, List.flatMap_append, List.flatMap_cons, ih, List.map_cons,
        Path.spelled_cons, toList_escape]
      rfl

theorem toList_trimSlashes (s : String) :
    (trimSlashes s).toList = (s.toList.reverse.dropWhile (· == '/')).reverse :=
  String.toList_ofList

theorem trimSlashes_eq {s : String} {cs : List Char} (slashes : Nat)
    (h : s.toList = cs ++ List.replicate slashes '/') (hlast : cs.getLast? ≠ some '/') :
    trimSlashes s = String.ofList cs := by
  have hdrop : cs.reverse.dropWhile (· == '/') = cs.reverse := by
    rcases List.eq_nil_or_concat' cs with rfl | ⟨init, c, rfl⟩
    · rfl
    · have hc : c ≠ '/' := by simpa using hlast
      simp [hc]
  rw [← String.toList_inj, toList_trimSlashes, String.toList_ofList, h, List.reverse_append,
    List.reverse_replicate, List.dropWhile_append_of_pos (by simp), hdrop, List.reverse_reverse]

theorem trimSlashes_spelled {names : List String} (hnames : ∀ n ∈ names, IsName n) :
    trimSlashes (Path.through names) = String.ofList (Path.spelled names) := by
  have hlast := Path.getLast?_spelled hnames
  by_cases hne : names = []
  · exact hne ▸ trimSlashes_eq 1 rfl (by simp [Path.spelled])
  · exact trimSlashes_eq 0
      (by rw [Path.toList_through_of_ne_nil hne, List.replicate_zero, List.append_nil]) hlast

theorem escape_through (names : List String) :
    escape (Path.through names) = Path.through (names.map escape) := by
  rw [← String.toList_inj, toList_escape]
  by_cases hne : names = []
  · rw [hne]
    rfl
  · rw [Path.toList_through_of_ne_nil hne, spelled_escape,
      Path.toList_through_of_ne_nil (by simpa using hne)]

theorem not_mem_through {names : List String} (h : ∀ n ∈ names, '\\' ∉ n.toList) :
    '\\' ∉ (Path.through names).toList := by
  by_cases hne : names = []
  · rw [hne]
    decide
  · rw [Path.toList_through_of_ne_nil hne, Path.spelled, List.mem_flatMap]
    rintro ⟨n, hn, hmem⟩
    exact h n hn ((List.mem_cons.1 hmem).resolve_left (by decide))

/-- The names on the way from the root to a directory that a glob takes literally. -/
theorem trimmed_eq {names : List String} (hnames : ∀ n ∈ names, IsName n)
    (hslash : ∀ n ∈ names, '\\' ∉ n.toList) :
    trimSlashes (escape (Path.withSlashes (Path.through names))) =
      String.ofList (Path.spelled (names.map escape)) := by
  rw [withSlashes_of_not_mem (not_mem_through hslash), escape_through, trimSlashes_spelled]
  intro n hn
  obtain ⟨name, hname, rfl⟩ := List.mem_map.1 hn
  exact isName_escape (hnames name hname)

theorem toList_separated (down : List String) (hne : down ≠ []) :
    ("/" ++ String.intercalate "/" down).toList = Path.spelled down :=
  Path.toList_through_of_ne_nil hne

/-- The climbs of a relative glob lead out of its directory, and its names are left. -/
theorem climb_of_reduced {pattern base : String} (hbase : Path.isAbsolute base = true)
    {climbs : Nat} {down : List String}
    (hreduced : Path.normalized pattern = List.replicate climbs .parent ++ down.map .normal) :
    climb (Path.normalize base) (Path.components (Path.normalize pattern)) =
      (Path.through (walkNames (walkNames [] (Path.steps base)) (List.replicate climbs .parent)),
        down.map .normal) := by
  have hnames := Path.isName_walkNames (List.forall_mem_nil _) (Path.isStep_steps base)
  rw [Path.normalize_of_isAbsolute hbase, ← Path.climb_through hnames, ← hreduced, Path.normalize]
  split
  case h_1 hempty =>
      rw [hempty]
      rfl
  case h_2 hne => rw [Path.components_render (Path.isNormal_normalized pattern) hne]

/-- Behind what is left of its directory, which it takes literally, a relative glob goes down. -/
theorem absolutizePlain_of_climb {pattern base up : String} {down : List String}
    (h : Path.isAbsolute pattern = false)
    (hclimb : climb (Path.normalize base) (Path.components (Path.normalize pattern)) =
      (up, down.map .normal)) :
    absolutizePlain pattern base =
      trimSlashes (escape (Path.withSlashes up)) ++ String.ofList (Path.spelled down) := by
  rw [absolutizePlain, if_neg (by simp [h]), hclimb]
  dsimp only
  cases down with
  | nil => simp [Path.spelled]
  | cons name down =>
      rw [if_neg (by simp), List.map_map]
      have htext : (name :: down).map (Path.Component.text ∘ .normal) = name :: down :=
        List.map_id _
      rw [htext, String.append_assoc, ← String.toList_inj, String.toList_append,
        toList_separated (name :: down) (List.cons_ne_nil _ _), String.toList_append,
        String.toList_ofList]

/-- A relative glob stands for the names that it leads to; those of the directory are escaped. -/
theorem absolutizePlain_relative {pattern base : String} (hbase : Path.isAbsolute base = true)
    (hslash : ∀ n ∈ walkNames [] (Path.steps base), '\\' ∉ n.toList)
    (h : Path.isAbsolute pattern = false) :
    absolutizePlain pattern base = String.ofList (Path.spelled
      (walkNames ((walkNames [] (Path.steps base)).map escape) (Path.steps pattern))) := by
  have hnames := Path.isName_walkNames (List.forall_mem_nil _) (Path.isStep_steps base)
  obtain ⟨⟨climbs, down, hreduced⟩, hwalk⟩ := Path.normalized_relative h
  have hup : ∀ n ∈ walkNames (walkNames [] (Path.steps base)) (List.replicate climbs .parent),
      IsName n ∧ '\\' ∉ n.toList := by
    intro n hn
    have hmem := (Path.mem_walkNames hn).resolve_right fun hup => by
      cases List.eq_of_mem_replicate hup
    exact ⟨hnames n hmem, hslash n hmem⟩
  have hparent : Path.Component.mapName escape .parent = .parent := rfl
  rw [absolutizePlain_of_climb h (climb_of_reduced hbase hreduced),
    trimmed_eq (fun n hn => (hup n hn).1) fun n hn => (hup n hn).2, ← hwalk, hreduced,
    Path.walkNames_append, Path.walkNames_normal, Path.spelled_append, Path.map_walkNames,
    List.map_replicate, hparent, String.ofList_append]

theorem absolutizePlain_absolute {pattern base : String} (hslash : '\\' ∉ pattern.toList)
    (h : Path.isAbsolute pattern = true) :
    absolutizePlain pattern base = Path.through (walkNames [] (Path.steps pattern)) := by
  rw [absolutizePlain, if_pos h, Path.normalize_of_isAbsolute h,
    withSlashes_of_not_mem (not_mem_through fun n hn hmem => ?_)]
  exact hslash (Path.subset_of_mem_walkNames hn hmem)

/-- A relative normal form that does not climb goes down some names. -/
theorem names_of_normal {g : String} (hnormal : Path.normalize g = g)
    (hrelative : Path.isAbsolute g = false) (hclimb : (Path.components g).head? ≠ some .parent)
    (hdot : g ≠ ".") :
    ∃ down, (∀ n ∈ down, IsName n) ∧ Path.steps g = down.map .normal ∧
      "/" ++ g = String.ofList (Path.spelled down) := by
  obtain ⟨⟨climbs, down, hreduced⟩, -⟩ := Path.normalized_relative hrelative
  have hne : Path.normalized g ≠ [] := by
    intro hempty
    rw [Path.normalize, hempty] at hnormal
    exact hdot hnormal.symm
  have hrender : Path.render (Path.normalized g) = g := by
    rw [Path.normalize] at hnormal
    split at hnormal
    case h_1 hempty => exact absurd hempty hne
    case h_2 => exact hnormal
  have hcomponents := Path.components_render (Path.isNormal_normalized g) hne
  rw [hrender] at hcomponents
  obtain rfl : climbs = 0 := by
    cases climbs with
    | zero => rfl
    | succ climbs =>
        rw [hcomponents, hreduced] at hclimb
        exact absurd rfl hclimb
  rw [List.replicate_zero, List.nil_append] at hreduced
  rw [hreduced] at hne hrender hcomponents
  have hsteps : Path.steps g = down.map .normal := by
    rcases Path.components_of_relative hrelative with hcs | hcs
    · rw [hcomponents] at hcs
      cases down <;> cases hcs
    · rw [← hcs, hcomponents]
  refine ⟨down, fun n hn => ?_, hsteps, ?_⟩
  · have hstep := Path.isStep_steps g (.normal n) (hsteps ▸ List.mem_map_of_mem hn)
    cases hstep with
    | normal hname => exact hname
  · have hdown : down ≠ [] := by simpa using hne
    have htext : Path.render (down.map .normal) = String.intercalate "/" down := by
      rw [Path.render]
      · rw [List.map_map]
        exact congrArg _ (List.map_id _)
      · intro cs hcs
        cases down <;> cases hcs
    rw [← toList_separated down hdown, String.ofList_toList, ← hrender, htext]

theorem getLast?_of_spelled {g : String} {down : List String} (hdown : ∀ n ∈ down, IsName n)
    (htext : "/" ++ g = String.ofList (Path.spelled down)) : g.toList.getLast? ≠ some '/' := by
  intro hend
  refine Path.getLast?_spelled hdown ?_
  rw [← String.toList_ofList (l := Path.spelled down), ← htext, String.toList_append,
    List.getLast?_append, hend]
  rfl

theorem splitNegation_of_head {pattern : String} (h : pattern.toList.head? ≠ some '!') :
    splitNegation pattern = (false, pattern) := by
  unfold splitNegation
  split
  case h_1 htext =>
      rw [htext] at h
      exact absurd rfl h
  case h_2 => rfl

theorem splitNegation_bang (pattern : String) :
    splitNegation ("!" ++ pattern) = (true, pattern) := by
  have htext : ("!" ++ pattern).toList = '!' :: pattern.toList := String.toList_append
  rw [splitNegation, htext]
  exact congrArg (Prod.mk true) String.ofList_toList

theorem source_of_parse {d : Dialect} {source : String} {g : Glob} (h : parse d source = .ok g) :
    g.source = source := by
  rw [parse] at h
  split at h
  · rw [← Except.ok.inj h]
  · cases h

/-- The text of the names of a directory, with nothing behind the last one. -/
theorem absolutize_relative {base g : String} (hbase : Path.isAbsolute base = true)
    (hslash : '\\' ∉ base.toList) (hrelative : Path.isAbsolute g = false)
    (hnegation : g.toList.head? ≠ some '!') {down : List String}
    (hsteps : Path.steps g = down.map .normal)
    (htext : "/" ++ g = String.ofList (Path.spelled down)) :
    absolutize g base =
      escape (String.ofList (Path.spelled (walkNames [] (Path.steps base)))) ++ "/" ++ g := by
  rw [absolutize, splitNegation_of_head hnegation]
  dsimp only [withNegation]
  rw [if_neg (by simp), absolutizePlain_relative hbase ?_ hrelative, hsteps, Path.walkNames_normal,
    String.append_assoc, htext, ← String.toList_inj, String.toList_append, toList_escape]
  · simp only [String.toList_ofList]
    rw [spelled_escape, Path.spelled_append]
  · intro n hn hmem
    exact hslash (Path.subset_of_mem_walkNames hn hmem)

/-- A normal form that goes down stands as it is behind the names of its directory. -/
theorem absolutize_normal {base g : String} (hbase : Path.isAbsolute base = true)
    (hnormal : Path.normalize base = base) (hslash : '\\' ∉ base.toList)
    (hg : Path.normalize g = g) (hrelative : Path.isAbsolute g = false)
    (hnegation : g.toList.head? ≠ some '!') (hclimb : (Path.components g).head? ≠ some .parent)
    (hdot : g ≠ ".") :
    ∃ names, (∀ n ∈ names, IsName n) ∧ base = Path.through names ∧
      '\\' ∉ (String.ofList (Path.spelled names)).toList ∧
      absolutize g base = escape (String.ofList (Path.spelled names)) ++ "/" ++ g ∧
      g.toList.getLast? ≠ some '/' := by
  obtain ⟨down, hdown, hsteps, htext⟩ := names_of_normal hg hrelative hclimb hdot
  have hnames := Path.isName_walkNames (List.forall_mem_nil _) (Path.isStep_steps base)
  have hthrough : base = Path.through (walkNames [] (Path.steps base)) := by
    rw [← Path.normalize_of_isAbsolute hbase, hnormal]
  refine ⟨_, hnames, hthrough, ?_,
    absolutize_relative hbase hslash hrelative hnegation hsteps htext,
    getLast?_of_spelled hdown htext⟩
  rw [String.toList_ofList]
  exact fun hmem => hslash (hthrough ▸ Path.spelled_subset _ hmem)

/-- Behind a directory a glob matches what it matches on its own, joined onto the directory. -/
theorem Anchors.isMatch_iff_join {names : List String} (hnames : ∀ n ∈ names, IsName n)
    {full glob : Glob} (hanchors : Anchors (String.ofList (Path.spelled names)) full glob)
    (hlast : glob.source.toList.getLast? ≠ some '/') {q : String}
    (hq : Path.isAbsolute q = true) (hnormal : Path.normalize q = q) :
    full.isMatch q = true ↔
      ∃ x, Path.isAbsolute x = false ∧ q = Path.join (Path.through names) x ∧
        glob.isMatch x = true := by
  have hrest := hanchors.rest hlast
  constructor
  · intro hmatch
    obtain ⟨x, hx⟩ := hanchors.below hmatch
    have hqnames := Path.isName_walkNames (List.forall_mem_nil _) (Path.isStep_steps q)
    have hthrough : q = Path.through (walkNames [] (Path.steps q)) := by
      rw [← Path.normalize_of_isAbsolute hq, hnormal]
    rw [hthrough] at hx
    obtain ⟨rest, hrestNames, hxthrough⟩ := Path.names_of_through hnames hqnames hx
    rw [← hthrough] at hx
    have hxrelative : Path.isAbsolute x = false := by
      refine Path.isAbsolute_of_through (fun n hn => hqnames n ?_) hxthrough
      rw [hrestNames]
      exact List.mem_append_right _ hn
    refine ⟨x, hxrelative, ?_, ?_⟩
    · rw [Path.join_through hnames hxrelative, hx]
    · rw [← hrest, ← hx, hmatch]
  · rintro ⟨x, hxrelative, rfl, hmatch⟩
    rw [Path.join_through hnames hxrelative, hrest, hmatch]

/-- A glob taken from a directory matches the paths below it that the glob itself matches. -/
theorem absolutize_keeps_meaning {base g : String} (hbase : Path.isAbsolute base = true)
    (hnormal : Path.normalize base = base) (hslash : '\\' ∉ base.toList)
    (hg : Path.normalize g = g) (hrelative : Path.isAbsolute g = false)
    (hnegation : g.toList.head? ≠ some '!') (hclimb : (Path.components g).head? ≠ some .parent)
    (hdot : g ≠ ".") :
    match parse strict g with
    | .error e => parse strict (absolutize g base) = .error ⟨absolutize g base, e.fault⟩
    | .ok glob => ∃ full, parse strict (absolutize g base) = .ok full ∧
        ∀ q, Path.isAbsolute q = true → Path.normalize q = q →
          (full.isMatch q = true ↔
            ∃ x, Path.isAbsolute x = false ∧ q = Path.join base x ∧ glob.isMatch x = true) := by
  obtain ⟨names, hnames, hthrough, hspelled, hfull, hlastSlash⟩ :=
    absolutize_normal hbase hnormal hslash hg hrelative hnegation hclimb hdot
  have hread := parse_anchored strict hspelled g
  rw [← hfull] at hread
  cases hparse : parse strict g with
  | error e =>
      rw [hparse] at hread
      exact hread
  | ok glob =>
      rw [hparse] at hread
      obtain ⟨full, hfullParse, hanchors⟩ := hread
      have hlast : glob.source.toList.getLast? ≠ some '/' := by rwa [source_of_parse hparse]
      refine ⟨full, hfullParse, fun q hq hqnormal => ?_⟩
      rw [hthrough]
      exact hanchors.isMatch_iff_join hnames hlast hq hqnormal

theorem absolutize_keeps_meaning_brackets :
    ∃ full, parse strict (absolutize "**/{b,c/d}.css" "/p[1]") = .ok full ∧
      full.isMatch "/p[1]/a/c/d.css" = true := by
  have hmeaning := @absolutize_keeps_meaning "/p[1]" "**/{b,c/d}.css" (by decide)
    (by decide +kernel) (by decide) (by decide +kernel) (by decide) (by decide) (by decide +kernel)
    (by decide)
  have hmatch : ((parse strict "**/{b,c/d}.css").toOption.any (·.isMatch "a/c/d.css")) = true := by
    decide +kernel
  cases hparse : parse strict "**/{b,c/d}.css" with
  | error e =>
      rw [hparse] at hmatch
      cases hmatch
  | ok glob =>
      rw [hparse] at hmeaning hmatch
      obtain ⟨full, hfull, hiff⟩ := hmeaning
      exact ⟨full, hfull, (hiff "/p[1]/a/c/d.css" (by decide) (by decide +kernel)).2
        ⟨"a/c/d.css", by decide, by decide +kernel, hmatch⟩⟩

end Names

end StyleAudit.Glob
