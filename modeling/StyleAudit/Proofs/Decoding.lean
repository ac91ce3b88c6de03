import Mathlib.Data.List.Basic
import Mathlib.Data.List.TakeWhile
import StyleAudit.Disable.Directive

/-!
What a directive comment asks for is what was written.

The command is the first word of a comment, and nothing else decides which it is. Behind it stand
the names, and a description behind the first run of dashes that stands alone, so that dashes within
a name, and anything within a description, are read back as they were written.
-/

namespace StyleAudit

namespace Text

theorem isBlank_of_isAsciiBlank {c : Char} (h : isAsciiBlank c) : isBlank c := by
  simp only [isAsciiBlank, Bool.or_eq_true, beq_iff_eq] at h
  rcases h with (((rfl | rfl) | rfl) | rfl) | rfl <;> decide

theorem trimRight_eq_self_iff {cs : List Char} :
    trimRight cs = cs ↔ ∀ c ∈ cs.getLast?, ¬isBlank c := by
  have happ := splitTail_append isBlank cs
  constructor
  · intro h
    rw [trimRight] at h
    exact (splitTail_eq_iff.mp (Prod.ext h rfl)).2.2
  · intro h
    have hsplit : splitTail isBlank cs = (cs, []) :=
      splitTail_eq_iff.mpr ⟨cs.append_nil, nofun, h⟩
    rw [trimRight, hsplit]

theorem trimLeft_eq_self_iff {cs : List Char} :
    trimLeft cs = cs ↔ ∀ c ∈ cs.head?, ¬isBlank c := by
  rw [trimLeft, List.dropWhile_eq_self_iff]
  cases cs <;> simp

/-- A blank at the end makes no difference to what is left when the end is trimmed. -/
theorem trimRight_append_blank {b : Char} (hb : isBlank b) (cs : List Char) :
    trimRight (cs ++ [b]) = trimRight cs := by
  obtain ⟨happ, htail, hkept⟩ := splitTail_eq_iff.mp (rfl : splitTail isBlank cs = _)
  have hsplit : splitTail isBlank (cs ++ [b]) =
      ((splitTail isBlank cs).1, (splitTail isBlank cs).2 ++ [b]) := by
    refine splitTail_eq_iff.mpr ⟨by rw [← List.append_assoc, happ], fun c hc => ?_, hkept⟩
    rcases List.mem_append.mp hc with hc | hc
    · exact htail c hc
    · rwa [List.mem_singleton.mp hc]
  rw [trimRight, hsplit, trimRight]

theorem trim_eq_self_iff {cs : List Char} :
    trim cs = cs ↔ (∀ c ∈ cs.head?, ¬isBlank c) ∧ ∀ c ∈ cs.getLast?, ¬isBlank c := by
  rw [← trimLeft_eq_self_iff, ← trimRight_eq_self_iff]
  constructor
  · intro h
    have hprefix : trim cs <+: trimLeft cs := ⟨_, splitTail_append isBlank (trimLeft cs)⟩
    rw [h] at hprefix
    have hleft : trimLeft cs = cs :=
      (List.dropWhile_sublist isBlank).eq_of_length_le hprefix.length_le
    exact ⟨hleft, by rwa [trim, hleft] at h⟩
  · rintro ⟨hleft, hright⟩
    rw [trim, hleft, hright]

end Text

namespace Directive

/-! ### The command -/

def firstWord (cs : List Char) : List Char :=
  cs.takeWhile fun c => !Text.isBlank c

theorem firstWord_append_dropWhile (cs : List Char) :
    firstWord cs ++ (cs.dropWhile fun c => !Text.isBlank c) = cs :=
  List.takeWhile_append_dropWhile

theorem takeWhile_append_cons {p : Char → Bool} {x : Char} (hx : ¬p x) (front rest : List Char) :
    (front ++ x :: rest).takeWhile p = front.takeWhile p := by
  induction front with
  | nil => simp [hx]
  | cons c cs ih => by_cases hc : p c <;> simp [hc, ih]

theorem dropWhile_append_cons {p : Char → Bool} {x : Char} (hx : ¬p x) (front rest : List Char) :
    (front ++ x :: rest).dropWhile p = front.dropWhile p ++ x :: rest := by
  induction front with
  | nil => simp [hx]
  | cons c cs ih => by_cases hc : p c <;> simp [hc, ih]

theorem firstWord_append_blank {b : Char} (hb : Text.isBlank b) (front rest : List Char) :
    firstWord (front ++ b :: rest) = firstWord front :=
  takeWhile_append_cons (by simp [hb]) front rest

theorem firstWord_trimRight (cs : List Char) : firstWord (Text.trimRight cs) = firstWord cs := by
  obtain ⟨happ, htail, -⟩ := Text.splitTail_eq_iff.mp (rfl : Text.splitTail Text.isBlank cs = _)
  cases hblanks : (Text.splitTail Text.isBlank cs).2 with
  | nil =>
      rw [hblanks, List.append_nil] at happ
      rw [Text.trimRight, happ]
  | cons b blanks =>
      rw [hblanks] at happ htail
      rw [← happ, firstWord_append_blank (htail b List.mem_cons_self), happ, Text.trimRight]

theorem firstWord_name_append (command : Command) {rest : List Char}
    (hrest : ∀ c ∈ rest.head?, Text.isBlank c) :
    firstWord (command.name.toList ++ rest) = command.name.toList := by
  have hname : firstWord command.name.toList = command.name.toList := by
    cases command <;> decide
  cases rest with
  | nil => rw [List.append_nil, hname]
  | cons b rest => rw [firstWord_append_blank (hrest b rfl), hname]

/-- A command is read off a text exactly if it is the first word. -/
theorem afterCommand?_eq (command : Command) (body : List Char) :
    afterCommand? command body =
      if firstWord body = command.name.toList
      then some (body.dropWhile fun c => !Text.isBlank c) else none := by
  have hbody := firstWord_append_dropWhile body
  rw [afterCommand?]
  by_cases hprefix : command.name.toList <+: body
  · obtain ⟨rest, rfl⟩ := hprefix
    rw [if_pos (by simp), List.drop_left]
    by_cases hword : firstWord (command.name.toList ++ rest) = command.name.toList
    · rw [hword, List.append_right_inj] at hbody
      rw [if_pos hword, hbody]
      cases rest with
      | nil => rfl
      | cons c cs =>
          have hblank := List.head?_dropWhile_not (fun c => !Text.isBlank c)
            (command.name.toList ++ c :: cs)
          rw [hbody] at hblank
          exact if_pos (by simpa using hblank)
    · rw [if_neg hword]
      cases rest with
      | nil => exact absurd (firstWord_name_append command (by simp)) hword
      | cons c cs =>
          refine if_neg fun hblank => hword (firstWord_name_append command fun b hb => ?_)
          rwa [← Option.some.inj hb]
  · have hne : firstWord body ≠ command.name.toList := fun h => hprefix ⟨_, by rw [← h, hbody]⟩
    rw [if_neg (by simpa using hprefix), if_neg hne]

/-- What a text asks for: the command is its first word, the names are in the rest of its body. -/
theorem parse?_eq (text : String) :
    parse? text =
      let (body, description) := cutDescription (Text.trim text.toList)
      (commands.find? fun command => firstWord body = command.name.toList).map fun command =>
        ⟨command, listedRules (body.dropWhile fun c => !Text.isBlank c),
          description.map String.ofList⟩ := by
  rw [parse?]
  rcases cutDescription (Text.trim text.toList) with ⟨body, description⟩
  dsimp only
  induction commands with
  | nil => rfl
  | cons command rest ih =>
      rw [List.findSome?_cons, List.find?_cons, afterCommand?_eq, ih]
      by_cases hword : firstWord body = command.name.toList
      · simp [hword]
      · simp [hword]

/-! ### The description -/

theorem startsBlank_of_append {front : List Char} {x : Char} {rest : List Char}
    (h : startsBlank (front ++ x :: rest)) : startsBlank front := by
  cases front with
  | nil => rfl
  | cons c cs => exact h

/-- What follows a text that has no run of dashes alone is split by itself. -/
theorem splitDashes_append {previous : Option Char} {front : List Char} {x : Char} (hx : x ≠ '-')
    (h : splitDashes previous front = none) (rest : List Char) :
    splitDashes previous (front ++ x :: rest) =
      (splitDashes (some x) rest).map fun (head, tail) => (front ++ x :: head, tail) := by
  induction front generalizing previous with
  | nil => simp [splitDashes, hx]
  | cons c cs ih =>
      rw [splitDashes] at h
      split at h
      case isTrue => cases h
      case isFalse hrun =>
          have hx' : ¬(x == '-') = true := by simpa using hx
          have htake := takeWhile_append_cons (p := (· == '-')) hx' (c :: cs) rest
          have hdrop := dropWhile_append_cons (p := (· == '-')) hx' (c :: cs) rest
          rw [List.cons_append] at htake hdrop
          have hnone : splitDashes (some c) cs = none := Option.map_eq_none_iff.mp h
          rw [List.cons_append, splitDashes, htake, hdrop, if_neg, ih hnone, Option.map_map]
          · rfl
          · exact fun ⟨hlength, hprevious, hblank⟩ =>
              hrun ⟨hlength, hprevious, startsBlank_of_append hblank⟩

theorem splitDashes_eq_some {previous : Option Char} {cs head tail : List Char}
    (h : splitDashes previous cs = some (head, tail)) :
    (∃ more, cs = head ++ more) ∧
      ∃ b ∈ head.getLast?.or previous, Text.isAsciiBlank b := by
  induction cs generalizing previous head with
  | nil => cases h
  | cons c cs ih =>
      rw [splitDashes] at h
      split at h
      case isTrue hrun =>
          obtain ⟨rfl, -⟩ := Prod.mk.inj (Option.some.inj h)
          cases previous with
          | none => cases hrun.2.1
          | some b => exact ⟨⟨_, rfl⟩, b, rfl, hrun.2.1⟩
      case isFalse =>
          obtain ⟨⟨head', tail'⟩, hsplit, hparts⟩ := Option.map_eq_some_iff.mp h
          obtain ⟨rfl, rfl⟩ := Prod.mk.inj hparts
          obtain ⟨⟨more, rfl⟩, b, hb, hblank⟩ := ih hsplit
          refine ⟨⟨more, rfl⟩, b, ?_, hblank⟩
          cases head' with
          | nil => exact hb
          | cons d ds => rwa [List.getLast?_cons_cons]

theorem firstWord_cutDescription (cs : List Char) :
    firstWord (cutDescription cs).1 = firstWord cs := by
  rw [cutDescription]
  cases hsplit : splitDashes none cs with
  | none => rfl
  | some parts =>
      obtain ⟨head, tail⟩ := parts
      obtain ⟨⟨more, rfl⟩, b, hb, hblank⟩ := splitDashes_eq_some hsplit
      rw [Option.or_none] at hb
      obtain ⟨kept, rfl⟩ := List.getLast?_eq_some_iff.mp hb
      rw [firstWord_trimRight, List.append_assoc, List.singleton_append,
        firstWord_append_blank (Text.isBlank_of_isAsciiBlank hblank),
        firstWord_append_blank (Text.isBlank_of_isAsciiBlank hblank)]

/-! ### The names -/

/-- A token that would be read as the start of a description if it stood alone. -/
def IsDashRun (token : List Char) : Prop :=
  2 ≤ token.length ∧ token.all (· == '-')

instance : DecidablePred IsDashRun :=
  fun token => inferInstanceAs (Decidable (2 ≤ token.length ∧ token.all (· == '-')))

structure IsTrimmed (text : String) : Prop where
  nonempty : text ≠ ""
  trimmed : Text.trim text.toList = text.toList

/--
A name that can be listed in a directive. Its tokens are what ASCII blanks delimit: no other blank
makes dashes stand alone, so a name with dashes next to another blank can be listed too.
-/
structure IsListable (name : String) : Prop extends IsTrimmed name where
  noComma : ',' ∉ name.toList
  noRun : ∀ token ∈ name.toList.splitOnP Text.isAsciiBlank, ¬IsDashRun token

/-- The dashes at the head of a text are its first token if a blank or nothing follows them. -/
theorem mem_head?_splitOnP {cs : List Char} (h : startsBlank (cs.dropWhile (· == '-'))) :
    cs.takeWhile (· == '-') ∈ (cs.splitOnP Text.isAsciiBlank).head? := by
  have hdash (c : Char) (hc : c ∈ cs.takeWhile (· == '-')) : Text.isAsciiBlank c = false := by
    have hc : c = '-' := by simpa using List.mem_takeWhile_imp hc
    rw [hc]
    decide
  have hcs : cs.takeWhile (· == '-') ++ cs.dropWhile (· == '-') = cs :=
    List.takeWhile_append_dropWhile
  generalize cs.takeWhile (· == '-') = run at hdash hcs ⊢
  generalize cs.dropWhile (· == '-') = rest at h hcs
  subst hcs
  cases rest with
  | nil => rw [List.append_nil, List.splitOnP_eq_singleton hdash]; rfl
  | cons b rest => rw [List.splitOnP_append_cons_of_forall_mem hdash b h]; rfl

theorem splitDashes_eq_none {previous : Option Char} {cs : List Char}
    (hhead : (previous.map Text.isAsciiBlank).getD false →
      ∀ token ∈ (cs.splitOnP Text.isAsciiBlank).head?, ¬IsDashRun token)
    (htail : ∀ token ∈ (cs.splitOnP Text.isAsciiBlank).tail, ¬IsDashRun token) :
    splitDashes previous cs = none := by
  induction cs generalizing previous with
  | nil => rfl
  | cons c cs ih =>
      rw [splitDashes, if_neg, ih, Option.map_none]
      · intro hc token htoken
        have hc' : Text.isAsciiBlank c = true := hc
        rw [List.splitOnP_cons_eq_if_modifyHead, if_pos hc'] at htail
        exact htail token (List.mem_of_mem_head? htoken)
      · rw [List.splitOnP_cons_eq_if_modifyHead] at htail
        split at htail
        case isTrue => exact fun token htoken => htail token (List.mem_of_mem_tail htoken)
        case isFalse => rwa [List.tail_modifyHead] at htail
      · rintro ⟨hlength, hprevious, hblank⟩
        exact hhead hprevious _ (mem_head?_splitOnP hblank)
          ⟨hlength, List.all_takeWhile⟩

theorem splitDashes_intercalate {names : List (List Char)}
    (h : ∀ name ∈ names, ∀ previous, splitDashes previous name = none) (previous : Option Char) :
    splitDashes previous ([',', ' '].intercalate names) = none := by
  induction names generalizing previous with
  | nil => rfl
  | cons name names ih =>
      have hname := h name List.mem_cons_self
      cases names with
      | nil => rw [List.intercalate_singleton, hname]
      | cons next names =>
          have hrest := ih fun name hmem => h name (List.mem_cons_of_mem _ hmem)
          have hspace := splitDashes_append (by decide : ' ' ≠ '-')
            (rfl : splitDashes (some ',') [] = none) ([',', ' '].intercalate (next :: names))
          have hcomma := splitDashes_append (by decide : ',' ≠ '-') (hname previous)
            (' ' :: [',', ' '].intercalate (next :: names))
          rw [List.nil_append, hrest] at hspace
          rw [List.intercalate_cons_cons, List.append_assoc]
          rw [hspace] at hcomma
          exact hcomma

theorem IsListable.splitDashes_eq_none {name : String} (h : IsListable name)
    (previous : Option Char) : splitDashes previous name.toList = none :=
  Directive.splitDashes_eq_none (fun _ token htoken => h.noRun token (List.mem_of_mem_head? htoken))
    fun token htoken => h.noRun token (List.mem_of_mem_tail htoken)

theorem exists_intercalate_eq_append {names : List (List Char)} (h : names ≠ []) :
    ∃ front, ∃ name ∈ names, [',', ' '].intercalate names = front ++ name := by
  induction names with
  | nil => exact absurd rfl h
  | cons name names ih =>
      cases names with
      | nil => exact ⟨[], name, by simp⟩
      | cons next names =>
          obtain ⟨front, last, hlast, happ⟩ := ih (List.cons_ne_nil _ _)
          refine ⟨name ++ [',', ' '] ++ front, last, List.mem_cons_of_mem _ hlast, ?_⟩
          rw [List.intercalate_cons_cons, happ, List.append_assoc, List.append_assoc,
            List.append_assoc]

def joined (names : List String) : List Char :=
  [',', ' '].intercalate (names.map String.toList)

/-- A list of names ends like its last name, not in a blank. -/
theorem getLast?_joined {names : List String} (h : ∀ name ∈ names, IsListable name)
    (hne : names ≠ []) : ∃ c ∈ (joined names).getLast?, ¬Text.isBlank c := by
  have hlists : names.map String.toList ≠ [] := by simpa using hne
  obtain ⟨front, _, hlast, happ⟩ := exists_intercalate_eq_append hlists
  obtain ⟨name, hname, rfl⟩ := List.mem_map.mp hlast
  have hname := h name hname
  have hnonempty : name.toList ≠ [] := by simpa using hname.nonempty
  refine ⟨name.toList.getLast hnonempty, ?_, ?_⟩
  · rw [joined, happ, List.getLast?_append_of_ne_nil _ hnonempty]
    exact List.getLast?_eq_some_getLast hnonempty
  · exact (Text.trim_eq_self_iff.mp hname.trimmed).2 _ (List.getLast?_eq_some_getLast hnonempty)

theorem splitCommas_eq_splitOn (cs : List Char) : splitCommas cs = cs.splitOn ',' := by
  induction cs with
  | nil => rfl
  | cons c cs ih =>
      rw [splitCommas, List.splitOn_cons_eq_if_modifyHead, ih]
      by_cases hc : c = ','
      · simp [hc]
      · rw [if_neg hc, if_neg (by simpa using hc)]
        cases hrest : cs.splitOn ',' with
        | nil => exact absurd hrest (List.splitOn_ne_nil _ _)
        | cons s ss => rfl

theorem cons_intercalate {names : List (List Char)} (h : names ≠ []) :
    ' ' :: [',', ' '].intercalate names = [','].intercalate (names.map (' ' :: ·)) := by
  induction names with
  | nil => exact absurd rfl h
  | cons name names ih =>
      cases names with
      | nil => simp
      | cons next names =>
          have hrest := ih (List.cons_ne_nil _ _)
          simp only [List.map_cons] at hrest
          simp only [List.map_cons, List.intercalate_cons_cons, ← hrest]
          simp

/-- Names are read back from a list of them as they were. -/
theorem listedRules_joined {names : List String} (h : ∀ name ∈ names, IsListable name)
    (hne : names ≠ []) : listedRules (' ' :: joined names) = names := by
  have hcomma : ∀ entry ∈ (names.map String.toList).map (' ' :: ·), ',' ∉ entry := by
    simp only [List.map_map, List.mem_map]
    rintro _ ⟨name, hname, rfl⟩
    simpa using (h name hname).noComma
  rw [listedRules, splitCommas_eq_splitOn, joined, cons_intercalate (by simpa using hne),
    List.splitOn_intercalate ',' hcomma (by simpa using hne), List.map_map, List.map_map,
    List.filterMap_map]
  refine (List.filterMap_congr fun name hname => ?_).trans List.filterMap_some
  have htrim : Text.trim (' ' :: name.toList) = name.toList := (h name hname).trimmed
  simp [htrim, (h name hname).nonempty]

/-! ### Directives as they are written -/

/-- The end of a directive that a description makes. -/
def describe : Option String → String
  | none => ""
  | some description => " -- " ++ description

theorem cutDescription_describe {front : List Char} {description : Option String}
    (hhead : ∃ c ∈ front.head?, ¬Text.isBlank c) (hfront : splitDashes none front = none)
    (hbody : splitDashes none (Text.trimRight front) = none)
    (hdescription : ∀ d ∈ description, IsTrimmed d) :
    cutDescription (Text.trim (front ++ (describe description).toList)) =
      (Text.trimRight front, description.map String.toList) := by
  obtain ⟨c, hc, hblank⟩ := hhead
  have hne : front ≠ [] := fun h => by rw [h] at hc; cases hc
  cases description with
  | none =>
      have hleft : Text.trimLeft front = front :=
        Text.trimLeft_eq_self_iff.mpr fun d hd => by rwa [Option.mem_unique hd hc]
      rw [describe, String.toList_empty, List.append_nil, Text.trim, hleft, cutDescription, hbody]
      rfl
  | some d =>
      obtain ⟨hd, htrim⟩ := hdescription d rfl
      have hlist : (describe (some d)).toList = ' ' :: '-' :: '-' :: ' ' :: d.toList :=
        String.toList_append
      have hwhole : Text.trim (front ++ ' ' :: '-' :: '-' :: ' ' :: d.toList) =
          front ++ ' ' :: '-' :: '-' :: ' ' :: d.toList := by
        refine Text.trim_eq_self_iff.mpr ⟨fun e he => ?_, fun e he => ?_⟩
        · rw [List.head?_append_of_ne_nil _ hne] at he
          rwa [Option.mem_unique he hc]
        · refine (Text.trim_eq_self_iff.mp htrim).2 e ?_
          have hd' : d.toList ≠ [] := by simpa using hd
          rwa [show front ++ ' ' :: '-' :: '-' :: ' ' :: d.toList =
            (front ++ [' ', '-', '-', ' ']) ++ d.toList by simp,
            List.getLast?_append_of_ne_nil _ hd'] at he
      have hrun : splitDashes (some ' ') ('-' :: '-' :: ' ' :: d.toList) =
          some ([], ' ' :: d.toList) := rfl
      have htail : Text.trim (' ' :: d.toList) = d.toList := htrim
      have hsplit := splitDashes_append (by decide : ' ' ≠ '-') hfront
        ('-' :: '-' :: ' ' :: d.toList)
      rw [hrun] at hsplit
      rw [hlist, hwhole, cutDescription, hsplit]
      simp [htail, hd, Text.trimRight_append_blank (by decide : Text.isBlank ' ')]

theorem parse?_append_describe (command : Command) {gap rest : List Char}
    {description : Option String}
    (hgap : splitDashes none (command.name.toList ++ gap) = none)
    (hrest : splitDashes none (command.name.toList ++ rest) = none)
    (htrim : Text.trimRight (command.name.toList ++ gap) = command.name.toList ++ rest)
    (hblank : ∀ c ∈ rest.head?, Text.isBlank c)
    (hdescription : ∀ d ∈ description, IsTrimmed d) {text : String}
    (htext : text.toList = command.name.toList ++ gap ++ (describe description).toList) :
    parse? text = some ⟨command, listedRules rest, description⟩ := by
  have hhead : ∃ c ∈ (command.name.toList ++ gap).head?, ¬Text.isBlank c :=
    ⟨'s', by cases command <;> rfl, by decide⟩
  have hfind : commands.find? (fun command' => command.name.toList = command'.name.toList) =
      some command := by cases command <;> decide
  rw [parse?_eq, htext, cutDescription_describe hhead hgap (htrim ▸ hrest) hdescription, htrim]
  dsimp only
  have hword := firstWord_name_append command hblank
  have hdrop : (command.name.toList ++ rest).dropWhile (fun c => !Text.isBlank c) = rest := by
    have hbody := firstWord_append_dropWhile (command.name.toList ++ rest)
    rwa [hword, List.append_right_inj] at hbody
  rw [hword, hfind, hdrop]
  cases description <;> simp

/-- The command of a text is the one that its first word names, if it names one. -/
theorem command_parse? (text : String) :
    (parse? text).map Directive.command = commands.find? fun command =>
      firstWord (Text.trimLeft text.toList) = command.name.toList := by
  have hword : firstWord (cutDescription (Text.trim text.toList)).1 =
      firstWord (Text.trimLeft text.toList) := by
    rw [firstWord_cutDescription, Text.trim, firstWord_trimRight]
  rw [parse?_eq, ← hword]
  rcases cutDescription (Text.trim text.toList) with ⟨body, description⟩
  dsimp only
  rw [Option.map_map]
  exact Option.map_id'

section Written

variable (command : Command) {description : Option String}

theorem splitDashes_name : splitDashes none command.name.toList = none := by
  cases command <;> decide

theorem trimRight_name : Text.trimRight command.name.toList = command.name.toList := by
  cases command <;> decide

theorem parse?_bare (hdescription : ∀ d ∈ description, IsTrimmed d)
    {gap : List Char} (hgap : gap = [] ∨ gap = [' ']) {text : String}
    (htext : text.toList = command.name.toList ++ gap ++ (describe description).toList) :
    parse? text = some ⟨command, [], description⟩ := by
  have hname := splitDashes_name command
  have hbare : splitDashes none (command.name.toList ++ []) = none := by rwa [List.append_nil]
  refine parse?_append_describe command ?_ hbare ?_ nofun hdescription htext
  · rcases hgap with rfl | rfl
    · exact hbare
    · exact splitDashes_append (by decide : ' ' ≠ '-') hname []
  · rcases hgap with rfl | rfl
    · rw [List.append_nil, trimRight_name]
    · rw [Text.trimRight_append_blank (by decide), trimRight_name, List.append_nil]

theorem parse?_listed {names : List String} (hnames : ∀ name ∈ names, IsListable name)
    (hne : names ≠ []) (hdescription : ∀ d ∈ description, IsTrimmed d) {text : String}
    (htext : text.toList =
      command.name.toList ++ ' ' :: joined names ++ (describe description).toList) :
    parse? text = some ⟨command, names, description⟩ := by
  have hnone : ∀ name ∈ names.map String.toList, ∀ previous, splitDashes previous name = none := by
    intro _ hmem
    obtain ⟨name, hname, rfl⟩ := List.mem_map.mp hmem
    exact (hnames name hname).splitDashes_eq_none
  have hrun : splitDashes none (command.name.toList ++ ' ' :: joined names) = none := by
    rw [splitDashes_append (by decide : ' ' ≠ '-') (splitDashes_name command), joined,
      splitDashes_intercalate hnone]
    rfl
  have hlast : Text.trimRight (command.name.toList ++ ' ' :: joined names) =
      command.name.toList ++ ' ' :: joined names := by
    obtain ⟨c, hc, hblank⟩ := getLast?_joined hnames hne
    refine Text.trimRight_eq_self_iff.mpr fun d hd => ?_
    rw [List.append_cons, List.getLast?_append, Option.mem_def.mp hc] at hd
    rwa [← Option.some.inj hd]
  have hparse := parse?_append_describe command hrun hrun hlast
    (fun c hc => by rw [← Option.some.inj hc]; decide) hdescription htext
  rwa [listedRules_joined hnames hne] at hparse

end Written

/--
A directive is read back as it was written: the command, the names after a space, then the
description. A text whose first word is no command is no directive.
-/
theorem parse?_spec (command : Command) {names : List String}
    (hnames : ∀ name ∈ names, IsListable name) {description : Option String}
    (hdescription : ∀ d ∈ description, IsTrimmed d) :
    parse? (command.name ++ " " ++ ", ".intercalate names ++ describe description) =
        some ⟨command, names, description⟩ ∧
      parse? (command.name ++ describe description) = some ⟨command, [], description⟩ ∧
      ∀ text : String, (∀ command : Command,
        firstWord (Text.trimLeft text.toList) ≠ command.name.toList) → parse? text = none := by
  refine ⟨?_, parse?_bare command hdescription (.inl rfl) (by simp), fun text hword => ?_⟩
  · by_cases hne : names = []
    · subst hne
      exact parse?_bare command hdescription (.inr rfl) (by simp)
    · refine parse?_listed command hnames hne hdescription ?_
      simp [joined]
  · have hfind := command_parse? text
    rw [List.find?_eq_none.mpr fun command _ => by simpa using hword command] at hfind
    exact Option.map_eq_none_iff.mp hfind

theorem parse?_spec_dashed :
    (∀ name ∈ ["block--empty", "--x y"], IsListable name) ∧
      (∀ d ∈ some "why -- not, then", IsTrimmed d) ∧
      parse? (Command.disableLine.name ++ " " ++ ", ".intercalate ["block--empty", "--x y"] ++
          describe (some "why -- not, then")) =
        some ⟨.disableLine, ["block--empty", "--x y"], some "why -- not, then"⟩ ∧
      parse? (Command.disableLine.name ++ describe (some "why -- not, then")) =
        some ⟨.disableLine, [], some "why -- not, then"⟩ ∧
      ∀ text : String, (∀ command : Command,
        firstWord (Text.trimLeft text.toList) ≠ command.name.toList) → parse? text = none := by
  have hnames : ∀ name ∈ ["block--empty", "--x y"], IsListable name := by
    simp only [List.forall_mem_cons, List.not_mem_nil, false_implies, implies_true, and_true]
    constructor
    · exact ⟨⟨by decide, by decide⟩, by decide, by decide⟩
    · exact ⟨⟨by decide, by decide⟩, by decide, by decide⟩
  have hdescription : ∀ d ∈ some "why -- not, then", IsTrimmed d := by
    intro d hd
    rw [← Option.some.inj hd]
    exact ⟨by decide, by decide⟩
  exact ⟨hnames, hdescription, parse?_spec .disableLine hnames hdescription⟩

end Directive

end StyleAudit
