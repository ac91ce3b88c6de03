import StyleAudit.Proofs.Flags

/-!
What the report of a run shows.

A report is written piece by piece, and the warnings are counted on the way. The grouped report has
each note once, each input with a warning under a header that names it, and below it a line for each
of its warnings, by position. The other two have a line for each warning as they come. A line says
where the warning is, how severe it is, and what it says; two warnings with one line agree in this.
The counts at the end of a report are those of the run.
-/

namespace StyleAudit

namespace Summary

/-- Every warning of a run is counted, as an error or as a warning. -/
theorem errorCount_add_warningCount (results : List LintResult) :
    total LintResult.errorCount results + total LintResult.warningCount results =
      (results.flatMap LintResult.warnings).length := by
  have herrors : total LintResult.errorCount results = _ := total_count .error results
  have hwarnings : total LintResult.warningCount results = _ := total_count .warning results
  rw [herrors, hwarnings,
    List.length_eq_countP_add_countP fun w : Warning => w.severity == .error]
  congr 2
  funext w
  cases w.severity <;> rfl

theorem counts_eq_zero_iff {results : List LintResult} :
    total LintResult.errorCount results + total LintResult.warningCount results = 0 ↔
      ¬∃ r ∈ results, r.warnings ≠ [] := by
  rw [errorCount_add_warningCount, List.length_eq_zero_iff, List.flatMap_eq_nil_iff]
  simp

end Summary

namespace Formatter

/-! ### Notes -/

/-- Whether a list has each of the texts once, in the order of their first occurrences. -/
structure ListsOnce (texts listed : List String) : Prop where
  nodup : listed.Nodup
  mem_iff : ∀ text, text ∈ listed ↔ text ∈ texts
  ordered : listed.Pairwise fun a b => texts.idxOf a < texts.idxOf b

theorem mem_distinct {seen texts : List String} {text : String} :
    text ∈ distinct seen texts ↔ text ∈ texts ∧ text ∉ seen := by
  induction texts generalizing seen with
  | nil => simp [distinct]
  | cons x xs ih =>
      rw [distinct]
      split
      case isTrue hseen =>
          have hx : x ∈ seen := by simpa using hseen
          rw [ih, List.mem_cons]
          constructor
          · exact fun ⟨hmem, hnot⟩ => ⟨.inr hmem, hnot⟩
          · rintro ⟨rfl | hmem, hnot⟩
            · exact absurd hx hnot
            · exact ⟨hmem, hnot⟩
      case isFalse hseen =>
          have hx : x ∉ seen := by simpa using hseen
          rw [List.mem_cons, ih, List.mem_cons, List.mem_cons]
          by_cases heq : text = x
          · simp [heq, hx]
          · simp [heq]

theorem pairwise_distinct (seen texts : List String) :
    (distinct seen texts).Pairwise fun a b => texts.idxOf a < texts.idxOf b := by
  induction texts generalizing seen with
  | nil => exact .nil
  | cons x xs ih =>
      -- Behind its first occurrence a text moves on by one place, and it is not `x`.
      have hshift {seen : List String} (hx : x ∈ seen) :
          (distinct seen xs).Pairwise fun a b => (x :: xs).idxOf a < (x :: xs).idxOf b := by
        refine (ih seen).imp_of_mem fun ha hb hless => ?_
        have hne {text : String} (hmem : text ∈ distinct seen xs) : x ≠ text :=
          fun h => (mem_distinct.mp hmem).2 (h ▸ hx)
        rw [List.idxOf_cons_ne _ (hne ha), List.idxOf_cons_ne _ (hne hb)]
        exact Nat.succ_lt_succ hless
      rw [distinct]
      split
      case isTrue hseen => exact hshift (by simpa using hseen)
      case isFalse =>
          refine .cons (fun text hmem => ?_) (hshift List.mem_cons_self)
          have hne : x ≠ text := fun h => (mem_distinct.mp hmem).2 (h ▸ List.mem_cons_self)
          rw [List.idxOf_cons_self, List.idxOf_cons_ne _ hne]
          exact Nat.succ_pos _

theorem listsOnce_distinct (texts : List String) : ListsOnce texts (distinct [] texts) where
  nodup := (pairwise_distinct [] texts).imp fun hless heq => by
    rw [heq] at hless
    exact Nat.lt_irrefl _ hless
  mem_iff _ := mem_distinct.trans (and_iff_left List.not_mem_nil)
  ordered := pairwise_distinct [] texts

/-- A section of notes: a heading and an item for each note, or nothing without notes. -/
def noteSection (heading : String) (listed : List String) : String :=
  if listed = [] then ""
  else "\n" ++ heading ++ "\n" ++ String.join (listed.map fun text => " - " ++ text ++ "\n")

theorem notesUnder_eq (heading : String) (notes : List String) :
    notesUnder heading notes = noteSection heading (distinct [] notes) := by
  rw [notesUnder, noteSection]
  cases notes with
  | nil => rfl
  | cons note notes =>
      have hne : distinct [] (note :: notes) ≠ [] := List.ne_nil_of_mem
        (mem_distinct.mpr ⟨List.mem_cons_self, List.not_mem_nil⟩)
      rw [if_neg hne]
      rfl

/-! ### Warnings by position -/

/-- Whether a list has the given warnings by position, and those at one position as they came. -/
structure SortsStably (given sorted : List Warning) : Prop where
  perm : sorted.Perm given
  ordered : sorted.Pairwise fun a b => a.line < b.line ∨ a.line = b.line ∧ a.column ≤ b.column
  stable : ∀ p : Position, (sorted.filter fun w => w.position = p) =
    given.filter fun w => w.position = p

theorem notAfter_iff {a b : Warning} :
    notAfter a b ↔ a.line < b.line ∨ a.line = b.line ∧ a.column ≤ b.column := by
  simp [notAfter]

theorem notAfter_trans (a b c : Warning) (hab : notAfter a b) (hbc : notAfter b c) :
    notAfter a c := by
  rw [notAfter_iff] at *
  omega

theorem notAfter_total (a b : Warning) : notAfter a b || notAfter b a := by
  rw [Bool.or_eq_true, notAfter_iff, notAfter_iff]
  omega

theorem sortsStably_mergeSort (ws : List Warning) : SortsStably ws (ws.mergeSort notAfter) where
  perm := List.mergeSort_perm ws notAfter
  ordered := (List.pairwise_mergeSort notAfter_trans notAfter_total ws).imp notAfter_iff.mp
  stable p := by
    have hperm := (List.mergeSort_perm ws notAfter).filter fun w => w.position = p
    -- Warnings at one position are sorted as they stand, so that the sorting keeps their order.
    have hsame : (ws.filter fun w => w.position = p).Pairwise fun a b => notAfter a b := by
      refine List.pairwise_of_forall_mem_list fun a ha b hb => ?_
      have ha : a.position = p := by simpa using List.of_mem_filter ha
      have hb : b.position = p := by simpa using List.of_mem_filter hb
      have heq := Position.mk.inj (ha.trans hb.symm)
      exact notAfter_iff.mpr (.inr ⟨heq.1, Nat.le_of_eq heq.2⟩)
    have hsub := (List.sublist_mergeSort notAfter_trans notAfter_total hsame
      List.filter_sublist).filter fun w => w.position = p
    rw [List.filter_filter] at hsub
    simp only [Bool.and_self] at hsub
    exact (hsub.eq_of_length hperm.length_eq.symm).symm

/-! ### What a line says -/

/-- Whether a text is a line with some texts in it: it is not empty, it ends with a newline, and it
has no other one that does not stand in these texts. -/
def IsLineWith (texts : List String) (line : String) : Prop :=
  ∃ body : String, body ≠ "" ∧ line = body ++ "\n" ∧
    ('\n' ∈ body.toList → ∃ text ∈ texts, '\n' ∈ text.toList)

/-- What is said of a warning beside its rule: its text, without the rule in parentheses behind. -/
inductive Says (w : Warning) : String → Prop
  | short {message : String} (h : w.text = message ++ (" (" ++ w.rule ++ ")")) : Says w message
  | whole (h : ∀ message, w.text ≠ message ++ (" (" ++ w.rule ++ ")")) : Says w w.text

/-- Whether a text is the line of a warning below the header of its input. -/
structure IsGroupedLine (w : Warning) (line : String) : Prop where
  shows : ∃ message, Says w message ∧
    line = "  " ++ toString w.line ++ ":" ++ toString w.column ++ "  " ++
      (if w.severity = .error then "✖" else "⚠") ++ "  " ++ message ++ "  " ++ w.rule ++ "\n"
  single : IsLineWith [w.text, w.rule] line

/-- Whether a text is the header above the warnings of an input: a line with its source, from the
working directory if it lies below that. -/
structure IsHeader (cwd : String) (r : LintResult) (header : String) : Prop where
  below {path relative : String} (h : r.source = some path)
    (hbelow : Path.stripPrefix? path cwd = some relative) : header = "\n" ++ relative ++ "\n"
  elsewhere {path : String} (h : r.source = some path)
    (hout : Path.stripPrefix? path cwd = none) : header = "\n" ++ path ++ "\n"
  unnamed (h : r.source = none) : header = "\n<input css>\n"

/-- Whether a text is the line of a warning in the compact report. -/
structure IsCompactLine (r : LintResult) (w : Warning) (line : String) : Prop where
  shows : line = r.source.getD "<input css>" ++ ": line " ++ toString w.line ++ ", col " ++
    toString w.column ++ ", " ++ (if w.severity = .error then "error" else "warning") ++ " - " ++
    w.text ++ "\n"
  single : IsLineWith [r.source.getD "<input css>", w.text] line

/-- Whether a text is the line of a warning in the report of lines. -/
structure IsUnixLine (r : LintResult) (w : Warning) (line : String) : Prop where
  shows : line = r.source.getD "<input css>" ++ ":" ++ toString w.line ++ ":" ++
    toString w.column ++ ": " ++ w.text ++ " [" ++
    (if w.severity = .error then "error" else "warning") ++ "]\n"
  single : IsLineWith [r.source.getD "<input css>", w.text] line

/-- A tail is dropped from a text that ends with it. -/
theorem dropTail_append (tail message : String) : dropTail tail (message ++ tail) = message := by
  have hends : tail.toList.isSuffixOf (message ++ tail).toList = true := by
    simp [List.isSuffixOf_iff_suffix]
  rw [dropTail, if_pos hends, String.toList_append, List.length_append, Nat.add_sub_cancel,
    List.take_left, String.ofList_toList]

theorem dropTail_of_ne {tail text : String} (h : ∀ message, text ≠ message ++ tail) :
    dropTail tail text = text := by
  refine if_neg fun hends => ?_
  obtain ⟨front, hfront⟩ := List.isSuffixOf_iff_suffix.mp hends
  refine h (String.ofList front) (String.toList_inj.mp ?_)
  rw [String.toList_append, String.toList_ofList, hfront]

theorem says_dropTail (w : Warning) : Says w (dropTail (" (" ++ w.rule ++ ")") w.text) := by
  by_cases h : ∃ message, w.text = message ++ (" (" ++ w.rule ++ ")")
  · obtain ⟨message, htext⟩ := h
    rw [htext, dropTail_append]
    exact .short htext
  · have hwhole := not_exists.mp h
    rw [dropTail_of_ne hwhole]
    exact .whole hwhole

/-- Nothing is said of a warning that is not in its text. -/
theorem Says.subset {w : Warning} {message : String} (h : Says w message) :
    message.toList ⊆ w.text.toList := by
  cases h with
  | short htext =>
      rw [htext, String.toList_append]
      exact List.subset_append_left _ _
  | whole => exact List.Subset.refl _

theorem newline_notMem_toDigits (n : Nat) : '\n' ∉ Nat.toDigits 10 n := fun hmem =>
  absurd (Nat.isDigit_of_mem_toDigits (by decide) (by decide) hmem) (by decide)

theorem symbol_eq (severity : Severity) :
    symbol severity = if severity = .error then "✖" else "⚠" := by
  cases severity <;> rfl

theorem name_eq (severity : Severity) :
    severity.name = if severity = .error then "error" else "warning" := by
  cases severity <;> rfl

theorem isGroupedLine_groupedLine (w : Warning) : IsGroupedLine w (groupedLine w) where
  shows := ⟨_, says_dropTail w, symbol_eq w.severity ▸ rfl⟩
  single := by
    refine ⟨_, by simp, rfl, fun hmem => ?_⟩
    have hsymbol : '\n' ∉ (symbol w.severity).toList := by cases w.severity <;> decide
    have htold : '\n' ∈ (dropTail (" (" ++ w.rule ++ ")") w.text).toList ∨
        '\n' ∈ w.rule.toList := by
      simpa [newline_notMem_toDigits, hsymbol] using hmem
    rcases htold with hmessage | hrule
    · exact ⟨w.text, by simp, (says_dropTail w).subset hmessage⟩
    · exact ⟨w.rule, by simp, hrule⟩

theorem isHeader_groupedHeader (cwd : String) (r : LintResult) :
    IsHeader cwd r (groupedHeader cwd r) := by
  constructor
  · intro path relative h hbelow
    simp [groupedHeader, shownSourceFrom, h, hbelow]
  · intro path h hout
    simp [groupedHeader, shownSourceFrom, shownSource, h, hout]
  · intro h
    simp [groupedHeader, shownSourceFrom, shownSource, h, unnamedSource]

theorem isCompactLine_compactLine (r : LintResult) (w : Warning) :
    IsCompactLine r w (compactLine (shownSource r) w ++ "\n") where
  shows := by rw [compactLine, name_eq, shownSource, unnamedSource]
  single := by
    refine ⟨_, by simp [compactLine], rfl, fun hmem => ?_⟩
    have hname : '\n' ∉ w.severity.name.toList := by cases w.severity <;> decide
    simpa [compactLine, newline_notMem_toDigits, hname, shownSource, unnamedSource] using hmem

theorem isUnixLine_unixLine (r : LintResult) (w : Warning) :
    IsUnixLine r w (unixLine (shownSource r) w) where
  shows := by rw [unixLine, name_eq, shownSource, unnamedSource]
  single := by
    have hline : unixLine (shownSource r) w = (shownSource r ++ ":" ++ toString w.line ++ ":" ++
        toString w.column ++ ": " ++ w.text ++ " [" ++ w.severity.name ++ "]") ++ "\n" := by
      simp [unixLine, String.append_assoc]
    refine ⟨_, by simp, hline, fun hmem => ?_⟩
    have hname : '\n' ∉ w.severity.name.toList := by cases w.severity <;> decide
    simpa [newline_notMem_toDigits, hname, shownSource, unnamedSource] using hmem

/-- A number is read off a text where a mark follows it. -/
theorem eq_of_number {n m : Nat} {mark rest rest' : String} {c : Char} {cs : List Char}
    (hmark : mark.toList = c :: cs) (hc : c.isDigit = false)
    (h : toString n ++ (mark ++ rest) = toString m ++ (mark ++ rest')) : n = m ∧ rest = rest' := by
  have hread (n : Nat) (tail : List Char) :
      (Nat.toDigits 10 n ++ c :: tail).span Char.isDigit = (Nat.toDigits 10 n, c :: tail) := by
    have hdigits : ∀ d ∈ Nat.toDigits 10 n, d.isDigit = true :=
      fun d hd => Nat.isDigit_of_mem_toDigits (by decide) (by decide) hd
    rw [List.span_eq_takeWhile_dropWhile, List.takeWhile_append_of_pos hdigits,
      List.dropWhile_append_of_pos hdigits]
    simp [hc]
  have hchars := congrArg String.toList h
  simp only [String.toList_append, Nat.toString_eq_repr, Nat.toList_repr, hmark,
    List.cons_append] at hchars
  have hspan := congrArg (List.span Char.isDigit) hchars
  rw [hread, hread] at hspan
  obtain ⟨hdigits, hrest⟩ := Prod.mk.inj hspan
  have hnumber := congrArg (Nat.ofDigitChars 10 · 0) hdigits
  rw [Nat.ofDigitChars_ten_toDigits, Nat.ofDigitChars_ten_toDigits] at hnumber
  exact ⟨hnumber, String.toList_inj.mp (List.append_cancel_left (List.cons.inj hrest).2)⟩

/-- A severity is read off by the first character of what stands for it. -/
theorem eq_of_severity {v w : Severity} {error warning rest rest' : String} {c d : Char}
    {cs ds : List Char} (herror : error.toList = c :: cs) (hwarning : warning.toList = d :: ds)
    (hne : c ≠ d)
    (h : (if v = .error then error else warning) ++ rest =
      (if w = .error then error else warning) ++ rest') : v = w ∧ rest = rest' := by
  have hapart (x y : String) : error ++ x ≠ warning ++ y := by
    intro heq
    have hchars := congrArg String.toList heq
    rw [String.toList_append, String.toList_append, herror, hwarning] at hchars
    exact hne (List.cons.inj hchars).1
  cases v <;> cases w
  · exact ⟨rfl, (String.append_right_inj _).mp h⟩
  · exact absurd h (hapart _ _)
  · exact absurd h.symm (hapart _ _)
  · exact ⟨rfl, (String.append_right_inj _).mp h⟩

/-- Warnings with the same line are at the same position, and equally severe. -/
theorem IsGroupedLine.agree {v w : Warning} {line : String} (hv : IsGroupedLine v line)
    (hw : IsGroupedLine w line) : v.position = w.position ∧ v.severity = w.severity := by
  obtain ⟨said, -, hline⟩ := hv.shows
  obtain ⟨said', -, hline'⟩ := hw.shows
  have h := hline.symm.trans hline'
  simp only [String.append_assoc, String.append_right_inj] at h
  obtain ⟨hposition, h⟩ := eq_of_number rfl rfl h
  obtain ⟨hcolumn, h⟩ := eq_of_number rfl rfl h
  obtain ⟨hseverity, -⟩ := eq_of_severity rfl rfl (by decide) h
  exact ⟨by rw [Warning.position, Warning.position, hposition, hcolumn], hseverity⟩

/-- Warnings of one input with the same line have the same position, severity and text. -/
theorem IsCompactLine.agree {r : LintResult} {v w : Warning} {line : String}
    (hv : IsCompactLine r v line) (hw : IsCompactLine r w line) :
    v.position = w.position ∧ v.severity = w.severity ∧ v.text = w.text := by
  have h := hv.shows.symm.trans hw.shows
  simp only [String.append_assoc, String.append_right_inj] at h
  obtain ⟨hposition, h⟩ := eq_of_number rfl rfl h
  obtain ⟨hcolumn, h⟩ := eq_of_number rfl rfl h
  obtain ⟨hseverity, h⟩ := eq_of_severity rfl rfl (by decide) h
  rw [String.append_right_inj, String.append_left_inj] at h
  exact ⟨by rw [Warning.position, Warning.position, hposition, hcolumn], hseverity, h⟩

theorem IsUnixLine.agree {r : LintResult} {v w : Warning} {line : String}
    (hv : IsUnixLine r v line) (hw : IsUnixLine r w line) :
    v.position = w.position ∧ v.severity = w.severity ∧ v.text = w.text := by
  have h := hv.shows.symm.trans hw.shows
  simp only [String.append_assoc, String.append_right_inj] at h
  obtain ⟨hposition, h⟩ := eq_of_number rfl rfl h
  obtain ⟨hcolumn, h⟩ := eq_of_number rfl rfl h
  rw [Warning.position, Warning.position, hposition, hcolumn]
  -- The severity is read off from the end, as the text may hold whatever it likes.
  have hends := congrArg (fun text => text.toList.reverse) h
  cases hleft : v.severity <;> cases hright : w.severity
  all_goals simp [hleft, hright] at h hends
  · exact ⟨rfl, rfl, h⟩
  · exact ⟨rfl, rfl, h⟩

/-! ### The grouped report -/

/-- An input of a grouped report: its header, its warnings as they are listed, and their lines. -/
structure Group where
  result : LintResult
  header : String
  warnings : List Warning
  lines : List String

/-- Whether a group has a header for its input, and a line for each of its warnings, by position. -/
structure Group.Shows (group : Group) (cwd : String) : Prop where
  header : IsHeader cwd group.result group.header
  sorted : SortsStably group.result.warnings group.warnings
  lines : List.Forall₂ IsGroupedLine group.warnings group.lines

/-- What a grouped report has: notes, inputs with their warnings, and counts of both severities. -/
structure GroupedReport where
  deprecations : List String
  invalidOptions : List String
  groups : List Group
  counts : Option (Nat × Nat)

def counted (count : Nat) (word : String) : String :=
  toString count ++ " " ++ (if count = 1 then word else word ++ "s")

namespace GroupedReport

def groupText (group : Group) : String :=
  group.header ++ String.join group.lines

def countsText : Option (Nat × Nat) → String
  | none => ""
  | some (errors, warnings) =>
    "\n✖ " ++ counted (errors + warnings) "problem" ++ " (" ++ counted errors "error" ++ ", " ++
      counted warnings "warning" ++ ")\n"

def text (g : GroupedReport) : String :=
  noteSection "Deprecation warnings:" g.deprecations ++
    noteSection "Invalid Option:" g.invalidOptions ++
    String.join (g.groups.map groupText) ++ countsText g.counts

/-- Whether a report shows the results of a run and its counts, no less and no more. -/
structure Shows (g : GroupedReport) (results : List LintResult) (s : Summary) : Prop where
  deprecations :
    ListsOnce (results.flatMap fun r => r.deprecations.map (·.text)) g.deprecations
  invalidOptions : ListsOnce (results.flatMap LintResult.invalidOptions) g.invalidOptions
  groups : g.groups.map Group.result = results.filter fun r => r.warnings ≠ []
  lines : ∀ group ∈ g.groups, group.Shows s.cwd
  counts : g.counts =
    if ∃ r ∈ results, r.warnings ≠ [] then some (s.errorCount, s.warningCount) else none

def groupOf (cwd : String) (r : LintResult) : Group where
  result := r
  header := groupedHeader cwd r
  warnings := r.warnings.mergeSort notAfter
  lines := (r.warnings.mergeSort notAfter).map groupedLine

theorem shows_groupOf (cwd : String) (r : LintResult) : (groupOf cwd r).Shows cwd where
  header := isHeader_groupedHeader cwd r
  sorted := sortsStably_mergeSort r.warnings
  lines := List.forall₂_map_right_iff.2 (List.forall₂_same.2 fun w _ => isGroupedLine_groupedLine w)

def ofResults (cwd : String) (results : List LintResult) : GroupedReport where
  deprecations := distinct [] (results.flatMap fun r => r.deprecations.map (·.text))
  invalidOptions := distinct [] (results.flatMap LintResult.invalidOptions)
  groups := (results.filter fun r => r.warnings ≠ []).map (groupOf cwd)
  counts :=
    if ∃ r ∈ results, r.warnings ≠ [] then
      some (Summary.total LintResult.errorCount results,
        Summary.total LintResult.warningCount results)
    else none

theorem shows_ofResults (results : List LintResult) (maxWarnings : Option Nat) (cwd : String) :
    (ofResults cwd results).Shows results (Summary.ofResults results maxWarnings cwd) where
  deprecations := listsOnce_distinct _
  invalidOptions := listsOnce_distinct _
  groups := by simp [ofResults, groupOf, Function.comp_def]
  lines group hgroup := by
    obtain ⟨r, -, rfl⟩ := List.mem_map.mp hgroup
    exact shows_groupOf cwd r
  counts := rfl

end GroupedReport

theorem Grouped.foldl_addLine (g : Grouped) (ws : List Warning) :
    ws.foldl Grouped.addLine g =
      ⟨g.text ++ String.join (ws.map groupedLine),
        g.errors + ws.countP (·.severity == .error),
        g.warnings + ws.countP (·.severity == .warning)⟩ := by
  induction ws generalizing g with
  | nil => simp
  | cons w ws ih =>
      rw [List.foldl_cons, ih, addLine]
      cases hseverity : w.severity with
      | error => simp [hseverity, String.append_assoc, Nat.add_assoc, Nat.add_comm 1]
      | warning => simp [hseverity, String.append_assoc, Nat.add_assoc, Nat.add_comm 1]

/-- One input adds its group, if it has warnings, and to each count those of that severity. -/
theorem Grouped.addResult_eq (cwd : String) (g : Grouped) (r : LintResult) :
    g.addResult cwd r =
      ⟨g.text ++ String.join ((GroupedReport.ofResults cwd [r]).groups.map
          GroupedReport.groupText),
        g.errors + r.errorCount, g.warnings + r.warningCount⟩ := by
  rw [addResult, LintResult.errorCount, LintResult.warningCount, LintResult.count,
    LintResult.count, ← List.countP_eq_length_filter, ← List.countP_eq_length_filter]
  by_cases hempty : r.warnings = []
  · simp [hempty, GroupedReport.ofResults]
  · have hperm := List.mergeSort_perm r.warnings notAfter
    rw [if_neg (by simpa using hempty), foldl_addLine, hperm.countP_eq, hperm.countP_eq]
    simp [GroupedReport.ofResults, GroupedReport.groupOf, GroupedReport.groupText, hempty,
      String.append_assoc]

theorem Grouped.foldl_addResult (cwd : String) (g : Grouped) (results : List LintResult) :
    results.foldl (Grouped.addResult cwd) g =
      ⟨g.text ++ String.join ((GroupedReport.ofResults cwd results).groups.map
          GroupedReport.groupText),
        g.errors + Summary.total LintResult.errorCount results,
        g.warnings + Summary.total LintResult.warningCount results⟩ := by
  induction results generalizing g with
  | nil => simp [GroupedReport.ofResults, Summary.total]
  | cons r results ih =>
      have hgroups : (GroupedReport.ofResults cwd (r :: results)).groups =
          (GroupedReport.ofResults cwd [r]).groups ++
            (GroupedReport.ofResults cwd results).groups := by
        simp only [GroupedReport.ofResults, ← List.map_append, ← List.filter_append,
          List.singleton_append]
      rw [List.foldl_cons, ih, addResult_eq, hgroups, List.map_append, String.join_append,
        Summary.total, Summary.total, String.append_assoc, Nat.add_assoc, Nat.add_assoc]

theorem writeGrouped_eq (cwd : String) (results : List LintResult) :
    writeGrouped cwd results = (GroupedReport.ofResults cwd results).text := by
  have hcounts : groupedSummary (Summary.total LintResult.errorCount results)
      (Summary.total LintResult.warningCount results) =
        GroupedReport.countsText (GroupedReport.ofResults cwd results).counts := by
    rw [groupedSummary]
    by_cases hany : ∃ r ∈ results, r.warnings ≠ []
    · have hcounted := mt Summary.counts_eq_zero_iff.mp (not_not_intro hany)
      rw [if_neg hcounted, GroupedReport.ofResults, if_pos hany]
      simp only [GroupedReport.countsText, counted, plural, String.append_assoc]
    · rw [if_pos (Summary.counts_eq_zero_iff.mpr hany), GroupedReport.ofResults, if_neg hany]
      rfl
  rw [writeGrouped]
  simp only [Grouped.foldl_addResult, Nat.zero_add, notesUnder_eq, hcounts]
  rfl

/-! ### The reports of lines -/

/-- What the report of lines ends in, unless there are no warnings. -/
def totalText (total : Nat) : String :=
  "\n" ++ counted total "problem" ++ "\n"

/-- The warnings of results, each with its result, in the order in which they come. -/
def told (results : List LintResult) : List (LintResult × Warning) :=
  results.flatMap fun r => r.warnings.map fun w => (r, w)

theorem intercalate_append {sep : String} {texts : List String} (h : texts ≠ []) :
    sep.intercalate texts ++ sep = String.join (texts.map (· ++ sep)) := by
  induction texts with
  | nil => exact absurd rfl h
  | cons text texts ih =>
      by_cases hnil : texts = []
      · simp [hnil]
      · rw [String.intercalate_cons_of_ne_nil hnil, String.append_assoc, ih hnil, List.map_cons,
          String.join_cons]

theorem intercalate_ne_empty {sep : String} {texts : List String} (h : texts ≠ [])
    (htexts : ∀ text ∈ texts, text ≠ "") : sep.intercalate texts ≠ "" := by
  cases texts with
  | nil => exact absurd rfl h
  | cons text texts =>
      have htext := htexts text List.mem_cons_self
      by_cases hnil : texts = []
      · simpa [hnil] using htext
      · simp [String.intercalate_cons_of_ne_nil hnil, htext]

theorem writeCompact_eq (results : List LintResult) :
    writeCompact results = String.join
      ((told results).map fun (r, w) => compactLine (shownSource r) w ++ "\n") := by
  have hentries : results.flatMap (fun r => r.warnings.map (compactLine (shownSource r))) =
      (told results).map fun (r, w) => compactLine (shownSource r) w := by
    simp [told, List.map_flatMap, Function.comp_def]
  unfold writeCompact
  rw [hentries]
  dsimp only
  by_cases hnil : told results = []
  · rw [hnil]
    rfl
  · have hne : ((told results).map fun (r, w) => compactLine (shownSource r) w) ≠ [] := by
      simpa using hnil
    rw [if_neg (intercalate_ne_empty hne fun entry hentry => ?_), intercalate_append hne,
      List.map_map]
    · rfl
    · obtain ⟨⟨r, w⟩, -, rfl⟩ := List.mem_map.mp hentry
      simp [compactLine]

theorem foldl_addUnixLine (source : String) (written : String × Nat) (ws : List Warning) :
    ws.foldl (addUnixLine source) written =
      (written.1 ++ String.join (ws.map (unixLine source)), written.2 + ws.length) := by
  induction ws generalizing written with
  | nil => simp
  | cons w ws ih =>
      rw [List.foldl_cons, ih]
      simp [addUnixLine, String.append_assoc, Nat.add_assoc, Nat.add_comm 1]

theorem foldl_unixLines (written : String × Nat) (results : List LintResult) :
    results.foldl (fun written r => r.warnings.foldl (addUnixLine (shownSource r)) written)
        written =
      (written.1 ++ String.join ((told results).map fun (r, w) => unixLine (shownSource r) w),
        written.2 + (results.flatMap LintResult.warnings).length) := by
  induction results generalizing written with
  | nil => simp [told]
  | cons r results ih =>
      rw [List.foldl_cons, ih, foldl_addUnixLine]
      simp [told, String.append_assoc, Nat.add_assoc, Function.comp_def]

theorem writeLines_eq (results : List LintResult) :
    writeLines results =
      String.join ((told results).map fun (r, w) => unixLine (shownSource r) w) ++
      (if ∃ r ∈ results, r.warnings ≠ [] then
        totalText (Summary.total LintResult.errorCount results +
          Summary.total LintResult.warningCount results) else "") := by
  rw [writeLines, foldl_unixLines, ← Summary.errorCount_add_warningCount]
  dsimp only
  rw [String.empty_append, Nat.zero_add]
  by_cases hany : ∃ r ∈ results, r.warnings ≠ []
  · rw [if_neg (mt Summary.counts_eq_zero_iff.mp (not_not_intro hany)), if_pos hany]
    simp only [totalText, counted, plural, String.append_assoc]
  · rw [if_pos (Summary.counts_eq_zero_iff.mpr hany), if_neg hany, String.append_empty]

end Formatter

/--
The reports of a run have all that its results have, and end in the counts that the run comes to.
The grouped report has a header for each input with warnings, and sorts their lines by position; the
other two have a line for each warning as they come.
-/
theorem Aggregate.reports_ofResults (results : List LintResult) (maxWarnings : Option Nat)
    (cwd : String) :
    let run (formatter : Formatter) := ofResults results maxWarnings formatter cwd
    (∃ g : Formatter.GroupedReport, g.Shows results (run .grouped).toSummary ∧
        (run .grouped).report = g.text) ∧
      (∃ lines, List.Forall₂ (fun entry => Formatter.IsCompactLine entry.1 entry.2)
          (Formatter.told results) lines ∧ (run .compact).report = String.join lines) ∧
      ∃ lines, List.Forall₂ (fun entry => Formatter.IsUnixLine entry.1 entry.2)
          (Formatter.told results) lines ∧
        (run .lines).report = String.join lines ++
          (if ∃ r ∈ results, r.warnings ≠ [] then
            Formatter.totalText ((run .lines).errorCount + (run .lines).warningCount) else "") :=
  ⟨⟨_, Formatter.GroupedReport.shows_ofResults results maxWarnings cwd,
      Formatter.writeGrouped_eq cwd results⟩,
    ⟨_, List.forall₂_map_right_iff.2 (List.forall₂_same.2 fun entry _ =>
        Formatter.isCompactLine_compactLine entry.1 entry.2),
      Formatter.writeCompact_eq results⟩,
    ⟨_, List.forall₂_map_right_iff.2 (List.forall₂_same.2 fun entry _ =>
        Formatter.isUnixLine_unixLine entry.1 entry.2),
      Formatter.writeLines_eq results⟩⟩

def redNote : Warning :=
  ⟨"no-red", "Unexpected red (no-red)", .warning, 2, 3, none, none⟩

def emptyNote : Warning :=
  ⟨"no-empty", "Unexpected empty block (no-empty)", .error, 1, 1, none, none⟩

/-- An input with two warnings, the later one first, and one without a source. -/
def notedResults : List LintResult :=
  [{ LintResult.ofSource (some "/p/src/a.css") with
      deprecations := [⟨"The \"old\" rule is deprecated.", none⟩]
      warnings := [redNote, emptyNote] },
    { LintResult.ofSource none with
      deprecations := [⟨"The \"old\" rule is deprecated.", none⟩]
      warnings := [Warning.ofPosition "no-red" "Red again" 4 1] }]

theorem Aggregate.reports_ofResults_notedResults :
    (∃ g : Formatter.GroupedReport,
        g.Shows notedResults (Summary.ofResults notedResults none "/p") ∧
        g.text = "\nDeprecation warnings:\n - The \"old\" rule is deprecated.\n" ++
          "\nsrc/a.css\n  1:1  ✖  Unexpected empty block  no-empty\n" ++
          "  2:3  ⚠  Unexpected red  no-red\n" ++
          "\n<input css>\n  4:1  ✖  Red again  no-red\n" ++
          "\n✖ 3 problems (2 errors, 1 warning)\n") ∧
      (∃ lines, List.Forall₂ (fun entry => Formatter.IsCompactLine entry.1 entry.2)
          (Formatter.told notedResults) lines ∧
        String.join lines = "/p/src/a.css: line 2, col 3, warning - Unexpected red (no-red)\n" ++
          "/p/src/a.css: line 1, col 1, error - Unexpected empty block (no-empty)\n" ++
          "<input css>: line 4, col 1, error - Red again\n") ∧
      ∃ lines, List.Forall₂ (fun entry => Formatter.IsUnixLine entry.1 entry.2)
          (Formatter.told notedResults) lines ∧
        String.join lines ++ Formatter.totalText 3 =
          "/p/src/a.css:2:3: Unexpected red (no-red) [warning]\n" ++
          "/p/src/a.css:1:1: Unexpected empty block (no-empty) [error]\n" ++
          "<input css>:4:1: Red again [error]\n\n3 problems\n" := by
  obtain ⟨⟨g, hshows, hgrouped⟩, ⟨compact, hcompact, hjoined⟩, ⟨lines, hlines, hended⟩⟩ :=
    Aggregate.reports_ofResults notedResults none "/p"
  have htotal : (if ∃ r ∈ notedResults, r.warnings ≠ [] then Formatter.totalText
      ((ofResults notedResults none .lines "/p").errorCount +
        (ofResults notedResults none .lines "/p").warningCount) else "") =
      Formatter.totalText 3 := by
    decide +kernel
  rw [htotal] at hended
  refine ⟨⟨g, hshows, hgrouped.symm.trans ?_⟩, ⟨compact, hcompact, hjoined.symm.trans ?_⟩,
    ⟨lines, hlines, hended.symm.trans ?_⟩⟩
  · have hsorted : [redNote, emptyNote].mergeSort Formatter.notAfter = [emptyNote, redNote] := by
      simp [List.mergeSort, Formatter.notAfter, redNote, emptyNote]
    change Formatter.writeGrouped "/p" notedResults = _
    simp only [Formatter.writeGrouped, notedResults, List.foldl_cons, List.foldl_nil,
      Formatter.Grouped.addResult, hsorted, List.mergeSort_singleton]
    decide +kernel
  · decide +kernel
  · decide +kernel

end StyleAudit
