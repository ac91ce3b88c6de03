import StyleAudit.Proofs.Interleaving

/-!
A whole run whose inputs are linted at the same time.

In whatever order the inputs get on, the run comes to the same, and leaves the same files and the
same cache. Only the order in which the cache lists its entries may be another one; so what is saved
of it is the same up to that order.
-/

namespace StyleAudit

open FileSystem (AgreeOutside)

/-- What is found at a place of two file systems, if it is the same but for the order in which a
saved cache lists its entries. -/
inductive Entry.Alike : Option Entry → Option Entry → Prop
  | same (e : Option Entry) : Alike e e
  | caches {t u : Table CacheEntry} (h : ∀ path, t.find? path = u.find? path) (modified : Nat) :
      Alike (some (.file (.ofEntries t) modified)) (some (.file (.ofEntries u) modified))

namespace FileSystem

/-- Two file systems that are the same but for the order in which saved caches list entries. -/
structure Alike (a b : FileSystem) : Prop where
  home : a.home = b.home
  now : a.now = b.now
  locked : a.locked = b.locked
  entry (names : List String) : Entry.Alike (a.get? names) (b.get? names)

/-- The same fault in both, or file systems that are alike. -/
inductive AlikeResults : Except FileFault FileSystem → Except FileFault FileSystem → Prop
  | ok {a b : FileSystem} (h : a.Alike b) : AlikeResults (.ok a) (.ok b)
  | error (fault : FileFault) : AlikeResults (.error fault) (.error fault)

namespace Alike

variable {a b : FileSystem} {names : List String}

theorem refl (a : FileSystem) : a.Alike a :=
  ⟨rfl, rfl, rfl, fun _ => .same _⟩

theorem of_agreeOutside (h : AgreeOutside ∅ a b) (hnow : a.now = b.now) : a.Alike b := by
  refine ⟨h.home, hnow, h.locked, fun names => ?_⟩
  rw [h.get (Set.notMem_empty names)]
  exact .same _

/-- A path leads to the same place in both, and what is there is of one kind. -/
theorem agree (h : a.Alike b) : AgreeOutside Set.univ a b := by
  refine ⟨h.home, h.locked, fun names => ?_, fun hnot => absurd (Set.mem_univ _) hnot⟩
  have hentry := h.entry names
  rw [kind, kind]
  generalize a.get? names = x at hentry ⊢
  generalize b.get? names = y at hentry ⊢
  cases hentry <;> rfl

theorem set (h : a.Alike b) (hne : names ≠ []) {e e' : Entry}
    (he : Entry.Alike (some e) (some e')) : (a.set names e).Alike (b.set names e') := by
  refine ⟨h.home, h.now, h.locked, fun other => ?_⟩
  rw [get?_set hne, get?_set hne]
  split
  case isTrue => exact he
  case isFalse => exact h.entry other

theorem erase (h : a.Alike b) (names : List String) : (a.erase names).Alike (b.erase names) := by
  refine ⟨h.home, h.now, h.locked, fun other => ?_⟩
  by_cases heq : other = names
  · have hgone (fs : FileSystem) :
        (fs.erase names).get? other = if other = [] then some .directory else none := by
      have hout : ¬(other != names) = true := by simp [heq]
      rw [get?, FileSystem.erase, find?_filter fun n => n != names, if_neg hout]
    rw [hgone, hgone]
    exact .same _
  · rw [get?_erase_of_ne heq, get?_erase_of_ne heq]
    exact h.entry other

theorem origin (h : a.Alike b) (path : String) : a.origin path = b.origin path := by
  rw [FileSystem.origin, FileSystem.origin, h.home]

theorem isLocked (h : a.Alike b) (dir : List String) : a.isLocked dir = b.isLocked dir := by
  rw [FileSystem.isLocked, FileSystem.isLocked, h.locked]

theorem makeFrom (h : a.Alike b) (here : List String) (parts : List (List Char)) :
    (a.makeFrom here parts).2 = (b.makeFrom here parts).2 ∧
      (a.makeFrom here parts).1.Alike (b.makeFrom here parts).1 := by
  induction parts generalizing a b here with
  | nil => exact ⟨rfl, h⟩
  | cons s rest ih =>
      rw [FileSystem.makeFrom, FileSystem.makeFrom]
      by_cases hvoid : Path.isVoid s
      · rw [if_pos hvoid, if_pos hvoid]
        exact ih h here
      by_cases hup : s = ['.', '.']
      · rw [if_neg hvoid, if_neg hvoid, if_pos hup, if_pos hup]
        exact ih h here.dropLast
      by_cases hlong : isTooLong s
      · rw [if_neg hvoid, if_neg hvoid, if_neg hup, if_neg hup, if_pos hlong, if_pos hlong]
        exact ⟨rfl, h⟩
      rw [if_neg hvoid, if_neg hvoid, if_neg hup, if_neg hup, if_neg hlong, if_neg hlong,
        ← h.isLocked here]
      dsimp only
      have hnext := h.entry (here ++ [String.ofList s])
      generalize a.get? (here ++ [String.ofList s]) = x at hnext ⊢
      generalize b.get? (here ++ [String.ofList s]) = y at hnext ⊢
      cases hnext with
      | caches _ _ => exact ⟨rfl, h⟩
      | same =>
          rcases x with _ | _ | _
          · dsimp only
            split
            case isTrue => exact ⟨rfl, h⟩
            case isFalse => exact ih (h.set (by simp) (.same _)) _
          · exact ih h _
          · exact ⟨rfl, h⟩

theorem makeDirectory (h : a.Alike b) (path : String) :
    (a.makeDirectory path).2 = (b.makeDirectory path).2 ∧
      (a.makeDirectory path).1.Alike (b.makeDirectory path).1 := by
  rw [FileSystem.makeDirectory, FileSystem.makeDirectory, h.origin]
  split
  · exact ⟨rfl, h⟩
  · exact ⟨rfl, h⟩
  · exact h.makeFrom _ _

/-- A cache is written to both, or it cannot be written to either. -/
theorem write (h : a.Alike b) (path : String) {t u : Table CacheEntry}
    (htu : ∀ other, t.find? other = u.find? other) :
    AlikeResults (a.write path (.ofEntries t)) (b.write path (.ofEntries u)) := by
  rw [FileSystem.write, FileSystem.write, writeAt, writeAt, ← h.agree.locate, ← h.now]
  cases a.locate path with
  | error fault => exact .error fault
  | ok names =>
      have hnames := h.entry names
      simp only [bind, Except.bind, ← h.isLocked]
      generalize hx : a.get? names = x at hnames
      generalize b.get? names = y at hnames
      have hset (hfree : x ≠ some .directory) :
          AlikeResults (.ok (a.set names (.file (.ofEntries t) a.now)))
            (.ok (b.set names (.file (.ofEntries u) a.now))) :=
        .ok (h.set (ne_nil_of_free (hx ▸ hfree)) (.caches htu a.now))
      cases hnames with
      | caches _ _ => exact hset (by simp)
      | same =>
          rcases x with _ | _ | _
          · dsimp only
            split
            case isTrue => exact .error _
            case isFalse => exact hset (by simp)
          · exact .error _
          · exact hset (by simp)

theorem destination (h : a.Alike b) (path : String) :
    a.destination path = b.destination path := by
  rw [FileSystem.destination, FileSystem.destination, h.origin]
  rcases splitSlashes (Path.segments path.toList) with ⟨parts, slash⟩
  dsimp only
  cases parts.getLast? with
  | none => rfl
  | some name =>
      dsimp only
      rw [h.agree.follow]
      cases b.follow (b.origin path) (parts.dropLast ++ [[]]) with
      | error fault => rfl
      | ok dir =>
          have hplace := h.entry (dir ++ [String.ofList name])
          simp only [bind, Except.bind, h.isLocked]
          generalize a.get? (dir ++ [String.ofList name]) = x at hplace ⊢
          generalize b.get? (dir ++ [String.ofList name]) = y at hplace ⊢
          cases hplace <;> rfl

/-- A file is moved in both, or it can be moved in neither. -/
theorem rename (h : a.Alike b) (source target : String) :
    AlikeResults (a.rename source target) (b.rename source target) := by
  rw [FileSystem.rename, FileSystem.rename, ← h.agree.locate]
  cases a.locate source with
  | error fault => exact .error fault
  | ok names =>
      have hmove {e e' : Entry} (he : Entry.Alike (some e) (some e')) : AlikeResults
          (do
            let place ← a.destination target
            if a.isLocked names.dropLast then .error .denied
            else .ok ((a.erase names).set place e))
          (do
            let place ← b.destination target
            if b.isLocked names.dropLast then .error .denied
            else .ok ((b.erase names).set place e')) := by
        rw [← h.destination, ← h.isLocked]
        cases hplace : a.destination target with
        | error fault => exact .error fault
        | ok place =>
            obtain ⟨_, _, _, -, -, -, -, -, -, rfl, -⟩ := destination_eq_ok.1 hplace
            dsimp only [bind, Except.bind]
            split
            case isTrue => exact .error _
            case isFalse => exact .ok ((h.erase names).set (by simp) he)
      have hnames := h.entry names
      simp only [bind, Except.bind] at hmove ⊢
      generalize a.get? names = x at hnames ⊢
      generalize b.get? names = y at hnames ⊢
      cases hfault : pathFault? target with
      | some fault => cases hnames <;> exact .error _
      | none =>
          cases hnames with
          | caches htu modified => exact hmove (.caches htu modified)
          | same =>
              rcases x with _ | _ | _
              · exact .error _
              · exact .error _
              · exact hmove (.same _)

end Alike

end FileSystem

namespace Cache

variable {c d : Cache} {a b : FileSystem}

/-- What a save does once the directory of its file is there. -/
def put (c : Cache) (fs : FileSystem) : FileSystem × Except CacheError Unit :=
  match fs.write c.draftFile (.ofEntries c.entries) with
  | .error fault => (fs, .error (.file fault))
  | .ok fs =>
    match fs.rename c.draftFile c.file with
    | .error fault => (fs, .error (.file fault))
    | .ok fs => (fs, .ok ())

theorem put_alike (h : a.Alike b) (hfile : c.file = d.file)
    (hentries : ∀ path, c.entries.find? path = d.entries.find? path) :
    (c.put a).2 = (d.put b).2 ∧ (c.put a).1.Alike (d.put b).1 := by
  have hdraft : c.draftFile = d.draftFile := by rw [draftFile, draftFile, hfile]
  unfold put
  rw [hfile, hdraft]
  have hwritten := h.write d.draftFile hentries
  generalize a.write d.draftFile (.ofEntries c.entries) = x at hwritten ⊢
  generalize b.write d.draftFile (.ofEntries d.entries) = y at hwritten ⊢
  cases hwritten with
  | error fault => exact ⟨rfl, h⟩
  | @ok drafted drafted' hdrafted =>
      have hmoved := hdrafted.rename d.draftFile d.file
      dsimp only
      generalize drafted.rename d.draftFile d.file = x at hmoved ⊢
      generalize drafted'.rename d.draftFile d.file = y at hmoved ⊢
      cases hmoved with
      | error fault => exact ⟨rfl, hdrafted⟩
      | ok hrenamed => exact ⟨rfl, hrenamed⟩

theorem save_eq_put (henabled : c.enabled = true) (fs : FileSystem) :
    c.save fs = match Path.parent? c.file with
      | none => c.put fs
      | some dir =>
        match fs.makeDirectory dir with
        | (fs, some fault) => (fs, .error (.file fault))
        | (fs, none) => c.put fs := by
  rw [save, henabled]
  cases Path.parent? c.file <;> rfl

/-- Caches with the same entries are saved alike. -/
theorem save_alike (h : a.Alike b) (hfile : c.file = d.file) (henabled : c.enabled = d.enabled)
    (hentries : ∀ path, c.entries.find? path = d.entries.find? path) :
    (c.save a).2 = (d.save b).2 ∧ (c.save a).1.Alike (d.save b).1 := by
  cases hc : c.enabled with
  | false =>
      rw [save, save, ← henabled, hc]
      exact ⟨rfl, h⟩
  | true =>
      rw [save_eq_put hc, save_eq_put (henabled.symm.trans hc), hfile]
      cases Path.parent? d.file with
      | none => exact put_alike h hfile hentries
      | some dir =>
          obtain ⟨hfault, hmade⟩ := h.makeDirectory dir
          dsimp only
          generalize a.makeDirectory dir = x at hfault hmade ⊢
          generalize b.makeDirectory dir = y at hfault hmade ⊢
          obtain ⟨made, fault⟩ := x
          obtain ⟨made', fault'⟩ := y
          obtain rfl : fault = fault' := hfault
          cases fault with
          | some fault => exact ⟨rfl, hmade⟩
          | none => exact put_alike hmade hfile hentries

/-- Caches that agree are pruned and saved alike. -/
theorem reconcile_alike (h : a.Alike b) (hcd : c.AgreeOn Set.univ d) :
    (c.reconcile a).1.AgreeOn Set.univ (d.reconcile b).1 ∧
      (c.reconcile a).2.1.Alike (d.reconcile b).2.1 := by
  rw [reconcile, reconcile, ← hcd.enabled]
  split
  case isTrue =>
      have hentries (path : String) : c.prune.entries.find? path = d.prune.entries.find? path :=
        hcd.find?_prune (Set.mem_univ path)
      exact ⟨⟨hcd.file, hcd.strategy, hcd.enabled, fun _ => hentries _, hcd.visited⟩,
        (save_alike (c := c.prune) (d := d.prune) h hcd.file hcd.enabled hentries).2⟩
  case isFalse => exact ⟨hcd, h⟩

end Cache

namespace Linter

variable {l : Linter} {s t : Session}

/-- Sessions that agree save their caches alike at the end of a run. -/
theorem saveCache_alike (h : s.AgreeOn ∅ Set.univ t) :
    (l.saveCache s).files.Alike (l.saveCache t).files ∧
      (l.saveCache s).cache.AgreeOn Set.univ (l.saveCache t).cache := by
  have hfiles : s.files.Alike t.files := .of_agreeOutside h.files h.now
  obtain ⟨hcache, hsaved⟩ := Cache.reconcile_alike hfiles h.cache
  have htell (s : Session) (what : String) (r : Except CacheError Unit) :
      (s.tellFailure what r).files = s.files ∧ (s.tellFailure what r).cache = s.cache := by
    cases r <;> exact ⟨rfl, rfl⟩
  rw [saveCache, saveCache]
  split
  case isTrue =>
      dsimp only
      rw [(htell _ _ _).1, (htell _ _ _).2, (htell _ _ _).1, (htell _ _ _).2]
      exact ⟨hsaved, hcache⟩
  case isFalse => exact ⟨hfiles, h.cache⟩

/-- What a run of files ends with in two sessions that agree. -/
theorem close_alike (h : s.AgreeOn ∅ Set.univ t) (outcome : Except LintError (List LintResult)) :
    (l.close (outcome, s)).1 = (l.close (outcome, t)).1 ∧
      (l.close (outcome, s)).2.files.Alike (l.close (outcome, t)).2.files ∧
      (l.close (outcome, s)).2.cache.AgreeOn Set.univ (l.close (outcome, t)).2.cache := by
  cases outcome with
  | error e => exact ⟨rfl, .of_agreeOutside h.files h.now, h.cache⟩
  | ok results => exact ⟨rfl, saveCache_alike h⟩

/-- What a run comes to whose inputs get on in the order of a schedule. -/
theorem lintTogether_eq (l : Linter) (schedule : List Nat) (s : Session) :
    l.lintTogether schedule s =
      match Discovery.run (l.opened s).files (l.options.files.getD []) l.globDir
        l.options.keepExcluded with
      | .error e => some (.error e, l.opened s)
      | .ok found =>
        if (l.inputs (l.opened s)).isEmpty then some (l.close (l.lintNothing found (l.opened s)))
        else (((Batch.start (l.inputs (l.opened s)) (l.opened s)).play? l l.options.concurrency
          schedule).bind Batch.outcome?).map l.close := by
  have hopened : l.discardCache { s with files := s.files.tick } = l.opened s := rfl
  rw [lintTogether, hopened]
  dsimp only
  cases hfound : Discovery.run (l.opened s).files (l.options.files.getD []) l.globDir
      l.options.keepExcluded with
  | error e => rfl
  | ok found => rw [inputs_of_run hfound]

/-- There is an order in which the inputs of a run all come to an end. -/
theorem exists_lintTogether (l : Linter) (s : Session) :
    ∃ schedule, (l.lintTogether schedule s).isSome := by
  obtain ⟨schedule, b, hplay, hfinished, -, -⟩ := Batch.exists_play?_start l
    l.options.concurrency (l.inputs (l.opened s)) (l.opened s)
  refine ⟨schedule, ?_⟩
  rw [lintTogether_eq, hplay, Option.bind_some, Batch.outcome?, if_pos hfinished]
  split
  · rfl
  · split <;> rfl

/--
A run whose inputs do not get into each other's way comes to the same, in whatever order they get
on, as one that lints them one after the other, and leaves the same files and the same cache.
-/
theorem lintTogether_spec (hfiles : l.options.files.isSome) (hcode : l.options.code = none)
    (h : l.Separate (l.inputs (l.opened s)) (l.opened s)) {schedule : List Nat}
    {x : Except LintError Aggregate} (hrun : l.lintTogether schedule s = some (x, t)) :
    x = (l.lint s).1 ∧ t.files.Alike (l.lint s).2.files ∧
      t.cache.AgreeOn Set.univ (l.lint s).2.cache := by
  rw [lintTogether_eq] at hrun
  rw [lint_of_files hfiles hcode]
  cases hfound : Discovery.run (l.opened s).files (l.options.files.getD []) l.globDir
      l.options.keepExcluded with
  | error e =>
      rw [hfound] at hrun
      obtain ⟨rfl, rfl⟩ := Prod.mk.inj (Option.some.inj hrun)
      exact ⟨rfl, .refl _, .refl _ _⟩
  | ok found =>
      rw [hfound] at hrun
      dsimp only at hrun ⊢
      rw [lintFound]
      split at hrun
      case isTrue hempty =>
          rw [if_pos hempty, Option.some.inj hrun]
          exact ⟨rfl, .refl _, .refl _ _⟩
      case isFalse hsome =>
          obtain ⟨outcome, houtcome, hended⟩ := Option.map_eq_some_iff.1 hrun
          obtain ⟨b, hplay, hb⟩ := Option.bind_eq_some_iff.1 houtcome
          rw [Batch.outcome?] at hb
          split at hb
          case isFalse => cases hb
          case isTrue hfinished =>
              obtain rfl := Option.some.inj hb
              obtain ⟨-, hcollect, hsession⟩ := Batch.lintAll_of_finished h hplay hfinished
              obtain ⟨hsame, hleft⟩ := close_alike (l := l) hsession (Linter.collect b.results)
              rw [hended] at hsame hleft
              rw [if_neg hsome]
              rw [hcollect] at hsame hleft
              exact ⟨hsame, hleft⟩

end Linter

end StyleAudit
