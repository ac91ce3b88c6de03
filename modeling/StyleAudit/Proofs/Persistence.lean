import StyleAudit.Cache.Sharing
import StyleAudit.Proofs.Isolation
import StyleAudit.Proofs.Saving

/-!
What caches that share a file know of it.

However the operations of the caches follow each other, the file holds what was written to it last,
and a cache that loads takes it over. A cache knows which paths it has looked at since, and keeps
their entries when it drops the others. Only without a file does a load leave a cache as it is, with
all that it has in memory.
-/

namespace StyleAudit

/-- What the operations on some caches, and their answers, tell of the caches and their file. -/
structure Ledger (ι : Type) where
  /-- What was written to the file last, unless the file was removed since. -/
  written : Option (Table CacheEntry)
  /-- What each cache has looked up or recorded since it last loaded, was cleared or destroyed. -/
  touched : ι → List String

namespace Cache

/-- What an operation that leaves a cache `c'` writes to the file, after what was written before. -/
def Operation.writes (op : Operation) (c c' : Cache) (reply : Reply)
    (before : Option (Table CacheEntry)) : Option (Table CacheEntry) :=
  match op with
  | .save | .reconcile => if c.enabled ∧ reply = .done then some c'.entries else before
  | .destroy => if reply = .done then none else before
  | _ => before

/-- The paths that a cache has looked up or recorded after an operation. -/
def Operation.touches (op : Operation) (c : Cache) (fs : FileSystem) (reply : Reply)
    (before : List String) : List String :=
  match op with
  | .record path _ | .check path _ => if c.enabled then path :: before else before
  | .clear => []
  | .load => if c.enabled ∧ fs.has c.file ∧ reply = .done then [] else before
  | .destroy => if reply = .done then [] else before
  | _ => before

section Perform

variable {c : Cache} {fs fs' : FileSystem} {t : Table CacheEntry}

/-- A cache that is saved can be loaded. -/
theorem load_of_holds (henabled : c.enabled = true) (h : fs.Holds c.file t) :
    c.load fs = .ok { c with entries := t, visited := [] } := by
  rw [load, henabled, h.has, h.read]
  dsimp only
  rw [entriesIn?_ofEntries]
  rfl

/-- Without a file a load changes nothing. -/
theorem load_of_missing (h : fs.has c.file = false) : c.load fs = .ok c := by
  rw [load, h, if_pos (by simp)]

/-- A cache that is saved can be destroyed. -/
theorem destroy_of_holds (h : fs.Holds c.file t) : (c.destroy fs).2.2 = .ok () := by
  obtain ⟨place, modified, hplace, hget⟩ := h.saved
  have hopen := FileSystem.isLocked_of_destination hplace
  have hremove : fs.remove c.file = .ok (fs.erase place) := by
    rw [FileSystem.remove, (FileSystem.locate_of_destination h.fault hplace).1]
    simp only [bind, Except.bind, hget, hopen, Bool.false_eq_true, if_false]
  rw [destroy, hremove]

theorem Reply.ofResult_eq_done {r : Except CacheError Unit} :
    Reply.ofResult r = .done ↔ r = .ok () := by
  cases r with
  | ok u => exact iff_of_true rfl rfl
  | error e => simp [Reply.ofResult]

theorem Reply.ofResult_ne_clean (r : Except CacheError Unit) (known : Bool) :
    Reply.ofResult r ≠ .clean known := by
  intro h
  cases r with
  | ok u => cases h
  | error e => cases h

theorem perform_reconcile (c : Cache) (fs : FileSystem) : c.perform fs .reconcile =
    ((c.reconcile fs).1, (c.reconcile fs).2.1, .ofResult (c.reconcile fs).2.2) := rfl

theorem perform_destroy (c : Cache) (fs : FileSystem) : c.perform fs .destroy =
    ((c.destroy fs).1, (c.destroy fs).2.1, .ofResult (c.destroy fs).2.2) := rfl

theorem perform_check (c : Cache) (fs : FileSystem) (path : String) (now : CacheEntry) :
    c.perform fs (.check path now) =
      ((c.check path now).2, fs, .clean (c.check path now).1) := rfl

theorem perform_save (c : Cache) (fs : FileSystem) :
    c.perform fs .save = (c, (c.save fs).1, .ofResult (c.save fs).2) := rfl

theorem find?_clear (c : Cache) (path : String) (e : CacheEntry) :
    c.clear.entries.find? path ≠ some e :=
  nofun

/-- An eviction leaves no entry that was not there. -/
theorem find?_of_evict {path other : String} {e : CacheEntry}
    (h : (c.evict path).entries.find? other = some e) : c.entries.find? other = some e := by
  rw [evict, Table.find?_erase] at h
  split at h
  case isTrue => cases h
  case isFalse => exact h

/-- No operation moves a cache to another file. -/
theorem file_perform (c : Cache) (fs : FileSystem) (op : Operation) :
    (c.perform fs op).1.file = c.file := by
  cases op with
  | record path now => exact c.file_record path now
  | check path now => exact c.file_check path now
  | load =>
      rw [perform]
      split
      case h_1 hload => rcases load_eq_ok hload with ⟨-, rfl⟩ | ⟨-, _, _, -, -, rfl⟩ <;> rfl
      case h_2 => rfl
  | reconcile => exact c.file_reconcile fs
  | destroy => rw [perform_destroy, destroy_fst, clear]
  | _ => rfl

/-- Whether the paths with an entry that a cache has visited are those that it is known to touch. -/
def Touched (c : Cache) (known : List String) : Prop :=
  ∀ path e, c.entries.find? path = some e → (path ∈ c.visited ↔ path ∈ known)

theorem Touched.visit {known : List String} (h : c.Touched known) (path : String) :
    (c.visit path).Touched (path :: known) := by
  intro other e hfind
  rw [entries_visit] at hfind
  rw [mem_visited_visit, List.mem_cons, h other e hfind]

theorem Touched.record {known : List String} (h : c.Touched known) (path : String)
    (now : CacheEntry) :
    (c.record path now).Touched (if c.enabled then path :: known else known) := by
  cases henabled : c.enabled with
  | true =>
      intro other e hfind
      rw [Cache.record, if_pos henabled] at hfind ⊢
      rw [entries_visit, Table.find?_insertSorted] at hfind
      rw [if_pos rfl, mem_visited_visit, List.mem_cons]
      split at hfind
      case isTrue heq => exact iff_of_true (.inl heq.symm) (.inl heq.symm)
      case isFalse => exact or_congr_right (h other e hfind)
  | false =>
      rw [Cache.record, henabled]
      exact h

/-- Fewer entries, and the same paths that were visited. -/
theorem Touched.of_entries {c' : Cache} {known : List String} (h : c.Touched known)
    (hentries : ∀ path e, c'.entries.find? path = some e → c.entries.find? path = some e)
    (hvisited : c'.visited = c.visited) : c'.Touched known := by
  intro path e hfind
  rw [hvisited]
  exact h path e (hentries path e hfind)

/-- A lookup of a cache that is on is known of, and one of a cache that is off does nothing. -/
theorem Touched.check {known : List String} (h : c.Touched known) (path : String)
    (now : CacheEntry) :
    (c.check path now).2.Touched (if c.enabled then path :: known else known) := by
  cases henabled : c.enabled with
  | true =>
      rw [Cache.check, if_pos henabled]
      exact h.visit path
  | false =>
      rw [Cache.check, henabled]
      exact h

theorem Touched.of_empty (known : List String) (hentries : c.entries = []) : c.Touched known := by
  intro path e hfind
  rw [hentries] at hfind
  cases hfind

/-- A load that takes the file over forgets what was visited, and any other changes nothing. -/
theorem Touched.load {known : List String} (h : c.Touched known) (fs : FileSystem) :
    (c.perform fs .load).1.Touched
      (Operation.load.touches c fs (c.perform fs .load).2.2 known) := by
  rw [Cache.perform]
  split
  case h_1 loaded hload =>
      rcases load_eq_ok hload with ⟨hskip, rfl⟩ | ⟨henabled, content, entries, hread, -, rfl⟩
      · rw [Operation.touches, if_neg]
        · exact h
        · rintro ⟨henabled, hhas, -⟩
          rcases hskip with hoff | hmissing
          · cases hoff.symm.trans henabled
          · cases hmissing.symm.trans hhas
      · have hhas : fs.has c.file = true := by
          obtain ⟨names, modified, hplace, hget⟩ := FileSystem.read_eq_ok hread
          rw [FileSystem.has, FileSystem.stat_eq_ok.2 ⟨names, hplace, hget⟩]
        rw [Operation.touches, if_pos ⟨henabled, hhas, rfl⟩]
        exact fun _ _ _ => .rfl
  case h_2 =>
      rw [Operation.touches, if_neg (by simp)]
      exact h

/-- An operation tells which paths the cache has visited. -/
theorem Touched.perform {known : List String} (h : c.Touched known) (fs : FileSystem)
    (op : Operation) :
    (c.perform fs op).1.Touched (op.touches c fs (c.perform fs op).2.2 known) := by
  cases op with
  | record path now => exact h.record path now
  | evict path => exact h.of_entries (fun _ _ => find?_of_evict) rfl
  | check path now => exact h.check path now
  | clear => exact .of_empty _ rfl
  | load => exact h.load fs
  | save => exact h
  | reconcile =>
      rw [perform_reconcile, reconcile_fst]
      split
      case isTrue => exact h.of_entries (fun _ _ => find?_of_prune) rfl
      case isFalse => exact h
  | destroy =>
      rw [perform_destroy, destroy_fst]
      exact .of_empty _ rfl
  | enable => exact h
  | disable => exact h

/-- What a save writes, if it succeeds, or what was written before it. -/
theorem holds_of_written {before : Option (Table CacheEntry)}
    (h : ∀ t, before = some t → fs.Holds c.file t) :
    ∀ t, (if c.enabled ∧ Reply.ofResult (c.save fs).2 = .done then some c.entries else before) =
      some t → (c.save fs).1.Holds c.file t := by
  intro t ht
  rcases hsave : c.save fs with ⟨fs', r⟩
  rw [hsave] at ht
  cases r with
  | ok u =>
      cases henabled : c.enabled with
      | true =>
          rw [if_pos ⟨henabled, rfl⟩] at ht
          exact Option.some.inj ht ▸ holds_of_save henabled hsave
      | false =>
          rw [if_neg (by simp [henabled])] at ht
          rw [save, henabled] at hsave
          obtain ⟨rfl, -⟩ := Prod.mk.inj hsave
          exact h t ht
  | error e =>
      rw [if_neg (by simp [Reply.ofResult])] at ht
      exact holds_of_save_error (h t ht) hsave

/-- An operation tells what the file holds. -/
theorem holds_perform {before : Option (Table CacheEntry)}
    (h : ∀ t, before = some t → fs.Holds c.file t) (op : Operation) :
    ∀ t, op.writes c (c.perform fs op).1 (c.perform fs op).2.2 before = some t →
      (c.perform fs op).2.1.Holds c.file t := by
  cases op with
  | load =>
      rw [perform]
      split
      case h_1 => exact h
      case h_2 => exact h
  | save =>
      rw [perform_save]
      exact holds_of_written h
  | reconcile =>
      rw [perform_reconcile, reconcile]
      cases henabled : c.enabled with
      | true =>
          rw [if_pos rfl, Operation.writes, henabled]
          have hwritten := holds_of_written (c := c.prune) h
          rw [show c.prune.enabled = true from henabled] at hwritten
          exact hwritten
      | false =>
          rw [if_neg Bool.false_ne_true, Operation.writes, henabled, if_neg (by simp)]
          exact h
  | destroy =>
      intro t ht
      rw [perform_destroy, Operation.writes] at ht
      split at ht
      case isTrue => cases ht
      case isFalse hfailed =>
          rw [destroy_of_holds (h t ht)] at hfailed
          exact absurd rfl hfailed
  | _ => exact h

/-- A load that finds a file takes over what it holds. -/
theorem load_of_has {c' : Cache} (henabled : c.enabled = true) (hfile : fs.has c.file = true)
    (h : c.load fs = .ok c') : c'.visited = [] ∧
      ∃ content, fs.read c.file = .ok content ∧ entriesIn? content = some c'.entries := by
  rcases load_eq_ok h with ⟨hoff | hmissing, -⟩ | ⟨-, content, entries, hread, hin, rfl⟩
  · cases hoff.symm.trans henabled
  · cases hmissing.symm.trans hfile
  · exact ⟨rfl, content, hread, hin⟩

/-- Reconciling keeps and writes the entries of the paths that a cache is known to touch. -/
theorem reconcile_of_touched {known : List String} (htouched : c.Touched known)
    (henabled : c.enabled = true) (h : (c.reconcile fs).2.2 = .ok ()) :
    (∀ path, (c.reconcile fs).1.entries.find? path =
      if path ∈ known then c.entries.find? path else none) ∧
    (c.reconcile fs).2.1.Holds c.file (c.reconcile fs).1.entries := by
  rw [reconcile, if_pos henabled] at h ⊢
  refine ⟨fun path => ?_, ?_⟩
  · rw [find?_prune]
    cases hfind : c.entries.find? path with
    | none => rw [ite_self, ite_self]
    | some e => rw [if_congr (htouched path e hfind) rfl rfl]
  · have hsave : c.prune.save fs = ((c.prune.save fs).1, .ok ()) := Prod.ext rfl h
    exact holds_of_save (c := c.prune) henabled hsave

/-- A cache that is off knows of nothing, takes nothing up and writes nothing. -/
theorem off_perform (h : c.enabled = false) (fs : FileSystem) (op : Operation) :
    (c.perform fs op).2.2 ≠ .clean true ∧
      (∀ path e, (c.perform fs op).1.entries.find? path = some e →
        c.entries.find? path = some e) ∧
      ∀ names content, (c.perform fs op).2.1.contentAt? names = some content →
        fs.contentAt? names = some content := by
  cases op with
  | record path now =>
      rw [perform, record, if_neg (by simp [h])]
      exact ⟨by simp, fun _ _ => id, fun _ _ => id⟩
  | evict path => exact ⟨by simp [perform], fun _ _ => find?_of_evict, fun _ _ => id⟩
  | check path now =>
      rw [perform_check, check, if_neg (by simp [h])]
      exact ⟨by simp, fun _ _ => id, fun _ _ => id⟩
  | clear =>
      exact ⟨by simp [perform], fun other e hfind => absurd hfind (c.find?_clear other e),
        fun _ _ => id⟩
  | load =>
      have hload : c.load fs = .ok c := by rw [load, if_pos (by simp [h])]
      rw [perform, hload]
      exact ⟨by simp, fun _ _ => id, fun _ _ => id⟩
  | save =>
      rw [perform_save, save, if_pos (by simp [h])]
      exact ⟨Reply.ofResult_ne_clean (.ok ()) true, fun _ _ => id, fun _ _ => id⟩
  | reconcile =>
      rw [perform_reconcile, reconcile, if_neg (by simp [h])]
      exact ⟨Reply.ofResult_ne_clean (.ok ()) true, fun _ _ => id, fun _ _ => id⟩
  | destroy =>
      rw [perform_destroy, destroy_fst]
      refine ⟨Reply.ofResult_ne_clean _ _,
        fun other e hfind => absurd hfind (c.find?_clear other e), fun names content hcontent => ?_⟩
      rw [destroy] at hcontent
      cases hremove : fs.remove c.file with
      | error fault =>
          rw [hremove] at hcontent
          cases fault <;> exact hcontent
      | ok fs' =>
          rw [hremove] at hcontent
          obtain ⟨place, _, _, -, -, rfl⟩ := FileSystem.remove_eq_ok hremove
          exact FileSystem.contentAt?_of_erase hcontent
  | enable => exact ⟨by simp [perform], fun _ _ => id, fun _ _ => id⟩
  | disable => exact ⟨by simp [perform], fun _ _ => id, fun _ _ => id⟩

end Perform

end Cache

namespace Sharing

variable {ι : Type} [DecidableEq ι] {file : String} {strategy : ι → CacheStrategy}
  {fs : FileSystem} {x : Sharing ι} {k : Ledger ι} {i : ι}

def noted (x : Sharing ι) (k : Ledger ι) (i : ι) (op : Cache.Operation) : Ledger ι where
  written := op.writes (x.caches i) ((x.step i op).2.caches i) (x.step i op).1 k.written
  touched j := if j = i then op.touches (x.caches i) x.files (x.step i op).1 (k.touched i)
    else k.touched j

/-- The caches that operations in any order leave, with what is known of them. -/
inductive Records (file : String) (strategy : ι → CacheStrategy) (fs : FileSystem) :
    Sharing ι → Ledger ι → Prop
  | start : Records file strategy fs (start file strategy fs) ⟨none, fun _ => []⟩
  | step {x : Sharing ι} {k : Ledger ι} (h : Records file strategy fs x k) (i : ι)
      (op : Cache.Operation) : Records file strategy fs (x.step i op).2 (x.noted k i op)

theorem caches_step (x : Sharing ι) (i : ι) (op : Cache.Operation) :
    (x.step i op).2.caches i = ((x.caches i).perform x.files op).1 :=
  if_pos rfl

theorem caches_step_of_ne {j : ι} (h : j ≠ i) (x : Sharing ι) (op : Cache.Operation) :
    (x.step i op).2.caches j = x.caches j :=
  if_neg h

theorem reply_step (x : Sharing ι) (i : ι) (op : Cache.Operation) :
    (x.step i op).1 = ((x.caches i).perform x.files op).2.2 :=
  rfl

theorem files_step (x : Sharing ι) (i : ι) (op : Cache.Operation) :
    (x.step i op).2.files = ((x.caches i).perform x.files op).2.1 :=
  rfl

/-- Whether what is known of caches that are kept in one file is so. -/
structure Sound (file : String) (x : Sharing ι) (k : Ledger ι) : Prop where
  place (i : ι) : (x.caches i).file = file
  written (t : Table CacheEntry) : k.written = some t → x.files.Holds file t
  touched (i : ι) : (x.caches i).Touched (k.touched i)

theorem Sound.step (h : x.Sound file k) (i : ι) (op : Cache.Operation) :
    (x.step i op).2.Sound file (x.noted k i op) := by
  refine ⟨fun j => ?_, ?_, fun j => ?_⟩
  · obtain rfl | hne := eq_or_ne j i
    · rw [caches_step, Cache.file_perform, h.place j]
    · rw [caches_step_of_ne hne, h.place j]
  · have hbefore : ∀ t, k.written = some t → x.files.Holds (x.caches i).file t :=
      fun t ht => (h.place i).symm ▸ h.written t ht
    have hafter := Cache.holds_perform hbefore op
    rw [h.place i] at hafter
    simp only [noted, caches_step]
    exact hafter
  · obtain rfl | hne := eq_or_ne j i
    · simp only [noted, caches_step, if_pos]
      exact (h.touched j).perform x.files op
    · simp only [noted, caches_step_of_ne hne, if_neg hne]
      exact h.touched j

/-- After all operations what is known of the caches is so. -/
theorem Records.sound (h : Records file strategy fs x k) : x.Sound file k := by
  induction h with
  | start =>
      exact ⟨fun _ => rfl, fun _ ht => (by cases ht), fun _ => Cache.Touched.of_empty _ rfl⟩
  | step _ i op ih => exact ih.step i op

/-- What the cache `i` makes of the file that it shares, and of the paths it has looked at. -/
structure Persists (file : String) (x : Sharing ι) (k : Ledger ι) (i : ι) : Prop where
  /-- A load takes over what was written last. -/
  load_written (t : Table CacheEntry) (hon : (x.caches i).enabled = true)
    (h : k.written = some t) : (x.step i .load).1 = .done ∧
      ((x.step i .load).2.caches i).entries = t ∧ ((x.step i .load).2.caches i).visited = []
  /-- A load takes over what the file holds. -/
  load_found (hon : (x.caches i).enabled = true) (hfile : x.files.has file = true)
    (h : (x.step i .load).1 = .done) : ((x.step i .load).2.caches i).visited = [] ∧
      ∃ content, x.files.read file = .ok content ∧
        Cache.entriesIn? content = some ((x.step i .load).2.caches i).entries
  /-- Without a file a load changes nothing. -/
  load_missing (hfile : x.files.has file = false) : (x.step i .load).1 = .done ∧
    (x.step i .load).2.caches i = x.caches i
  load_failed (e : CacheError) (h : (x.step i .load).1 = .failed e) :
    (x.step i .load).2.caches i = x.caches i
  /-- What was looked at or recorded is kept and written, and the rest is dropped. -/
  reconcile (hon : (x.caches i).enabled = true) (h : (x.step i .reconcile).1 = .done) :
    (∀ path, ((x.step i .reconcile).2.caches i).entries.find? path =
      if path ∈ k.touched i then (x.caches i).entries.find? path else none) ∧
    (x.step i .reconcile).2.files.read file =
      .ok (.ofEntries ((x.step i .reconcile).2.caches i).entries)
  off (hoff : (x.caches i).enabled = false) : (∀ path, (x.caches i).get? path = none) ∧
    ∀ op, (x.step i op).1 ≠ .clean true ∧
      (∀ path e, ((x.step i op).2.caches i).entries.find? path = some e →
        (x.caches i).entries.find? path = some e) ∧
      ∀ names content, (x.step i op).2.files.contentAt? names = some content →
        x.files.contentAt? names = some content

/--
In whichever order caches work on the file that they share, and whatever fails on the way, each of
them makes of the file and of its own entries what is known of them.
-/
theorem Records.persists (h : Records file strategy fs x k) (i : ι) : x.Persists file k i := by
  have hsound := h.sound
  have hplace := hsound.place i
  refine ⟨fun t hon ht => ?_, fun hon hfile hdone => ?_, fun hfile => ?_, fun e he => ?_,
    fun hon hdone => ?_, fun hoff => ⟨Cache.get?_eq_none hoff, fun op => ?_⟩⟩
  · have hload := Cache.load_of_holds hon (hplace ▸ hsound.written t ht)
    rw [caches_step, reply_step, Cache.perform, hload]
    exact ⟨rfl, rfl, rfl⟩
  · rw [reply_step, Cache.perform] at hdone
    rw [caches_step, Cache.perform]
    split at hdone
    case h_2 => cases hdone
    case h_1 loaded hload =>
        rw [← hplace]
        exact Cache.load_of_has hon (hplace.symm ▸ hfile) hload
  · rw [caches_step, reply_step, Cache.perform, Cache.load_of_missing (hplace.symm ▸ hfile)]
    exact ⟨rfl, rfl⟩
  · rw [reply_step, Cache.perform] at he
    rw [caches_step, Cache.perform]
    split at he
    case h_1 => cases he
    case h_2 => rfl
  · rw [reply_step, Cache.perform_reconcile, Cache.Reply.ofResult_eq_done] at hdone
    obtain ⟨hentries, hheld⟩ := Cache.reconcile_of_touched (hsound.touched i) hon hdone
    rw [caches_step, files_step, Cache.perform_reconcile]
    exact ⟨hentries, hplace ▸ hheld.read⟩
  · rw [caches_step, reply_step]
    exact Cache.off_perform hoff x.files op

def pair : Sharing Bool :=
  start "/w/.sheetlintcache" (fun _ => .content) ⟨[(["w"], .directory)], ["w"], 0, []⟩

def redEntry : CacheEntry := ⟨"r", "c"⟩

theorem records_pair : Records "/w/.sheetlintcache" (fun _ => .content) pair.files pair
    ⟨none, fun _ => []⟩ :=
  .start

/-- What one cache has saved the other can load. -/
theorem persists_pair : ∃ x k, Records "/w/.sheetlintcache" (fun _ => .content) pair.files x k ∧
    (x.caches true).enabled = true ∧ (x.caches true).entries = [] ∧
    k.written = some [("red.css", redEntry)] ∧ x.Persists "/w/.sheetlintcache" k true := by
  have hrecords := (records_pair.step false (.record "red.css" redEntry)).step false .save
  exact ⟨_, _, hrecords, rfl, rfl, by decide +kernel, hrecords.persists true⟩

/-- A cache that finds no file to load still has what was recorded before. -/
theorem entries_of_missing : ∃ x k,
    Records "/w/.sheetlintcache" (fun _ => .content) pair.files x k ∧
    (x.caches true).enabled = true ∧ x.files.has "/w/.sheetlintcache" = false ∧
    (x.step true .load).1 = .done ∧
    ((x.step true .load).2.caches true).entries = [("red.css", redEntry)] ∧
    ((x.step true .load).2.caches true).visited = ["red.css"] := by
  have hrecords := records_pair.step true (.record "red.css" redEntry)
  exact ⟨_, _, hrecords, rfl, by decide +kernel, by decide +kernel, by decide +kernel,
    by decide +kernel⟩

end Sharing

end StyleAudit
