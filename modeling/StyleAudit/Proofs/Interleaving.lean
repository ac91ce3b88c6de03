import StyleAudit.Proofs.Fixing
import StyleAudit.Proofs.Isolation
import StyleAudit.Proofs.Transparency

/-!
Paths that are linted at the same time.

However the steps of the paths follow each other, and however many paths may be on their way, every
path comes to the result that it has on its own, and what is left behind in the files and in the
cache is what a run leaves that lints one path after the other.
-/

namespace StyleAudit

open Linter (Reaches Separate)

namespace Linter

/-- The error of a path on its own, before it is told as a result. -/
def failure? (l : Linter) (path : String) (s : Session) : Option LintError :=
  match l.lintInput (.ofFile path l.usesCache) s with
  | (.error e, _) => some e
  | (.ok o, s) =>
    match writeBack path o s with
    | (.error e, _) => some e
    | (.ok _, _) => none

variable {l : Linter} {path : String} {s : Session} {e : LintError}

/-- A path ends the run exactly when its error is fatal. -/
theorem lintFile_eq_error :
    (l.lintFile path s).1 = .error e ↔ l.failure? path s = some e ∧ e.isFatal = true := by
  have hfail (own : LintError) (s : Session) :
      (fail path own s).1 = .error e ↔ some own = some e ∧ e.isFatal = true := by
    rw [fail, resultOfError_eq_error, Option.some.injEq]
    constructor
    · rintro ⟨rfl, h⟩
      exact ⟨rfl, h⟩
    · rintro ⟨rfl, h⟩
      exact ⟨rfl, h⟩
  rw [lintFile, failure?]
  rcases l.lintInput (.ofFile path l.usesCache) s with ⟨o, t⟩
  cases o with
  | error own => exact hfail own t
  | ok o =>
      dsimp only
      rw [finish]
      rcases writeBack path o t with ⟨r, u⟩
      cases r with
      | error own => exact hfail own u
      | ok r =>
          constructor
          · intro h
            cases h
          · rintro ⟨h, -⟩
            cases h

/-- A path has a result exactly when it has no error that is fatal. -/
theorem lintFile_eq_ok :
    (∃ r, (l.lintFile path s).1 = .ok r) ↔
      ∀ e, l.failure? path s = some e → e.isFatal = false := by
  constructor
  · rintro ⟨r, hr⟩ e he
    rw [Bool.eq_false_iff]
    intro hfatal
    cases hr.symm.trans (lintFile_eq_error.2 ⟨he, hfatal⟩)
  · intro h
    cases hr : (l.lintFile path s).1 with
    | ok r => exact ⟨r, rfl⟩
    | error e =>
        obtain ⟨he, hfatal⟩ := lintFile_eq_error.1 hr
        rw [h e he] at hfatal
        cases hfatal

theorem collect_cons_eq_error {r : LintResult} {xs : List (Except LintError LintResult)} :
    collect (.ok r :: xs) = .error e ↔ collect xs = .error e := by
  rw [collect]
  cases collect xs with
  | error own => exact .rfl
  | ok rs =>
      constructor
      · intro h
        cases h
      · intro h
        cases h

/-- A run fails with an error that only results precede. -/
theorem collect_eq_error {xs : List (Except LintError LintResult)} :
    collect xs = .error e ↔
      ∃ before after, xs = before ++ .error e :: after ∧ ∀ x ∈ before, ∃ r, x = .ok r := by
  induction xs with
  | nil => simp [collect]
  | cons x xs ih =>
      cases x with
      | error own =>
          constructor
          · rintro ⟨⟩
            exact ⟨[], xs, rfl, fun _ h => absurd h List.not_mem_nil⟩
          · rintro ⟨before, after, heq, hbefore⟩
            rcases List.cons_eq_append_iff.1 heq with ⟨-, hhead⟩ | ⟨tail, rfl, -⟩
            · obtain ⟨hown, -⟩ := List.cons.inj hhead
              rw [collect, Except.error.inj hown]
            · obtain ⟨r, hr⟩ := hbefore _ List.mem_cons_self
              cases hr
      | ok r =>
          rw [collect_cons_eq_error, ih]
          constructor
          · rintro ⟨before, after, rfl, hbefore⟩
            refine ⟨.ok r :: before, after, rfl, fun x hx => ?_⟩
            rcases List.mem_cons.1 hx with rfl | hx
            · exact ⟨r, rfl⟩
            · exact hbefore x hx
          · rintro ⟨before, after, heq, hbefore⟩
            rcases List.cons_eq_append_iff.1 heq with ⟨-, hhead⟩ | ⟨tail, rfl, rfl⟩
            · cases hhead
            · exact ⟨tail, after, rfl, fun x hx => hbefore x (List.mem_cons_of_mem _ hx)⟩

/-- The results of paths end a run with the error of the first path whose error is fatal. -/
theorem collect_map_eq_error {paths : List String} :
    collect (paths.map fun p => (l.lintFile p s).1) = .error e ↔
      ∃ before p after, paths = before ++ p :: after ∧
        (∀ q ∈ before, ∀ e', l.failure? q s = some e' → e'.isFatal = false) ∧
        l.failure? p s = some e ∧ e.isFatal = true := by
  rw [collect_eq_error]
  constructor
  · rintro ⟨before, after, heq, hbefore⟩
    obtain ⟨front, back, rfl, rfl, hback⟩ := List.map_eq_append_iff.1 heq
    obtain ⟨p, back, rfl, hp, rfl⟩ := List.map_eq_cons_iff.1 hback
    refine ⟨front, p, back, rfl, fun q hq => lintFile_eq_ok.1 ?_, lintFile_eq_error.1 hp⟩
    exact hbefore _ (List.mem_map_of_mem hq)
  · rintro ⟨before, p, after, rfl, hbefore, hp⟩
    refine ⟨before.map fun q => (l.lintFile q s).1, after.map fun q => (l.lintFile q s).1, ?_, ?_⟩
    · rw [List.map_append, List.map_cons, lintFile_eq_error.2 hp]
    · intro x hx
      obtain ⟨q, hq, rfl⟩ := List.mem_map.1 hx
      exact lintFile_eq_ok.2 (hbefore q hq)

end Linter

def PathStage.left : PathStage → Nat
  | .waiting => 3
  | .prepared _ => 2
  | .examined _ => 1
  | .done _ => 0

theorem Linter.left_advance (l : Linter) (path : String) {stage : PathStage}
    (hopen : stage.isDone = false) (s : Session) :
    (l.advance path stage s).1.left + 1 = stage.left := by
  cases stage with
  | waiting => rfl
  | prepared p => cases p <;> rfl
  | examined o => rfl
  | done r => cases hopen

namespace Batch

variable {l : Linter} {cap : Option Nat} {paths : List String} {s : Session} {b b' : Batch}

/-- A step takes one path that is not done yet, and for which there is room, to its next stage. -/
theorem step?_eq_some {i : Nat} (h : b.step? l cap i = some b') :
    ∃ before path stage after, b.row = before ++ (path, stage) :: after ∧ before.length = i ∧
      stage.isDone = false ∧ b.admits cap i = true ∧
      b' = ⟨before ++ (path, (l.advance path stage b.session).1) :: after,
        (l.advance path stage b.session).2⟩ := by
  rw [step?] at h
  split at h
  case h_1 => cases h
  case h_2 path stage hrow =>
      split at h
      case isTrue => cases h
      case isFalse hstep =>
          obtain ⟨hi, hget⟩ := List.getElem?_eq_some_iff.1 hrow
          obtain ⟨hopen, hadmits⟩ : stage.isDone = false ∧ b.admits cap i = true := by
            simpa using hstep
          refine ⟨b.row.take i, path, stage, b.row.drop (i + 1), ?_, ?_, hopen, hadmits, ?_⟩
          · rw [← hget, ← List.drop_eq_getElem_cons hi, List.take_append_drop]
          · exact List.length_take_of_le hi.le
          · rcases hnext : l.advance path stage b.session with ⟨next, t⟩
            rw [hnext] at h
            obtain rfl := Option.some.inj h
            rw [List.set_eq_take_append_cons_drop, if_pos hi]

/-- What every step keeps, all orders of steps keep. -/
theorem play?_keeps {P : Batch → Prop}
    (hstep : ∀ {a a' : Batch} {i : Nat}, P a → a.step? l cap i = some a' → P a') {a : Batch}
    (ha : P a) {schedule : List Nat} (hplay : a.play? l cap schedule = some b) : P b := by
  induction schedule generalizing a with
  | nil =>
      obtain rfl := Option.some.inj hplay
      exact ha
  | cons i schedule ih =>
      obtain ⟨next, hnext, hrest⟩ := Option.bind_eq_some_iff.1 hplay
      exact ih (hstep ha hnext) hrest

/-- Results that can be handed out stay so. -/
theorem settled_step {i : Nat} (h : b.step? l cap i = some b') : b.settled ≤ b'.settled := by
  obtain ⟨before, path, stage, after, hrow, -, hopen, -, rfl⟩ := step?_eq_some h
  have hstop : ((path, stage) :: after).takeWhile (fun entry => entry.2.isDone) = [] :=
    List.takeWhile_cons_of_neg (by simp [hopen])
  rw [settled, settled, hrow, List.takeWhile_append, List.takeWhile_append, hstop]
  split
  · simp
  · exact Nat.le_refl _

/-- Nothing has been done for the paths that are beyond the cap. -/
def Capped (room : Nat) (b : Batch) : Prop :=
  ∀ i entry, b.row[i]? = some entry → b.settled + room ≤ i → entry.2 = .waiting

theorem Capped.step {n i : Nat} (hb : b.Capped (n + 1))
    (hstep : b.step? l (some (n + 1)) i = some b') : b'.Capped (n + 1) := by
  have hsettled := settled_step hstep
  obtain ⟨before, path, stage, after, hrow, hi, -, hadmits, rfl⟩ := step?_eq_some hstep
  have hroom : i < b.settled + (n + 1) := of_decide_eq_true hadmits
  intro j entry hentry hj
  refine hb j entry ?_ (by omega)
  -- There was room for the path at `i`, so the one at `j` is another and has not changed.
  have hbeyond : before.length + 1 ≤ j := by omega
  rw [hrow]
  rw [List.append_cons, List.getElem?_append_right (by simpa using hbeyond)] at hentry ⊢
  simpa using hentry

/-- No more paths are under way than the cap says. -/
theorem capped_play {n : Nat} {schedule : List Nat}
    (hplay : (start paths s).play? l (some (n + 1)) schedule = some b) : b.Capped (n + 1) := by
  refine play?_keeps (fun ha hstep => ha.step hstep) (fun i entry hentry _ => ?_) hplay
  rw [start, List.getElem?_map] at hentry
  obtain ⟨path, -, rfl⟩ := Option.map_eq_some_iff.1 hentry
  rfl

/-- There is always room for the first path that is not done. -/
theorem step?_first {done rest : List (String × PathStage)}
    (hdone : ∀ entry ∈ done, entry.2.isDone = true) (path : String) {stage : PathStage}
    (hopen : stage.isDone = false) (s : Session) :
    step? l cap done.length ⟨done ++ (path, stage) :: rest, s⟩ =
      some ⟨done ++ (path, (l.advance path stage s).1) :: rest,
        (l.advance path stage s).2⟩ := by
  have hsettled : settled ⟨done ++ (path, stage) :: rest, s⟩ = done.length := by
    rw [settled, List.takeWhile_append_of_pos hdone, List.takeWhile_cons_of_neg (by simp [hopen]),
      List.append_nil]
  have hadmits : admits cap ⟨done ++ (path, stage) :: rest, s⟩ done.length = true := by
    unfold admits
    split
    · rw [hsettled]
      simp
    · rfl
  rw [step?, List.getElem?_append_right (Nat.le_refl _), Nat.sub_self, List.getElem?_cons_zero]
  dsimp only
  rw [hopen, hadmits, List.set_append_right _ _ (Nat.le_refl _), Nat.sub_self, List.set_cons_zero]
  rfl

theorem play?_append (xs ys : List Nat) (b : Batch) :
    b.play? l cap (xs ++ ys) = (b.play? l cap xs).bind (play? l cap ys) := by
  induction xs generalizing b with
  | nil => rfl
  | cons i xs ih =>
      rw [List.cons_append, play?, play?]
      cases b.step? l cap i with
      | none => rfl
      | some b => exact ih b

/-- As long as not all paths are done, one of them can be taken further. -/
theorem exists_step (h : b.isFinished = false) (l : Linter) (cap : Option Nat) :
    ∃ i b', b.step? l cap i = some b' := by
  rw [isFinished, List.all_eq_false] at h
  obtain ⟨entry, hentry, hopen⟩ := h
  obtain ⟨first, hfirst⟩ := Option.isSome_iff_exists.1
    (List.find?_isSome (p := fun entry : String × PathStage => !entry.2.isDone).2
      ⟨entry, hentry, by simpa using hopen⟩)
  obtain ⟨hown, done, rest, hrow, hdone⟩ := List.find?_eq_some_iff_append.1 hfirst
  obtain ⟨path, stage⟩ := first
  obtain ⟨row, s⟩ := b
  obtain rfl : row = done ++ (path, stage) :: rest := hrow
  refine ⟨done.length, _, step?_first (fun entry hentry => ?_) path (by simpa using hown) s⟩
  simpa using hdone entry hentry

def left (b : Batch) : Nat :=
  (b.row.map fun entry => entry.2.left).sum

theorem left_start (paths : List String) (s : Session) :
    (start paths s).left = 3 * paths.length := by
  induction paths with
  | nil => rfl
  | cons path paths ih =>
      have hcons : (start (path :: paths) s).left = 3 + (start paths s).left := rfl
      rw [hcons, ih, List.length_cons]
      omega

theorem left_step {i : Nat} (h : b.step? l cap i = some b') : b'.left + 1 = b.left := by
  obtain ⟨before, path, stage, after, hrow, -, hopen, -, rfl⟩ := step?_eq_some h
  have hleft := l.left_advance path hopen b.session
  rw [left, left, hrow]
  simp only [List.map_append, List.map_cons, List.sum_append, List.sum_cons]
  omega

theorem left_play {schedule : List Nat} (h : b.play? l cap schedule = some b') :
    schedule.length + b'.left = b.left := by
  induction schedule generalizing b with
  | nil =>
      obtain rfl := Option.some.inj h
      rw [List.length_nil, Nat.zero_add]
  | cons i schedule ih =>
      obtain ⟨next, hstep, hrest⟩ := Option.bind_eq_some_iff.1 h
      have hleft := left_step hstep
      have hplay := ih hrest
      rw [List.length_cons]
      omega

/-- One path after the other can be taken through all its stages. -/
theorem play?_lintFile {done rest : List (String × PathStage)}
    (hdone : ∀ entry ∈ done, entry.2.isDone = true) (path : String) (s : Session) :
    play? l cap [done.length, done.length, done.length] ⟨done ++ (path, .waiting) :: rest, s⟩ =
      some ⟨done ++ (path, .done (l.lintFile path s).1) :: rest, (l.lintFile path s).2⟩ := by
  have hall := l.advance_advance_advance path s
  obtain ⟨p, t, hfirst⟩ : ∃ p t, l.advance path .waiting s = (.prepared p, t) := ⟨_, _, rfl⟩
  obtain ⟨o, u, hsecond⟩ := l.advance_prepared path p t
  rw [hfirst] at hall
  dsimp only at hall
  rw [hsecond] at hall
  dsimp only at hall
  rw [play?, step?_first hdone path rfl, hfirst, Option.bind_some, play?,
    step?_first hdone path rfl, hsecond, Option.bind_some, play?, step?_first hdone path rfl, hall,
    Option.bind_some, play?]

/-- Linting one path after the other is one of the orders in which steps can be taken. -/
theorem exists_play?_lintEach (l : Linter) (cap : Option Nat) (paths : List String) (s : Session)
    {done : List (String × PathStage)} (hdone : ∀ entry ∈ done, entry.2.isDone = true) :
    ∃ schedule b, play? l cap schedule ⟨done ++ paths.map fun path => (path, .waiting), s⟩ =
        some b ∧ b.isFinished = true ∧
      b.results = (done.filterMap fun entry => entry.2.result?) ++ (l.lintEach paths s).1 ∧
      b.session = (l.lintEach paths s).2 := by
  induction paths generalizing s done with
  | nil =>
      refine ⟨[], _, rfl, ?_, ?_, rfl⟩
      · rw [isFinished, List.map_nil, List.append_nil, List.all_eq_true]
        exact hdone
      · rw [results, List.map_nil, List.append_nil, Linter.lintEach, List.append_nil]
  | cons path paths ih =>
      have hmore : ∀ entry ∈ done ++ [(path, PathStage.done (l.lintFile path s).1)],
          entry.2.isDone = true := by
        intro entry hentry
        rcases List.mem_append.1 hentry with hentry | hentry
        · exact hdone entry hentry
        · rw [List.mem_singleton.1 hentry]
          rfl
      obtain ⟨schedule, b, hplay, hfinished, hresults, hsession⟩ :=
        ih (l.lintFile path s).2 hmore
      rw [List.append_assoc, List.singleton_append] at hplay
      refine ⟨[done.length, done.length, done.length] ++ schedule, b, ?_, hfinished, ?_, hsession⟩
      · rw [List.map_cons, play?_append, play?_lintFile hdone, Option.bind_some, hplay]
      · rw [hresults, List.filterMap_append, List.append_assoc]
        rfl

/-- Paths that have their turns one after the other all come to an end. -/
theorem exists_play?_start (l : Linter) (cap : Option Nat) (paths : List String) (s : Session) :
    ∃ schedule b, (start paths s).play? l cap schedule = some b ∧ b.isFinished = true ∧
      b.results = (l.lintEach paths s).1 ∧ b.session = (l.lintEach paths s).2 := by
  have hnone : ∀ entry ∈ ([] : List (String × PathStage)), entry.2.isDone = true :=
    fun _ h => absurd h List.not_mem_nil
  exact exists_play?_lintEach l cap paths s hnone

/--
Paths among each other: each has come as far as it can have come on its own, and it finds what it
would find on its own; what belongs to none of them is as it was.
-/
structure Sound (l : Linter) (paths : List String) (s : Session) (b : Batch) : Prop where
  row : b.row.map Prod.fst = paths
  memo : ConfigMemo.Grown s.files s.memo b.session.memo
  rest : s.AgreeOn (s.files.placesOf paths) {path | path ∉ paths} b.session
  own {path : String} {stage : PathStage} (h : (path, stage) ∈ b.row) :
    ∃ a, Reaches l path s stage a ∧
      a.AgreeOn (Separate.others paths path s.files) {path} b.session

theorem sound_start (l : Linter) (paths : List String) (s : Session) :
    Sound l paths s (start paths s) := by
  refine ⟨?_, .refl _ _, .refl _ _ _, fun {path stage} h => ?_⟩
  · rw [start, List.map_map]
    exact List.map_id paths
  · obtain ⟨own, -, heq⟩ := List.mem_map.1 h
    obtain ⟨rfl, rfl⟩ := Prod.mk.inj heq
    exact ⟨s, .waiting, .refl _ _ _⟩

/-- Where the paths are distinct, what stands at another position belongs to another path. -/
theorem ne_of_nodup {before after : List (String × PathStage)} {path : String}
    (h : (before.map Prod.fst ++ path :: after.map Prod.fst).Nodup) {entry : String × PathStage}
    (hentry : entry ∈ before ∨ entry ∈ after) : path ≠ entry.1 := by
  rw [List.nodup_middle, List.nodup_cons, List.mem_append] at h
  rintro rfl
  apply h.1
  rcases hentry with hbefore | hafter
  · exact .inl (List.mem_map_of_mem hbefore)
  · exact .inr (List.mem_map_of_mem hafter)

/-- A step of one path keeps all paths sound. -/
theorem Sound.step (hb : Sound l paths s b) (h : l.Separate paths s) {i : Nat}
    (hstep : b.step? l cap i = some b') : Sound l paths s b' := by
  obtain ⟨before, path, stage, after, hrow, -, hopen, -, rfl⟩ := step?_eq_some hstep
  obtain ⟨a, hreaches, hagree⟩ := hb.own (hrow ▸ List.mem_append_right _ List.mem_cons_self)
  have hpaths : before.map Prod.fst ++ path :: after.map Prod.fst = paths := by
    rw [← hb.row, hrow, List.map_append, List.map_cons]
  have hpath : path ∈ paths := hpaths ▸ List.mem_append_right _ List.mem_cons_self
  obtain ⟨hstage, hown, hframe, hmemo⟩ :=
    h.advance hpath hreaches hopen hagree ⟨hb.rest.files, hb.memo⟩
  have hothers {entry : String × PathStage} (hentry : entry ∈ before ∨ entry ∈ after) :
      ∃ a, Reaches l entry.1 s entry.2 a ∧
        a.AgreeOn (Separate.others paths entry.1 s.files) {entry.1}
          (l.advance path stage b.session).2 := by
    have hne := ne_of_nodup (hpaths ▸ h.nodup) hentry
    have hthere : entry ∈ b.row := by
      rw [hrow, List.mem_append, List.mem_cons]
      exact hentry.imp_right .inr
    obtain ⟨a', hreaches', hagree'⟩ := hb.own hthere
    exact ⟨a', hreaches', hagree'.trans (Separate.frame_others hpath hne hframe)⟩
  refine ⟨?_, hmemo, ?_, fun {other next} hmem => ?_⟩
  · rw [List.map_append, List.map_cons, hpaths]
  · refine hb.rest.trans (hframe.mono (FileSystem.placesOf_mono _ (by simpa using hpath)) ?_)
    rintro key hkey rfl
    exact hkey hpath
  · rcases List.mem_append.1 hmem with hbefore | hrest
    · exact hothers (.inl hbefore)
    · rcases List.mem_cons.1 hrest with heq | hafter
      · obtain ⟨rfl, rfl⟩ := Prod.mk.inj heq
        rw [hstage]
        exact ⟨_, hreaches.advance hopen, hown⟩
      · exact hothers (.inr hafter)

theorem sound_play (h : l.Separate paths s) {schedule : List Nat}
    (hplay : (start paths s).play? l cap schedule = some b) : Sound l paths s b :=
  play?_keeps (fun hb hstep => hb.step h hstep) (sound_start l paths s) hplay

/-- A path that is done has the result that it has on its own. -/
theorem Sound.own_of_isFinished (hb : Sound l paths s b) (hfinished : b.isFinished = true)
    {entry : String × PathStage} (h : entry ∈ b.row) :
    entry.2 = .done (l.lintFile entry.1 s).1 ∧
      (l.lintFile entry.1 s).2.AgreeOn (Separate.others paths entry.1 s.files) {entry.1}
        b.session := by
  obtain ⟨path, stage⟩ := entry
  have hdone : stage.isDone = true := List.all_eq_true.1 hfinished _ h
  obtain ⟨a, hreaches, hagree⟩ := hb.own h
  cases hreaches with
  | done => exact ⟨rfl, hagree⟩
  | _ => cases hdone

theorem Sound.results_eq (hb : Sound l paths s b) (hfinished : b.isFinished = true) :
    b.results = paths.map fun path => (l.lintFile path s).1 := by
  have hall : b.results = b.row.map fun entry => (l.lintFile entry.1 s).1 := by
    rw [results, ← List.filterMap_eq_map]
    refine List.filterMap_congr fun entry hentry => ?_
    rw [(hb.own_of_isFinished hfinished hentry).1]
    rfl
  rw [hall, ← hb.row, List.map_map]
  rfl

/-- What a path that is done left behind is what it leaves on its own. -/
theorem Sound.agree_lintFile (hb : Sound l paths s b) (hfinished : b.isFinished = true)
    {path : String} (hpath : path ∈ paths) :
    (l.lintFile path s).2.AgreeOn (Separate.others paths path s.files) {path} b.session := by
  rw [← hb.row] at hpath
  obtain ⟨entry, hentry, rfl⟩ := List.mem_map.1 hpath
  exact (hb.own_of_isFinished hfinished hentry).2

/-- Two orders of steps leave the same behind. -/
theorem Sound.session_agree (hb : Sound l paths s b) (hb' : Sound l paths s b')
    (h : l.Separate paths s) (hfinished : b.isFinished = true) (hfinished' : b'.isFinished = true) :
    b.session.AgreeOn ∅ Set.univ b'.session := by
  have hown {path : String} (hpath : path ∈ paths) :
      b.session.AgreeOn (Separate.others paths path s.files) {path} b'.session :=
    (hb.agree_lintFile hfinished hpath).symm.trans (hb'.agree_lintFile hfinished' hpath)
  have hrest := hb.rest.symm.trans hb'.rest
  have hkind := hrest.files.kind
  refine ⟨⟨hrest.files.home, hrest.files.locked, hkind, fun {names} _ => ?_⟩, hrest.now,
    hrest.cache.file, hrest.cache.strategy, hrest.cache.enabled, fun {path} _ => ?_,
    fun {path} _ => ?_⟩
  · by_cases hplace : names ∈ s.files.placesOf paths
    · obtain ⟨path, hpath, hnames⟩ := hplace
      refine (hown hpath).files.get fun hothers => ?_
      exact h.spares_others hpath names hnames hothers
    · exact hrest.files.get hplace
  · by_cases hpath : path ∈ paths
    · exact (hown hpath).cache.entry rfl
    · exact hrest.cache.entry hpath
  · by_cases hpath : path ∈ paths
    · exact (hown hpath).cache.visited rfl
    · exact hrest.cache.visited hpath

/-- Paths that are all done come to what they come to one after the other. -/
theorem lintAll_of_finished (h : l.Separate paths s) {schedule : List Nat}
    (hplay : (start paths s).play? l cap schedule = some b) (hfinished : b.isFinished = true) :
    b.results = (paths.map fun path => (l.lintFile path s).1) ∧
      Linter.collect b.results = (l.lintAll paths s).1 ∧
      b.session.AgreeOn ∅ Set.univ (l.lintAll paths s).2 := by
  have hsound := sound_play h hplay
  obtain ⟨order, b', hplay', hfinished', hresults', hsession'⟩ := exists_play?_start l cap paths s
  have hsound' := sound_play h hplay'
  have hresults := hsound.results_eq hfinished
  have hall : (l.lintEach paths s).1 = paths.map fun path => (l.lintFile path s).1 :=
    hresults'.symm.trans (hsound'.results_eq hfinished')
  refine ⟨hresults, ?_, ?_⟩
  · rw [hresults, ← hall]
    rfl
  · have hlast : (l.lintAll paths s).2 = b'.session := hsession'.symm
    rw [hlast]
    exact hsound.session_agree hsound' h hfinished hfinished'

/--
Paths that do not get into each other's way can be linted at the same time. Whatever the cap and
the order of their steps, the run comes to an end. Then each path has the result that it has on its
own from the start, in the order of the paths; files and cache are what a run leaves that lints one
path after the other; and the run fails exactly with the first error in the order of the paths that
is fatal.
-/
theorem interleaving_spec (h : l.Separate paths s) {schedule : List Nat}
    (hplay : (start paths s).play? l cap schedule = some b) :
    schedule.length ≤ 3 * paths.length ∧
    (b.isFinished = false → ∃ i next, b.step? l cap i = some next) ∧
    (b.isFinished = true →
      b.results = (paths.map fun path => (l.lintFile path s).1) ∧
      Linter.collect b.results = (l.lintAll paths s).1 ∧
      b.session.AgreeOn ∅ Set.univ (l.lintAll paths s).2 ∧
      ∀ e, Linter.collect b.results = .error e ↔
        ∃ before path after, paths = before ++ path :: after ∧
          (∀ other ∈ before, ∀ e', l.failure? other s = some e' → e'.isFatal = false) ∧
          l.failure? path s = some e ∧ e.isFatal = true) := by
  refine ⟨?_, fun hopen => exists_step hopen l cap, fun hfinished => ?_⟩
  · have hleft := left_play hplay
    rw [left_start] at hleft
    omega
  · obtain ⟨hresults, hcollect, hsession⟩ := lintAll_of_finished h hplay hfinished
    refine ⟨hresults, hcollect, hsession, fun e => ?_⟩
    rw [hresults]
    exact Linter.collect_map_eq_error

end Batch

namespace Linter

variable {l : Linter} {s : Session} {path file : String}

/-- The inputs of a run do not get into each other's way, unless one is a configuration file. -/
theorem separate_inputs (hs : s.files.Proper) (hcode : l.options.code = none)
    (hmemo : s.memo.Faithful)
    (hconfigs : ∀ path ∈ l.inputs s, ∀ file, l.LooksInto path s file →
      ∀ other ∈ l.inputs s, ¬s.files.SamePlace file other) : l.Separate (l.inputs s) s where
  code := hcode
  memo := hmemo
  spelled := fun {_} hpath => (inputs_spec hs).1 _ hpath
  nodup := nodup_inputs hs
  configs := fun {_} hpath {_} hfile => hconfigs _ hpath _ hfile

/-- Where a configuration has no bases, only the file that a search meets first is looked into. -/
theorem LooksInto.nearestFile?_eq (h : l.LooksInto path s file)
    (hfile : l.options.configFile = none)
    (hplain : ∀ loaded, (l.startingConfig (some path) s).1 = .ok loaded →
      loaded.config.bases = [] ∧ loaded.config.overrides = []) :
    SourcedConfig.nearestFile? s.files (ConfigMemo.startDir s.files path) = some file := by
  cases h with
  | named _ hnamed => cases hfile.symm.trans hnamed
  | nearest _ _ hnearest => exact hnearest
  | base hstart hleads _ =>
      obtain ⟨hbases, hoverrides⟩ := hplain _ hstart
      cases hleads with
      | config hown hleads =>
          cases hleads with
          | extending hleads =>
              cases hleads with
              | bases hb _ =>
                  rcases Config.Scope.mem_bases_forInput hown hb with hb | ⟨o, ho, _⟩
                  · exact absurd (hbases ▸ hb) List.not_mem_nil
                  · exact absurd (hoverrides ▸ ho) List.not_mem_nil

end Linter

/-- A configuration that fixes, over a red sheet, a blue one and one that ends too early. -/
def workshopFiles : FileSystem :=
  ⟨[(["w"], .directory),
    (["w", ".sheetlintrc"], .file
      (.text "\x7b\"rules\":\x7b\"no-red\":true,\"no-blue\":true\x7d,\"fix\":true\x7d") 0),
    (["w", "blue.css"], .file (.text "a \x7bcolor: blue\x7d") 0),
    (["w", "red.css"], .file (.text "a \x7bcolor: red\x7d") 0),
    (["w", "torn.css"], .file (.text "a \x7b") 0)], ["w"], 1, []⟩

def workshopOptions : Options :=
  { files := some ["*.css"], cache := some true, cacheStrategy := .content }

namespace Batch

/-- Two paths at a time: the red sheet is written back while the blue one is under way. -/
theorem interleaving_spec_workshop :
    ∃ l s b, Linter.make workshopOptions paintRegistry workshopFiles = .ok (l, s) ∧
      l.inputs s = ["/w/blue.css", "/w/red.css", "/w/torn.css"] ∧ l.Separate (l.inputs s) s ∧
      (start (l.inputs s) s).play? l (some 2) [0, 1, 1, 1, 0, 0, 2, 2, 2] = some b ∧
      b.isFinished = true ∧
      (b.session.files.readText "/w/red.css").toOption = some "a \x7bcolor: green\x7d" ∧
      b.session.cache.entries.keys = ["/w/red.css"] ∧
      b.results = ((l.inputs s).map fun path => (l.lintFile path s).1) ∧
      Linter.collect b.results = (l.lintAll (l.inputs s) s).1 ∧
      b.session.AgreeOn ∅ Set.univ (l.lintAll (l.inputs s) s).2 := by
  have hfacts : ((Linter.make workshopOptions paintRegistry workshopFiles).toOption.bind
      fun (l, s) => ((start (l.inputs s) s).play? l (some 2) [0, 1, 1, 1, 0, 0, 2, 2, 2]).map
        fun b => decide (s.files.Proper ∧
          l.inputs s = ["/w/blue.css", "/w/red.css", "/w/torn.css"] ∧
          (∀ path ∈ l.inputs s,
            SourcedConfig.nearestFile? s.files (ConfigMemo.startDir s.files path) =
              some "/w/.sheetlintrc" ∧
            ((l.startingConfig (some path) s).1.toOption.all fun loaded =>
              loaded.config.bases.isEmpty && loaded.config.overrides.isEmpty) = true ∧
            ¬s.files.SamePlace "/w/.sheetlintrc" path) ∧
          b.isFinished = true ∧
          (b.session.files.readText "/w/red.css").toOption = some "a \x7bcolor: green\x7d" ∧
          b.session.cache.entries.keys = ["/w/red.css"])) = some true := by
    decide +kernel
  cases hmade : Linter.make workshopOptions paintRegistry workshopFiles with
  | error e =>
      rw [hmade] at hfacts
      cases hfacts
  | ok made =>
      obtain ⟨l, s⟩ := made
      obtain ⟨hoptions, -, -, -, hmemo, -⟩ := Linter.make_spec hmade
      rw [hmade] at hfacts
      obtain ⟨b, hplay, hdecided⟩ := Option.map_eq_some_iff.1 hfacts
      obtain ⟨hproper, hinputs, hconfigs, hfinished, htext, hkeys⟩ := of_decide_eq_true hdecided
      have hseparate : l.Separate (l.inputs s) s := by
        refine Linter.separate_inputs hproper (hoptions ▸ rfl)
          (hmemo ▸ ConfigMemo.faithful_empty) fun path hpath file hfile other hother => ?_
        obtain ⟨hnearest, hplain, -⟩ := hconfigs path hpath
        have hfound := hfile.nearestFile?_eq (hoptions ▸ rfl) fun loaded hloaded => by
          rw [hloaded] at hplain
          have hempty : (loaded.config.bases.isEmpty && loaded.config.overrides.isEmpty) = true :=
            hplain
          simpa using hempty
        obtain rfl := Option.some.inj (hnearest.symm.trans hfound)
        exact (hconfigs other hother).2.2
      obtain ⟨-, -, hdone⟩ := interleaving_spec hseparate hplay
      obtain ⟨hresults, hcollect, hsession, -⟩ := hdone hfinished
      exact ⟨l, s, b, rfl, hinputs, hseparate, hplay, hfinished, htext, hkeys, hresults, hcollect,
        hsession⟩

end Batch

end StyleAudit
