import StyleAudit.Lint.Source

/-!
Errors that end a run.

A malformed sheet or a file that cannot be read spoils the result of one input. Whatever goes
wrong while the configuration of an input is looked up or worked out ends the run instead, as
`Linter.failsFatally_configFor` says.
-/

namespace StyleAudit

def FailsWith {α : Type} (P : LintError → Prop) (r : Except LintError α) : Prop :=
  ∀ e, r = .error e → P e

namespace FailsWith

variable {α : Type} {P Q : LintError → Prop}

theorem ok (a : α) : FailsWith P (.ok a) := nofun

theorem error {e : LintError} (h : P e) : FailsWith (α := α) P (.error e) := by
  rintro _ ⟨⟩
  exact h

theorem mono {r : Except LintError α} (h : FailsWith P r) (hpq : ∀ e, P e → Q e) :
    FailsWith Q r :=
  fun e he => hpq e (h e he)

end FailsWith

open FailsWith (ok error)

abbrev FailsFatally {α : Type} (r : Except LintError α) : Prop :=
  FailsWith (fun e => e.isFatal = true) r

def LintError.isCircle : LintError → Bool
  | .config (.circularExtends _) => true
  | _ => false

/-- An error of a configuration by itself: it ends the run, and is about no circle of bases. -/
structure LintError.OfConfig (e : LintError) : Prop where
  fatal : e.isFatal = true
  noCircle : e.isCircle = false

theorem Override.failsWith_applies (o : Override) (rootDir input : String) :
    FailsWith LintError.OfConfig (o.applies rootDir input) := by
  rw [applies]
  split
  · exact error ⟨rfl, rfl⟩
  · dsimp only
    split
    · exact error ⟨rfl, rfl⟩
    · split
      · exact ok _
      · split
        · exact error ⟨rfl, rfl⟩
        · exact ok _

namespace Config

theorem failsWith_foldOverrides (rootDir input : String) (c : Config) (os : List Override) :
    FailsWith LintError.OfConfig (foldOverrides rootDir input c os) := by
  induction os generalizing c with
  | nil => exact ok c
  | cons o os ih =>
      have happlies := o.failsWith_applies rootDir input
      rw [foldOverrides]
      split
      case h_1 e heq => exact error (happlies e heq)
      case h_2 => exact ih _
      case h_3 => exact ih _

theorem failsWith_forInput (s : Scope) (c : Config) :
    FailsWith LintError.OfConfig (s.forInput c) := by
  unfold Scope.forInput
  split
  case h_2 => exact ok c
  case h_1 path _ =>
      have hfold := failsWith_foldOverrides s.rootDir path { c with overrides := [] } c.overrides
      rw [forInput]
      split
      case h_1 e heq => exact error (hfold e heq)
      case h_2 => exact ok _

theorem failsWith_ofText (text : String) : FailsWith LintError.OfConfig (ofText text) := by
  have hjson (v : Json) : FailsWith LintError.OfConfig (ofJson v) := by
    rw [ofJson]
    split
    · exact error ⟨rfl, rfl⟩
    · split
      · exact ok _
      · exact error ⟨rfl, rfl⟩
  rw [ofText]
  split
  · exact error ⟨rfl, rfl⟩
  · exact hjson _
  · exact hjson _

end Config

theorem SourcedConfig.failsWith_read (fs : FileSystem) (path : String) :
    FailsWith LintError.OfConfig (read fs path) := by
  rw [read]
  split
  · exact error ⟨rfl, rfl⟩
  · rename_i text _
    have htext := Config.failsWith_ofText text
    split
    · rename_i e heq
      refine error ?_
      have he := htext e heq
      cases e <;> first | exact ⟨rfl, rfl⟩ | exact he
    · exact ok _

theorem ConfigMemo.failsWith_load (m : ConfigMemo) (fs : FileSystem) (path : String) :
    FailsWith LintError.OfConfig (m.load fs path) := by
  rw [load]
  split
  · exact ok _
  · exact SourcedConfig.failsWith_read fs path

theorem ConfigMemo.failsWith_search (m : ConfigMemo) (fs : FileSystem) (path : String) :
    FailsWith LintError.OfConfig (m.search fs path).1 := by
  have hsearch (dir : String) : FailsWith LintError.OfConfig (SourcedConfig.search fs dir) := by
    rw [SourcedConfig.search]
    split
    · exact ok _
    · rename_i file _
      have hread := SourcedConfig.failsWith_read fs file
      cases heq : SourcedConfig.read fs file with
      | error e => exact error (hread e heq)
      | ok found => exact ok _
  rw [search]
  split
  · exact ok _
  · split
    · rename_i e heq
      exact error (hsearch _ e heq)
    · exact ok _

theorem BaseSources.failsWith_find {s : BaseSources}
    (hs : ∀ path, FailsWith LintError.OfConfig (s.load path)) (name dir : String) :
    FailsWith LintError.OfConfig (s.find name dir) := by
  rw [find]
  split
  · exact ok _
  · split
    · exact error ⟨rfl, rfl⟩
    · dsimp only
      split
      · rename_i e heq
        exact error (hs _ e heq)
      · exact ok _

namespace Config

section Extends

variable {s : Scope} {enter : Entering}

theorem failsFatally_foldBases {bases : List Base} (start : Config) (t : Trail)
    {work : (b : Base) → b ∈ bases → Trail → Except LintError Config × Trail}
    (h : ∀ b hb t, FailsFatally (work b hb t).1) :
    FailsFatally (foldBases start t bases work).1 := by
  induction bases generalizing start t with
  | nil => exact ok _
  | cons b bases ih =>
      have hfirst := h b List.mem_cons_self t
      rw [foldBases]
      split
      case h_1 e t₁ heq =>
          rw [heq] at hfirst
          exact hfirst
      case h_2 => exact ih _ _ fun b hb => h b (List.mem_cons_of_mem _ hb)

mutual

theorem failsFatally_extendWith (hs : ∀ path, FailsWith LintError.OfConfig (s.sources.load path))
    (henter : ∀ name dir found t, FailsFatally (enter name dir found t).1) (dir : String)
    (c : Config) (t : Trail) : FailsFatally (extendWith s enter dir c t).1 := by
  rw [extendWith]
  split
  case h_1 e heq => exact error (failsWith_forInput s c e heq).fatal
  case h_2 own hown =>
      have hbase (b : Base) (hb : b ∈ own.bases) (t : Trail) :
          FailsFatally (extendBase s enter dir b t).1 := by
        have := Scope.sizeOf_lt hown hb
        exact failsFatally_extendBase hs henter dir b t
      have hfold := failsFatally_foldBases { own with bases := [] } t hbase
      dsimp only
      split
      case h_1 e t₁ heq =>
          rw [heq] at hfold
          exact hfold
      case h_2 => exact ok _
termination_by sizeOf c

theorem failsFatally_extendBase (hs : ∀ path, FailsWith LintError.OfConfig (s.sources.load path))
    (henter : ∀ name dir found t, FailsFatally (enter name dir found t).1) (dir : String)
    (b : Base) (t : Trail) : FailsFatally (extendBase s enter dir b t).1 := by
  match b with
  | .inline inner =>
      rw [extendBase]
      exact failsFatally_extendWith hs henter dir inner t
  | .lookup name =>
      have hfind := BaseSources.failsWith_find hs name dir
      rw [extendBase]
      dsimp only
      split
      case h_1 e heq => exact error (hfind e heq).fatal
      case h_2 found _ =>
          split
          · exact error rfl
          · split
            · exact error rfl
            · exact henter _ _ _ _
termination_by sizeOf b

end

theorem failsFatally_extend (hs : ∀ path, FailsWith LintError.OfConfig (s.sources.load path))
    (budget : Nat) (dir : String) (c : Config) (t : Trail) :
    FailsFatally (extend s budget dir c t).1 := by
  induction budget generalizing dir c t with
  | zero =>
      refine failsFatally_extendWith hs (fun _ _ _ _ => ?_) dir c t
      rintro _ ⟨⟩
      rfl
  | succ budget ih =>
      refine failsFatally_extendWith hs (fun _ dir found t => ?_) dir c t
      exact ih (found.loaded.dir?.getD dir) found.loaded.config (t.enter found.key)

end Extends

end Config

theorem ConfigContext.failsFatally_augment (x : ConfigContext) (l : SourcedConfig)
    (input : Option String) : FailsFatally (x.augment l input).1 :=
  Config.failsFatally_extend (fun path => x.memo.failsWith_load x.files path) _ _ _ _

theorem ConfigContext.failsFatally_resolve (x : ConfigContext) (l : SourcedConfig)
    (input : Option String) : FailsFatally (x.resolve l input).2.1 := by
  have haugment := x.failsFatally_augment l input
  unfold resolve
  split
  case h_1 e t heq => exact error (haugment e (by rw [heq]))
  case h_2 c t _ =>
      dsimp only
      rw [complete]
      split
      · exact error rfl
      · split
        · exact ok _
        · exact error rfl

namespace Linter

theorem failsFatally_startingConfig (l : Linter) (path : Option String) (s : Session) :
    FailsFatally (l.startingConfig path s).1 := by
  rw [startingConfig]
  split
  · exact ok _
  · exact (s.memo.failsWith_load _ _).mono fun _ h => h.fatal
  · have hsearch := s.memo.failsWith_search s.files (path.getD l.cwd)
    split
    case h_1 e m heq => exact error (hsearch e (by rw [heq])).fatal
    case h_2 => exact ok _
    case h_3 m heq =>
        split
        case isFalse => exact error rfl
        case isTrue =>
            have hagain := m.failsWith_search s.files l.cwd
            split
            case h_1 e m heq => exact error (hagain e (by rw [heq])).fatal
            case h_2 => exact ok _
            case h_3 => exact error rfl

/-- An input whose configuration cannot be found or worked out ends the run. -/
theorem failsFatally_configFor (l : Linter) (path : Option String) (s : Session) :
    FailsFatally (l.configFor path s).1 := by
  have hstart := l.failsFatally_startingConfig path s
  rw [configFor]
  split
  case h_1 e s₁ heq => exact error (hstart e (by rw [heq]))
  case h_2 => exact ConfigContext.failsFatally_resolve _ _ _

end Linter

end StyleAudit
