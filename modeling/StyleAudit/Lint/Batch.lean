import StyleAudit.Lint.Run

/-!
Paths that are linted at the same time.

All paths of a run share one session. Each goes through its stages by itself, and the steps of
different paths come in any order. A cap says how many paths are on their way at most: results are
handed out in the order of the paths, and as many paths are taken up as there is room behind the
results that were handed out. A cap of zero is none.
-/

namespace StyleAudit

namespace PathStage

def isDone : PathStage → Bool
  | .done _ => true
  | _ => false

def result? : PathStage → Option (Except LintError LintResult)
  | .done r => some r
  | _ => none

end PathStage

/-- Paths with how far they have come, in a session that they share. -/
structure Batch where
  row : List (String × PathStage)
  session : Session

namespace Batch

def start (paths : List String) (s : Session) : Batch :=
  ⟨paths.map fun path => (path, .waiting), s⟩

/-- The number of results that can be handed out in the order of the paths. -/
def settled (b : Batch) : Nat :=
  (b.row.takeWhile fun entry => entry.2.isDone).length

/-- Whether there is room for a path by its position. -/
def admits (cap : Option Nat) (b : Batch) (i : Nat) : Bool :=
  match cap with
  | some (n + 1) => i < b.settled + (n + 1)
  | _ => true

/-- Takes the path at a position one step further, if it is on its way or there is room for it. -/
def step? (l : Linter) (cap : Option Nat) (i : Nat) (b : Batch) : Option Batch :=
  match b.row[i]? with
  | none => none
  | some (path, stage) =>
    if stage.isDone || !b.admits cap i then none
    else
      let (stage, s) := l.advance path stage b.session
      some ⟨b.row.set i (path, stage), s⟩

/-- Takes steps at the positions that a schedule lists. -/
def play? (l : Linter) (cap : Option Nat) : List Nat → Batch → Option Batch
  | [], b => some b
  | i :: schedule, b => (b.step? l cap i).bind (play? l cap schedule)

def isFinished (b : Batch) : Bool :=
  b.row.all fun entry => entry.2.isDone

/-- The results that there are, in the order of the paths. -/
def results (b : Batch) : List (Except LintError LintResult) :=
  b.row.filterMap fun entry => entry.2.result?

/-- What a batch comes to that is finished. -/
def outcome? (b : Batch) : Option (Except LintError (List LintResult) × Session) :=
  if b.isFinished then some (Linter.collect b.results, b.session) else none

end Batch

/-- Lints the files that the options name, as many at the same time as they allow. A schedule says
in which order the files get on; there is nothing if it leaves one of them on its way. -/
def Linter.lintTogether (l : Linter) (schedule : List Nat) (s : Session) :
    Option (Except LintError Aggregate × Session) :=
  let s := l.discardCache { s with files := s.files.tick }
  match Discovery.run s.files (l.options.files.getD []) l.globDir l.options.keepExcluded with
  | .error e => some (.error e, s)
  | .ok found =>
    let paths := found.files.filter fun path => !l.ignorer.ignoresUnder path l.globDir
    if paths.isEmpty then some (l.close (l.lintNothing found s))
    else
      (((Batch.start paths s).play? l l.options.concurrency schedule).bind Batch.outcome?).map
        l.close

end StyleAudit
