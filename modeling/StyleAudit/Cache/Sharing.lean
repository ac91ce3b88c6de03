import StyleAudit.Cache.Store

/-!
Caches that share a file.

Several caches can be kept in one file, each with its own entries in memory. They work one after
the other: each operation concerns one of them, and the file.
-/

namespace StyleAudit

namespace Cache

/-- What a cache can be asked to do. -/
inductive Operation where
  | record (path : String) (now : CacheEntry)
  | evict (path : String)
  | check (path : String) (now : CacheEntry)
  | clear
  | load
  | save
  | reconcile
  | destroy
  | enable
  | disable
deriving DecidableEq, Repr

/-- What a cache answers. -/
inductive Reply where
  | done
  /-- Whether an input is known to be clean. -/
  | clean (known : Bool)
  | failed (e : CacheError)
deriving DecidableEq, Repr

def Reply.ofResult : Except CacheError Unit → Reply
  | .ok () => .done
  | .error e => .failed e

/-- Does what a cache is asked to do. -/
def perform (c : Cache) (fs : FileSystem) : Operation → Cache × FileSystem × Reply
  | .record path now => (c.record path now, fs, .done)
  | .evict path => (c.evict path, fs, .done)
  | .check path now =>
    let (known, c) := c.check path now
    (c, fs, .clean known)
  | .clear => (c.clear, fs, .done)
  | .load =>
    match c.load fs with
    | .ok c => (c, fs, .done)
    | .error e => (c, fs, .failed e)
  | .save =>
    let (fs, r) := c.save fs
    (c, fs, .ofResult r)
  | .reconcile =>
    let (c, fs, r) := c.reconcile fs
    (c, fs, .ofResult r)
  | .destroy =>
    let (c, fs, r) := c.destroy fs
    (c, fs, .ofResult r)
  | .enable => (c.enable, fs, .done)
  | .disable => (c.disable, fs, .done)

end Cache

/-- Caches by their names, and the files among which theirs is. -/
structure Sharing (ι : Type) where
  caches : ι → Cache
  files : FileSystem

namespace Sharing

variable {ι : Type} [DecidableEq ι]

/-- Caches without entries that are kept in one file. -/
def start (file : String) (strategy : ι → CacheStrategy) (fs : FileSystem) : Sharing ι :=
  ⟨fun i => Cache.fresh file (strategy i), fs⟩

/-- What the cache `i` answers, and what its operation leaves. -/
def step (x : Sharing ι) (i : ι) (op : Cache.Operation) : Cache.Reply × Sharing ι :=
  let (c, fs, reply) := (x.caches i).perform x.files op
  (reply, ⟨fun j => if j = i then c else x.caches j, fs⟩)

end Sharing

end StyleAudit
