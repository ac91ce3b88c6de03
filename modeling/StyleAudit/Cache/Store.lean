import StyleAudit.Digest.Blake3
import StyleAudit.FileSystem

/-!
The cache of clean inputs.

An entry says that an input with a certain fingerprint was found clean under a configuration with
a certain hash. Entries are kept by path. A run marks the paths that it looks at, so that what it
did not look at can be dropped before the cache is saved.
-/

namespace StyleAudit

structure Cache where
  /-- The file in which the cache is kept between runs. -/
  file : String
  strategy : CacheStrategy
  entries : Table CacheEntry
  /-- The paths that were looked at since the cache was loaded. -/
  visited : List String
  /-- A cache that is off never has an entry and is never saved. -/
  enabled : Bool
deriving Repr

namespace Cache

/-- The file name in the working directory when no other place is given. -/
def defaultFile : String := ".sheetlintcache"

/-- The file name in a directory that is given as the place. -/
def fileIn (cwd : String) : String :=
  ".cache_" ++ String.ofList ((fingerprint cwd).toList.take 8)

/-- The cache file of runs in a directory. A place that is a directory gets a file inside it. -/
def locationIn (fs : FileSystem) (cwd : String) : Option String → String
  | none => Path.join cwd defaultFile
  | some place =>
    let path := Path.join cwd place
    if fs.isDirectory path || place.toList.getLast? == some '/' then Path.join path (fileIn cwd)
    else path

/-- A cache without entries that is on. -/
def fresh (file : String) (strategy : CacheStrategy) : Cache :=
  { file := file, strategy := strategy, entries := [], visited := [], enabled := true }

def disable (c : Cache) : Cache := { c with enabled := false }

def enable (c : Cache) : Cache := { c with enabled := true }

/-- The text from which a fingerprint by metadata is taken. -/
def stamp (modified size : Nat) : String :=
  toString modified ++ ":" ++ toString size

/-- The fingerprint of an input with a certain text. -/
def fingerprintOf (c : Cache) (fs : FileSystem) (path text : String) :
    Except CacheError String :=
  match c.strategy with
  | .content => .ok (fingerprint text)
  | .metadata =>
    match fs.stat path with
    | .ok (.file content modified) => .ok (fingerprint (stamp modified content.size))
    | .ok .directory => .ok (fingerprint (stamp 0 0))
    | .error fault => .error (.unreadable (path ++ ": " ++ fault.message))

def get? (c : Cache) (path : String) : Option CacheEntry :=
  if c.enabled then c.entries.find? path else none

/-- Marks a path as looked at. -/
def visit (c : Cache) (path : String) : Cache :=
  if c.visited.contains path then c else { c with visited := c.visited ++ [path] }

/-- Whether an input is known to be clean as it is. -/
def isClean (c : Cache) (path : String) (now : CacheEntry) : Bool :=
  c.get? path == some now

/-- Looks an input up and marks its path. -/
def check (c : Cache) (path : String) (now : CacheEntry) : Bool × Cache :=
  if c.enabled then (c.isClean path now, c.visit path) else (false, c)

/-- Records that an input is clean. -/
def record (c : Cache) (path : String) (now : CacheEntry) : Cache :=
  if c.enabled then { c with entries := c.entries.insertSorted path now }.visit path else c

def evict (c : Cache) (path : String) : Cache :=
  { c with entries := c.entries.erase path }

@[simp] theorem enabled_visit (c : Cache) (path : String) :
    (c.visit path).enabled = c.enabled := by
  rw [visit]
  split <;> rfl

@[simp] theorem entries_visit (c : Cache) (path : String) :
    (c.visit path).entries = c.entries := by
  rw [visit]
  split <;> rfl

/-- What is recorded is found again, and nothing else changes. -/
theorem get?_record {c : Cache} (h : c.enabled) (path other : String) (now : CacheEntry) :
    (c.record path now).get? other = if path = other then some now else c.get? other := by
  simp [record, get?, h, Table.find?_insertSorted]

/-- What is forgotten is not found, and nothing else changes. -/
theorem get?_evict (c : Cache) (path other : String) :
    (c.evict path).get? other = if path = other then none else c.get? other := by
  by_cases h : c.enabled <;> simp [evict, get?, h, Table.find?_erase]

/-- A cache that is off has no entry for anything. -/
theorem get?_eq_none {c : Cache} (h : c.enabled = false) (path : String) :
    c.get? path = none := by
  simp [get?, h]

def clear (c : Cache) : Cache :=
  { c with entries := [], visited := [] }

/-- Whether bytes are a cache without entries, be it one that was saved or not. -/
def isBlank (bytes : List UInt8) : Bool :=
  12 ≤ bytes.length && bytes.length % 4 == 0 && (bytes.drop (bytes.length - 8)).all (· == 0)

/-- The entries that a file holds, if it is a cache. -/
def entriesIn? : Content → Option (Table CacheEntry)
  | .cache entries => some entries
  | .binary bytes => if isBlank bytes then some [] else none
  | .text text => if isBlank text.toUTF8.toList then some [] else none

/-- What is saved for a cache is read back. -/
theorem entriesIn?_ofEntries (t : Table CacheEntry) : entriesIn? (.ofEntries t) = some t := by
  cases t with
  | nil => decide +kernel
  | cons entry entries => rfl

/-- Takes over the entries of the cache file. Without a file nothing changes. -/
def load (c : Cache) (fs : FileSystem) : Except CacheError Cache :=
  if !c.enabled || !fs.has c.file then .ok c
  else
    match fs.read c.file with
    | .ok content =>
      match entriesIn? content with
      | some entries => .ok { c with entries := entries, visited := [] }
      | none => .error .corrupted
    | .error fault => .error (.file fault)

/-- The file that is written first and then moved onto the cache file. -/
def draftFile (c : Cache) : String :=
  Path.withExtension c.file "tmp"

/-- Writes the cache file. A draft that cannot be moved to its place stays behind. -/
def save (c : Cache) (fs : FileSystem) : FileSystem × Except CacheError Unit :=
  if !c.enabled then (fs, .ok ())
  else
    let made := match Path.parent? c.file with
      | some dir => fs.makeDirectory dir
      | none => (fs, none)
    match made with
    | (fs, some fault) => (fs, .error (.file fault))
    | (fs, none) =>
      match fs.write c.draftFile (.ofEntries c.entries) with
      | .error fault => (fs, .error (.file fault))
      | .ok fs =>
        match fs.rename c.draftFile c.file with
        | .error fault => (fs, .error (.file fault))
        | .ok fs => (fs, .ok ())

/-- Drops the entries of paths that were not looked at. -/
def prune (c : Cache) : Cache :=
  { c with entries := c.entries.filter fun (path, _) => c.visited.contains path }

/-- Drops what was not looked at and saves the rest. -/
def reconcile (c : Cache) (fs : FileSystem) : Cache × FileSystem × Except CacheError Unit :=
  if c.enabled then (c.prune, c.prune.save fs) else (c, fs, .ok ())

/-- Forgets everything and removes the cache file, if there is one. -/
def destroy (c : Cache) (fs : FileSystem) : Cache × FileSystem × Except CacheError Unit :=
  match fs.remove c.file with
  | .ok fs => (c.clear, fs, .ok ())
  | .error .missing => (c.clear, fs, .ok ())
  | .error fault => (c.clear, fs, .error (.file fault))

end Cache

end StyleAudit
