import StyleAudit.Cache.Entry
import StyleAudit.Path

/-!
A file system held in memory.

A file is found under the names on the way from the root to it. A path is followed name by name,
and everything on the way has to be a directory; so a path through `..` needs the directory that
it leaves again. There are no links, so a place has one list of names.

A directory can be locked. What is in it can still be read, and its files can be written anew, but
nothing can be made in it, moved into or out of it, or removed from it.
-/

namespace StyleAudit

/-- What a file holds. -/
inductive Content where
  | text (text : String)
  /-- Bytes that are no text. -/
  | binary (bytes : List UInt8)
  /-- A cache that was saved with some entries. Its bytes are no text. -/
  | cache (entries : Table CacheEntry)
deriving DecidableEq, Repr

namespace Content

def decode? (bytes : List UInt8) : Option String :=
  String.fromUTF8? ⟨bytes.toArray⟩

/-- Bytes are taken as text wherever they are text. -/
def ofBytes (bytes : List UInt8) : Content :=
  match decode? bytes with
  | some s => .text s
  | none => .binary bytes

/-- The text that is saved for a cache without entries. -/
def noEntries : String :=
  String.ofList ('\x01' :: List.replicate 11 '\x00')

/-- What is saved for a cache with some entries, or with none. -/
def ofEntries : Table CacheEntry → Content
  | [] => .text noEntries
  | entry :: entries => .cache (entry :: entries)

theorem ofEntries_eq_cache {t u : Table CacheEntry} (h : ofEntries t = .cache u) : u = t := by
  cases t with
  | nil => cases h
  | cons entry entries => exact (Content.cache.inj h).symm

def text? : Content → Option String
  | .text s => some s
  | _ => none

/-- The length in bytes; that of a cache with entries plays no role, as it is no text. -/
def size : Content → Nat
  | .text s => s.utf8ByteSize
  | .binary bytes => bytes.length
  | .cache _ => 0

/-- Splits at every mark. What follows the last one is a part unless it is empty. -/
def splitLines {α : Type} [DecidableEq α] (mark : α) : List α → List (List α)
  | [] => []
  | a :: as =>
    if a = mark then [] :: splitLines mark as
    else
      match splitLines mark as with
      | [] => [[a]]
      | line :: lines => (a :: line) :: lines

/-- A line without the carriage return at its end. -/
def dropReturn (line : List Char) : String :=
  match line.reverse with
  | '\r' :: rest => String.ofList rest.reverse
  | _ => String.ofList line

/-- The lines of a file; a line that is no text is none. -/
def lines : Content → List (Option String)
  | .text s => (splitLines '\n' s.toList).map fun line => some (dropReturn line)
  | .binary bytes =>
    (splitLines 10 bytes).map fun line => (decode? line).map fun text => dropReturn text.toList
  | .cache _ => [none]

end Content

inductive Entry where
  | directory
  /-- A file with its time of change in nanoseconds. -/
  | file (content : Content) (modified : Nat)
deriving DecidableEq, Repr

structure FileSystem where
  /-- Everything below the root by the names on the way to it. -/
  entries : List (List String × Entry)
  /-- Where relative paths start. -/
  home : List String
  /-- The time that a file gets when it is written. -/
  now : Nat
  /-- The directories in which nothing can be made, moved or removed. -/
  locked : List (List String) := []
deriving Repr

namespace FileSystem

def find? (names : List String) : List (List String × Entry) → Option Entry
  | [] => none
  | (n, e) :: rest => if n = names then some e else find? names rest

/-- Puts an entry under some names in the place of an old one, or at the end. -/
def put (names : List String) (e : Entry) :
    List (List String × Entry) → List (List String × Entry)
  | [] => [(names, e)]
  | (n, old) :: rest => if n = names then (n, e) :: rest else (n, old) :: put names e rest

theorem find?_put (names other : List String) (e : Entry)
    (entries : List (List String × Entry)) :
    find? other (put names e entries) = if names = other then some e else find? other entries := by
  induction entries with
  | nil => rfl
  | cons p rest ih =>
    obtain ⟨n, old⟩ := p
    by_cases hn : n = names
    · subst hn
      by_cases ho : n = other <;> simp [put, find?, ho]
    · by_cases ho : n = other
      · subst ho
        simp [put, find?, hn, Ne.symm hn]
      · simp [put, find?, hn, ho, ih]

/-- What is found under some names; the root is always there. -/
def get? (fs : FileSystem) (names : List String) : Option Entry :=
  if names = [] then some .directory else find? names fs.entries

def set (fs : FileSystem) (names : List String) (e : Entry) : FileSystem :=
  { fs with entries := put names e fs.entries }

def erase (fs : FileSystem) (names : List String) : FileSystem :=
  { fs with entries := fs.entries.filter fun (n, _) => n != names }

/-- Setting one place leaves all others as they were. -/
theorem get?_set {names : List String} (h : names ≠ []) (fs : FileSystem) (e : Entry)
    (other : List String) :
    (fs.set names e).get? other = if names = other then some e else fs.get? other := by
  by_cases ho : other = []
  · subst ho
    simp [get?, h]
  · simp [get?, set, find?_put, ho]

/-- The longest name of a file, in bytes. -/
def nameLimit : Nat := 255

/-- The longest path, in bytes. -/
def pathLimit : Nat := 4095

def isLocked (fs : FileSystem) (dir : List String) : Bool :=
  fs.locked.contains dir

def isTooLong (name : List Char) : Bool :=
  nameLimit < (String.ofList name).utf8ByteSize

/-- Why a text is no path, whatever the file system holds. -/
def pathFault? (path : String) : Option FileFault :=
  if path = "" then some .missing
  else if path.toList.contains '\x00' then some .zeroByte
  else if pathLimit < path.utf8ByteSize then some .nameTooLong
  else none

/-- Where a path starts. -/
def origin (fs : FileSystem) (path : String) : List String :=
  if Path.isAbsolute path then [] else fs.home

def homePath (fs : FileSystem) : String :=
  "/" ++ String.intercalate "/" fs.home

/-- Follows the segments of a path from a place; each step needs a directory to start from. -/
def follow (fs : FileSystem) :
    List String → List (List Char) → Except FileFault (List String)
  | here, [] => .ok here
  | here, s :: rest =>
    match fs.get? here with
    | none => .error .missing
    | some (.file _ _) => .error .notDirectory
    | some .directory =>
      if Path.isVoid s then follow fs here rest
      else if s = ['.', '.'] then follow fs here.dropLast rest
      else if isTooLong s then .error .nameTooLong
      else follow fs (here ++ [String.ofList s]) rest

/-- The place that a path leads to; there need not be anything yet. -/
def locate (fs : FileSystem) (path : String) : Except FileFault (List String) :=
  match pathFault? path with
  | some fault => .error fault
  | none => fs.follow (fs.origin path) (Path.segments path.toList)

/-- What a path leads to. -/
def stat (fs : FileSystem) (path : String) : Except FileFault Entry := do
  match fs.get? (← fs.locate path) with
  | some e => .ok e
  | none => .error .missing

def isFile (fs : FileSystem) (path : String) : Bool :=
  match fs.stat path with
  | .ok (.file _ _) => true
  | _ => false

def isDirectory (fs : FileSystem) (path : String) : Bool :=
  match fs.stat path with
  | .ok .directory => true
  | _ => false

def has (fs : FileSystem) (path : String) : Bool :=
  match fs.stat path with
  | .ok _ => true
  | .error _ => false

def read (fs : FileSystem) (path : String) : Except FileFault Content := do
  match ← fs.stat path with
  | .file content _ => .ok content
  | .directory => .error .isDirectory

def readText (fs : FileSystem) (path : String) : Except FileFault String := do
  match (← fs.read path).text? with
  | some text => .ok text
  | none => .error .notText

/-- Writes a file, which may be a new one, with a given time of change. -/
def writeAt (fs : FileSystem) (path : String) (content : Content) (modified : Nat) :
    Except FileFault FileSystem := do
  let names ← fs.locate path
  match fs.get? names with
  | some .directory => .error .isDirectory
  | some (.file _ _) => .ok (fs.set names (.file content modified))
  | none =>
    if fs.isLocked names.dropLast then .error .denied
    else .ok (fs.set names (.file content modified))

def write (fs : FileSystem) (path : String) (content : Content) :
    Except FileFault FileSystem :=
  fs.writeAt path content fs.now

def remove (fs : FileSystem) (path : String) : Except FileFault FileSystem := do
  let names ← fs.locate path
  match fs.get? names with
  | some (.file _ _) =>
    if fs.isLocked names.dropLast then .error .denied else .ok (fs.erase names)
  | some .directory => .error .isDirectory
  | none => .error .missing

/-- Removes a file, or a directory with everything below it, locked or not. -/
def removeAll (fs : FileSystem) (path : String) : Except FileFault FileSystem := do
  let names ← fs.locate path
  match fs.get? names with
  | some _ =>
    .ok { fs with entries := fs.entries.filter fun (n, _) => !names.isPrefixOf n }
  | none => .error .missing

/-- The segments up to the last one that is not empty, and whether others follow it. -/
def splitSlashes (parts : List (List Char)) : List (List Char) × Bool :=
  let kept := (parts.reverse.dropWhile List.isEmpty).reverse
  (kept, kept.length < parts.length)

/--
The place onto which a file can be moved. The path has to end in a name, with no slash after it, in
a directory that is not locked, and the place must not be a directory.
-/
def destination (fs : FileSystem) (path : String) : Except FileFault (List String) := do
  let (parts, slash) := splitSlashes (Path.segments path.toList)
  match parts.getLast? with
  | none => .error .busy
  | some name =>
    let dir ← fs.follow (fs.origin path) (parts.dropLast ++ [[]])
    if name = ['.'] ∨ name = ['.', '.'] then .error .busy
    else if isTooLong name then .error .nameTooLong
    else if slash then .error .notDirectory
    else if fs.isLocked dir then .error .denied
    else
      let names := dir ++ [String.ofList name]
      match fs.get? names with
      | some .directory => .error .isDirectory
      | _ => .ok names

/-- Moves a file onto another place, where it replaces a file. -/
def rename (fs : FileSystem) (source target : String) : Except FileFault FileSystem := do
  let names ← fs.locate source
  match fs.get? names, pathFault? target with
  | _, some fault => .error fault
  | some (.file content modified), none =>
    let place ← fs.destination target
    if fs.isLocked names.dropLast then .error .denied
    else .ok ((fs.erase names).set place (.file content modified))
  | some .directory, none => .error .isDirectory
  | none, none => .error .missing

/-- The name of a file that is made for a while. Only its length counts: it is one that nothing else
in its directory has. -/
@[irreducible] def draftName : String := ".tmpXXXXXX"

/-- The path of a file that is made beside another one for a while. -/
def draftFor (fs : FileSystem) (path : String) : String :=
  Path.join (Path.join fs.homePath ((Path.parent? path).getD ".")) draftName

/-- Why no file can be made beside the one of a path. -/
def draftFault? (fs : FileSystem) (path : String) : Option FileFault :=
  match fs.locate (fs.draftFor path) with
  | .error fault => some fault
  | .ok names => if fs.isLocked names.dropLast then some .denied else none

/-- Puts a new file in the place of a file, which changes in one step: the new file is made beside
the other one and then moved onto it. -/
def replace (fs : FileSystem) (path : String) (content : Content) :
    Except FileFault FileSystem := do
  match fs.draftFault? path, pathFault? path with
  | some fault, _ => .error fault
  | none, some .zeroByte => .error .invalidPath
  | none, some fault => .error fault
  | none, none => return fs.set (← fs.destination path) (.file content fs.now)

/--
Follows the segments of a path and makes the directories that are missing on the way. Those that
were made stay, also if there is a fault further on.
-/
def makeFrom (fs : FileSystem) (here : List String) :
    List (List Char) → FileSystem × Option FileFault
  | [] => (fs, none)
  | s :: rest =>
    if Path.isVoid s then makeFrom fs here rest
    else if s = ['.', '.'] then makeFrom fs here.dropLast rest
    else if isTooLong s then (fs, some .nameTooLong)
    else
      let next := here ++ [String.ofList s]
      match fs.get? next with
      | some .directory => makeFrom fs next rest
      | some (.file _ _) =>
        (fs, some (if rest.isEmpty then .alreadyExists else .notDirectory))
      | none =>
        if fs.isLocked here then (fs, some .denied)
        else makeFrom (fs.set next .directory) next rest

/-- Makes a directory and those above it. -/
def makeDirectory (fs : FileSystem) (path : String) : FileSystem × Option FileFault :=
  match pathFault? path with
  | some .missing => (fs, none)
  | some fault => (fs, some fault)
  | none => fs.makeFrom (fs.origin path) (Path.segments path.toList)

/-- A file system with nothing but the directory in which relative paths start. -/
def empty (home : String) (now : Nat) : FileSystem :=
  let start : FileSystem := { entries := [], home := [], now := now }
  let names := (Path.components home).filterMap fun
    | .normal name => some name
    | _ => none
  { (start.makeDirectory home).1 with home := names }

/-- Lets time pass. -/
def tick (fs : FileSystem) : FileSystem :=
  { fs with now := fs.now + 1 }

/-- The names of all files at or below a place, from the root. -/
def filesBelow (fs : FileSystem) (names : List String) : List (List String) :=
  fs.entries.filterMap fun
    | (n, .file _ _) => if names.isPrefixOf n then some n else none
    | (_, .directory) => none

end FileSystem

end StyleAudit
