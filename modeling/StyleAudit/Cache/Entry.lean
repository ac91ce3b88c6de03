import StyleAudit.Error
import StyleAudit.Table

/-!
What the cache remembers of an input, and how inputs are told apart.
-/

namespace StyleAudit

/-- How the fingerprint of an input is taken. -/
inductive CacheStrategy where
  /-- From its modification time and its size. -/
  | metadata
  /-- From its text. -/
  | content
deriving DecidableEq, Repr, Inhabited

namespace CacheStrategy

def name : CacheStrategy → String
  | .metadata => "metadata"
  | .content => "content"

def ofName (s : String) : Except CacheError CacheStrategy :=
  if s = "metadata" then .ok .metadata
  else if s = "content" then .ok .content
  else .error (.invalidStrategy s)

end CacheStrategy

/-- The last clean lint of one input. -/
structure CacheEntry where
  /-- The fingerprint of the input. -/
  fingerprint : String
  /-- The hash of the configuration it was linted with. -/
  configHash : String
deriving DecidableEq, Repr

end StyleAudit
