import Folio.Language
import Folio.Table

/-!
# The paragraph cache

The cache remembers which built paragraph answers to a key, but does not keep it alive: a
paragraph that nobody holds is gone, and its entry stays behind until the next cleanup.  Only
the paragraph added last is held by the cache itself.

Built paragraphs are told apart by identities.  Which of them are alive is not known to the
cache, so the operations that depend on it take it as an argument.
-/

namespace Folio

/-- The identity of a built paragraph. -/
abbrev ParagraphId := Nat

/-- What a built paragraph is asked for by. -/
structure ParagraphKey where
  document : Nat
  index : Nat
  language : Language
  deriving DecidableEq, Repr

/-- The paragraphs put under each key, and the one put last. -/
structure Cache where
  entries : Table ParagraphKey ParagraphId
  lastAdded : Option ParagraphId

namespace Cache

/-- Nothing remembered. -/
def empty : Cache where
  entries := .empty
  lastAdded := none

instance : Inhabited Cache := ⟨empty⟩

/-- The number of entries, those of dead paragraphs included. -/
def size (cache : Cache) : Nat :=
  cache.entries.size

/-- Whether there are no entries. -/
def isEmpty (cache : Cache) : Bool :=
  cache.entries.isEmpty

/-- The paragraph put under a key, if it is alive. -/
def get?
    (cache : Cache)
    (isAlive : ParagraphId → Bool)
    (key : ParagraphKey) :
    Option ParagraphId :=
  (cache.entries.get? key).filter isAlive

/-- Put a paragraph under a key, and hold it as the last one added. -/
def put (cache : Cache) (key : ParagraphKey) (id : ParagraphId) : Cache where
  entries := cache.entries.insert key id
  lastAdded := some id

/-- Drop the entries of dead paragraphs. -/
def cleanup (cache : Cache) (isAlive : ParagraphId → Bool) : Cache :=
  { cache with entries := cache.entries.filter fun _ id => isAlive id }

/-- Forget everything. -/
def clear (_cache : Cache) : Cache :=
  empty

/-- Whether the cache itself keeps a paragraph alive. -/
def holds (cache : Cache) (id : ParagraphId) : Bool :=
  cache.lastAdded == some id

end Cache

end Folio
