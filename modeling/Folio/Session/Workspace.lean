import Folio.Composition.Segmenters
import Folio.Document.Navigation
import Folio.Session.Cache

/-!
# The workspace

Everything that is shared while documents are read: the documents, the segmenters, the pool,
the cache and the paragraphs that have been built and are still alive.  A built paragraph
keeps its identity while it is alive, and no identity is given out twice.

A paragraph lives as long as somebody holds it.  Who does is decided outside of the
workspace; `sweep` is told, removes all others, and gives their elements to the pool.
-/

namespace Folio

/-- What a workspace is set up with. -/
structure Config where
  wordBreak : WordBreak
  /-- How many words, and how many controls, the pool keeps. -/
  maxPooled : Nat
  deriving DecidableEq, Repr

instance : Inhabited Config := ⟨{ wordBreak := .normal, maxPooled := 1024 }⟩

/-- A paragraph with the elements that have been built for it. -/
structure BuiltParagraph where
  key : ParagraphKey
  elements : List Element
  deriving DecidableEq, Repr

/-- Documents, and what has been built of them. -/
structure Workspace where
  config : Config
  /-- The rules by which text is taken apart in a language under a word break option. -/
  rules : Language → WordBreak → TextRules
  documents : Array Document
  segmenters : Segmenters
  pool : Pool
  cache : Cache
  live : Table ParagraphId BuiltParagraph
  /-- The identity of the next paragraph that is built. -/
  fresh : ParagraphId

namespace Workspace

/-- A workspace with rules of its own, in which nothing has been built. -/
def createWith
    (rules : Language → WordBreak → TextRules)
    (config : Config)
    (documents : List Document) :
    Workspace where
  config := config
  rules := rules
  documents := documents.toArray
  segmenters := .empty
  pool := .empty config.maxPooled
  cache := .empty
  live := .empty
  fresh := 0

/-- A workspace with the Unicode rules, in which nothing has been built. -/
def create (config : Config) (documents : List Document) : Workspace :=
  createWith (fun _ option => .standard option) config documents

/-- The document of a number; numbers without one stand for an empty document. -/
def document (workspace : Workspace) (number : Nat) : Document :=
  workspace.documents.getD number default

/-- Put a document in the place of the one with its number. -/
def setDocument (workspace : Workspace) (number : Nat) (document : Document) : Workspace :=
  { workspace with documents := workspace.documents.setIfInBounds number document }

/-! ## Built paragraphs -/

/-- The built paragraph of an identity, if it is alive. -/
def paragraph? (workspace : Workspace) (id : ParagraphId) : Option BuiltParagraph :=
  workspace.live.get? id

/-- Whether a built paragraph is alive. -/
def isAlive (workspace : Workspace) (id : ParagraphId) : Bool :=
  workspace.live.contains id

/-- The elements of a built paragraph. -/
def elements (workspace : Workspace) (id : ParagraphId) : List Element :=
  ((workspace.paragraph? id).map BuiltParagraph.elements).getD []

/-- The number of elements of a built paragraph. -/
def length (workspace : Workspace) (id : ParagraphId) : Nat :=
  (workspace.elements id).length

/-- The rules for a paragraph; if there is text in it, its segmenter is the one that is kept. -/
def rulesFor (workspace : Workspace) (key : ParagraphKey) : TextRules × Segmenters :=
  let option := workspace.config.wordBreak
  let rules := workspace.rules key.language option
  let paragraph? := (workspace.document key.document).paragraph? key.index
  if paragraph?.any Composition.takesApart then
    let (breaks, segmenters) := workspace.segmenters.provide key.language option rules.breaks
    ({ rules with breaks }, segmenters)
  else
    (rules, workspace.segmenters)

/-- The elements of a paragraph, acquired from the pool. -/
def compose (workspace : Workspace) (key : ParagraphKey) : List Element × Pool × Segmenters :=
  let (rules, segmenters) := workspace.rulesFor key
  let (elements, pool) :=
    Composition.fill rules (workspace.document key.document) key.language key.index
      workspace.pool
  (elements, pool, segmenters)

/-- Build the paragraph of a key under a new identity and put it into the cache. -/
def build (workspace : Workspace) (key : ParagraphKey) : ParagraphId × Workspace :=
  let (elements, pool, segmenters) := workspace.compose key
  let id := workspace.fresh
  (id,
    { workspace with
      segmenters := segmenters
      pool := pool
      cache := workspace.cache.put key id
      live := workspace.live.insert id { key, elements }
      fresh := id + 1 })

/--
The built paragraph of a document in a language.  An index past the end means the last
paragraph; an empty document has none.  A paragraph that is alive is not built again.
-/
def cursor
    (workspace : Workspace)
    (document : Nat)
    (language : Language)
    (index : Nat) :
    Option ParagraphId × Workspace :=
  match (workspace.document document).size with
  | 0 => (none, workspace)
  | last + 1 =>
      let key : ParagraphKey := { document, index := min index last, language }
      match workspace.cache.get? workspace.isAlive key with
      | some id => (some id, workspace)
      | none =>
          let (id, workspace) := workspace.build key
          (some id, workspace)

/-- Go from a built paragraph to another of the same document and language. -/
def moveFrom
    (workspace : Workspace)
    (id : ParagraphId)
    (target : Document → Nat → Option Nat) :
    Option ParagraphId × Workspace :=
  match workspace.paragraph? id with
  | none => (none, workspace)
  | some paragraph =>
      let key := paragraph.key
      match target (workspace.document key.document) key.index with
      | none => (none, workspace)
      | some index => workspace.cursor key.document key.language index

/-- The built paragraph read after another. -/
def next (workspace : Workspace) (id : ParagraphId) : Option ParagraphId × Workspace :=
  workspace.moveFrom id Document.next?

/-- The built paragraph read before another. -/
def previous (workspace : Workspace) (id : ParagraphId) : Option ParagraphId × Workspace :=
  workspace.moveFrom id Document.previous?

/-- Whether nothing is read before a built paragraph. -/
def isFirst (workspace : Workspace) (id : ParagraphId) : Bool :=
  match workspace.paragraph? id with
  | none => false
  | some paragraph =>
      (workspace.document paragraph.key.document).isFirst paragraph.key.index

/-- Whether nothing is read after a built paragraph. -/
def isLast (workspace : Workspace) (id : ParagraphId) : Bool :=
  match workspace.paragraph? id with
  | none => false
  | some paragraph =>
      (workspace.document paragraph.key.document).isLast paragraph.key.index

/-! ## Changing the elements of a built paragraph -/

/-- Give a built paragraph other elements, and the workspace another pool. -/
def setElements
    (workspace : Workspace)
    (id : ParagraphId)
    (paragraph : BuiltParagraph)
    (elements : List Element)
    (pool : Pool) :
    Workspace :=
  { workspace with
    pool := pool
    live := workspace.live.insert id { paragraph with elements } }

/-- Give the elements of a built paragraph back to the pool. -/
def clear (workspace : Workspace) (id : ParagraphId) : Workspace :=
  match workspace.paragraph? id with
  | none => workspace
  | some paragraph =>
      workspace.setElements id paragraph [] (workspace.pool.releaseAll paragraph.elements)

/-- Drop the elements of a built paragraph without giving them back. -/
def discard (workspace : Workspace) (id : ParagraphId) : Workspace :=
  match workspace.paragraph? id with
  | none => workspace
  | some paragraph => workspace.setElements id paragraph [] workspace.pool

/-- Build the elements of a paragraph after those that it already has. -/
def fill (workspace : Workspace) (id : ParagraphId) : Workspace :=
  match workspace.paragraph? id with
  | none => workspace
  | some paragraph =>
      let (elements, pool, segmenters) := workspace.compose paragraph.key
      { workspace.setElements id paragraph (paragraph.elements ++ elements) pool with
        segmenters }

/-- Build the elements of a paragraph anew. -/
def rebuild (workspace : Workspace) (id : ParagraphId) : Workspace :=
  (workspace.clear id).fill id

/-! ## Letting go -/

/-- Drop the cache entries of dead paragraphs. -/
def cleanupCache (workspace : Workspace) : Workspace :=
  { workspace with cache := workspace.cache.cleanup workspace.isAlive }

/-- Forget what the cache remembers. -/
def clearCache (workspace : Workspace) : Workspace :=
  { workspace with cache := workspace.cache.clear }

/-- Drop what is free in the pool. -/
def shrinkPool (workspace : Workspace) : Workspace :=
  { workspace with pool := workspace.pool.shrink }

/-- Remove the paragraphs that are not held, and give their elements to the pool. -/
def sweep (workspace : Workspace) (isHeld : ParagraphId → Bool) : Workspace :=
  let dead := workspace.live.filter fun id _ => !isHeld id
  { workspace with
    pool :=
      dead.entries.foldl (fun pool entry => pool.releaseAll entry.2.elements) workspace.pool
    live := workspace.live.filter fun id _ => isHeld id }

end Workspace

end Folio
