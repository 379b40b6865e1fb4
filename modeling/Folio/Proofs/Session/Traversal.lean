import Folio.Proofs.Document.Places
import Folio.Proofs.Document.ReadingOrder
import Folio.Proofs.Session.History
import Folio.Proofs.Session.Holders
import Folio.Proofs.Session.Keys

/-!
# Reading a text there and back

A word cursor reads on by going from element to element, and from the end of a paragraph to the
next one, until no paragraph follows; it reads back the same way.  Every paragraph it comes to is
either alive or built on the way, and in both cases holds the elements that every fill builds, as
long as nothing but this is done.  So the cursor is always at a place of the text, each turn
brings it to the next one, and what is known of places is known of the whole way.
-/

namespace Folio

/-! ## Texts in a workspace -/

/-- A document that is read in a language, with what its paragraphs are built by. -/
structure Text where
  rules : Language → WordBreak → TextRules
  option : WordBreak
  number : Nat
  document : Document
  language : Language

namespace Text

/-- The elements that are built of a paragraph. -/
def elements (text : Text) (index : Nat) : List Element :=
  Composition.shown (text.rules text.language text.option) text.document text.language index

/-- What a paragraph is asked for by. -/
def key (text : Text) (index : Nat) : ParagraphKey where
  document := text.number
  index := index
  language := text.language

/-- A paragraph as it is built. -/
def built (text : Text) (index : Nat) : BuiltParagraph where
  key := text.key index
  elements := text.elements index

/-- The places of the paragraphs that are read from a first one on. -/
def places (text : Text) (first : Nat) : List Place :=
  Place.ofText text.elements (text.document.readFrom first)

section

variable
    {text : Text}
    {first : Nat}
    (navigable : text.document.IsNavigable)
    (starts : text.document.StartsText first)

include navigable starts

theorem exists_places_eq_cons : ∃ others, text.places first = ⟨first, 0⟩ :: others := by
  apply List.head?_eq_some_iff.1
  rw [places, Place.head?_ofText, starts.head?_readFrom navigable]
  rfl

theorem readsThrough_places :
    ReadsThrough (Place.after? text.elements text.document.next?) (text.places first) :=
  Place.readsThrough_ofText (starts.readsThrough_readFrom navigable)

theorem readsThrough_reverse_places :
    ReadsThrough (Place.before? text.elements text.document.previous?)
      (text.places first).reverse := by
  apply Place.readsThrough_reverse_ofText (starts.readsThrough_readFrom navigable)
  · intro index member next isNext
    exact navigable.previous?_of_next? (Document.isReversible_of_mem_readFrom member) isNext
  · intro index isHead
    obtain rfl := Option.some.inj ((starts.head?_readFrom navigable).symm.trans isHead)
    exact (Document.isFirst_iff ..).1 starts.isFirst

end

end Text

namespace Workspace

theorem length_of_built
    {workspace : Workspace}
    {text : Text}
    {id : ParagraphId}
    {index : Nat}
    (found : workspace.paragraph? id = some (text.built index)) :
    workspace.length id = (text.elements index).length := by
  rw [length, elements_of_paragraph? found, Text.built]

/-- A workspace has a text, and those of its paragraphs that are alive are as they are built. -/
structure Offers (workspace : Workspace) (text : Text) : Prop where
  remembersKeys : workspace.RemembersKeys
  isSetUp : workspace.IsSetUp text.rules text.option
  document_eq : workspace.document text.number = text.document
  eq_built :
    ∀ id paragraph index,
      workspace.paragraph? id = some paragraph →
        paragraph.key = text.key index → paragraph = text.built index

theorem offers_createWith
    (rules : Language → WordBreak → TextRules)
    (config : Config)
    (documents : List Document)
    (number : Nat)
    (language : Language) :
    let workspace := createWith rules config documents
    workspace.Offers ⟨rules, config.wordBreak, number, workspace.document number, language⟩ where
  remembersKeys := remembersKeys_createWith rules config documents
  isSetUp := isSetUp_createWith rules config documents
  document_eq := rfl
  eq_built := by simp [createWith, paragraph?]

namespace Offers

variable
    {workspace : Workspace}
    {text : Text}

/-- What is built for a key of the text is what is built of its paragraph. -/
theorem fst_compose
    (offers : workspace.Offers text)
    (index : Nat) :
    (workspace.compose (text.key index)).1 = text.elements index := by
  rw [offers.isSetUp.fst_compose, Text.key, offers.document_eq, Text.elements]

theorem sweep
    (offers : workspace.Offers text)
    (isHeld : ParagraphId → Bool) :
    (workspace.sweep isHeld).Offers text where
  remembersKeys := offers.remembersKeys.sweep isHeld
  isSetUp := offers.isSetUp.after [.letGo isHeld]
  document_eq := offers.document_eq
  eq_built id paragraph index found :=
    offers.eq_built id paragraph index (paragraph?_of_sweep found)

/-- Asking for a paragraph of the text answers with it as it is built. -/
theorem exists_of_cursor
    (offers : workspace.Offers text)
    {index : Nat}
    (inRange : index < text.document.size) :
    ∃ id later,
      workspace.cursor text.number text.language index = (some id, later) ∧
        later.Offers text ∧
        later.paragraph? id = some (text.built index) := by
  rw [← offers.document_eq] at inRange
  obtain ⟨id, later, paragraph, isCursor, sameDocuments, found, hasKey⟩ :=
    offers.remembersKeys.exists_of_cursor text.language inRange
  have isAfter : later = workspace.after [.cursor text.number text.language index] := by
    simp only [after, List.foldl_cons, List.foldl_nil, apply, isCursor]
  have laterOffers : later.Offers text := {
    remembersKeys := isAfter ▸ offers.remembersKeys.after _
    isSetUp := isAfter ▸ offers.isSetUp.after _
    document_eq := by rw [document, sameDocuments, ← offers.document_eq, document]
    eq_built := by
      intro other otherParagraph otherIndex isFound isKey
      -- Either nothing is built, or the one new paragraph is built for the key of this index.
      rw [cursor_of_nonempty (Nat.ne_of_gt (Nat.zero_lt_of_lt inRange)),
        requested_of_lt inRange] at isCursor
      split at isCursor
      · obtain ⟨-, rfl⟩ := isCursor
        exact offers.eq_built other otherParagraph otherIndex isFound isKey
      · obtain ⟨-, rfl⟩ := isCursor
        rw [paragraph?_build] at isFound
        split at isFound
        · obtain rfl := Option.some.inj isFound
          obtain rfl : index = otherIndex := congrArg ParagraphKey.index isKey
          exact congrArg (BuiltParagraph.mk _) (offers.fst_compose index)
        · exact offers.eq_built other otherParagraph otherIndex isFound isKey }
  refine ⟨id, later, isCursor, laterOffers, ?_⟩
  rw [found, laterOffers.eq_built id paragraph index found hasKey]

end Offers

end Workspace

namespace Session

open Workspace

/-! ## Turns -/

/-- Whether a travel has found where to go. -/
def Reply.hasFound : Reply → Bool
  | .travelled _ (some answer) => answer
  | _ => false

/--
One turn of reading on: to the next element, or from the end of a paragraph to the next one.  It
leads nowhere if no paragraph follows.
-/
def readOn? (name : String) (session : Session) : Option Session := do
  let cursor ← session.wordCursors.get? name
  if cursor.isEndOfParagraph session.workspace then
    let (later, reply) := session.step (.word (.travel name .nextParagraph))
    if reply.hasFound then some later else none
  else
    some (session.step (.word (.move name .nextWord))).1

/--
One turn of reading back: to the previous element, or from the start of a paragraph to the end of
the previous one.  It leads nowhere if no paragraph precedes.
-/
def readBack? (name : String) (session : Session) : Option Session := do
  let cursor ← session.wordCursors.get? name
  if cursor.isStartOfParagraph then
    let (later, reply) := session.step (.word (.travel name .previousParagraph))
    if reply.hasFound then
      some (later.step (.word (.move name .paragraphEnd))).1
    else
      none
  else
    some (session.step (.word (.move name .previousWord))).1

/-- The element that a word cursor is on. -/
def elementAt? (name : String) (session : Session) : Option Element :=
  (session.wordCursors.get? name).bind (WordCursor.element? session.workspace)

/-- Whether a word cursor is where its text ends. -/
def isAtEndOfText (name : String) (session : Session) : Bool :=
  (session.wordCursors.get? name).any (WordCursor.isEndOfText session.workspace)

/-- Whether a word cursor is where its text starts. -/
def isAtStartOfText (name : String) (session : Session) : Bool :=
  (session.wordCursors.get? name).any (WordCursor.isStartOfText session.workspace)

/--
A word cursor reads elements on its way from a session to a last one, and in reverse on its way
back.
-/
structure IsRoundTrip
    (name : String)
    (elements : List Element)
    (start : Session)
    (onward : List Session)
    (finish : Session)
    (back : List Session) :
    Prop where
  leadsOn : ReadsThrough (readOn? name) (onward ++ [finish])
  head?_eq : (onward ++ [finish]).head? = some start
  readsOn : (onward ++ [finish]).filterMap (elementAt? name) = elements
  /-- The text ends at the last session alone. -/
  notBefore : ∀ state ∈ onward, isAtEndOfText name state = false
  isEnd : isAtEndOfText name finish = true
  leadsBack : ReadsThrough (readBack? name) (finish :: back)
  readsBack : (finish :: back).filterMap (elementAt? name) = elements.reverse
  isStart : ∀ last, (finish :: back).getLast? = some last → isAtStartOfText name last = true

/-! ## Cursors at places -/

/-- A word cursor is at a place of a text, in a paragraph as it is built. -/
structure StandsAt (text : Text) (name : String) (session : Session) (place : Place) : Prop where
  offers : session.workspace.Offers text
  isAt :
    ∃ id,
      session.wordCursors.get? name = some (.within id place.element 0) ∧
        session.workspace.paragraph? id = some (text.built place.index)

section

variable
    {text : Text}
    {name : String}
    {session : Session}
    {place : Place}

/-- Letting go of what is not held leaves the cursor where it is. -/
theorem StandsAt.sweep
    (stands : StandsAt text name session place) :
    StandsAt text name session.sweep place where
  offers := stands.offers.sweep _
  isAt := by
    obtain ⟨id, isCursor, found⟩ := stands.isAt
    have held : session.holds id = true :=
      (holds_iff id).2 (Or.inr (Or.inl ⟨name, _, isCursor, rfl⟩))
    refine ⟨id, isCursor, ?_⟩
    change (session.workspace.sweep _).paragraph? id = _
    rw [paragraph?_sweep, found, Option.filter_some, held]
    rfl

/-- A move inside a paragraph of which it is known where it leads. -/
theorem StandsAt.move
    (stands : StandsAt text name session place)
    {move : Move}
    {element : Nat}
    (leads :
      ∀ id,
        session.workspace.length id = (text.elements place.index).length →
          move.apply session.workspace (.within id place.element 0) = .within id element 0) :
    StandsAt text name (session.step (.word (.move name move))).1 ⟨place.index, element⟩ := by
  obtain ⟨id, isCursor, found⟩ := stands.isAt
  have isLength := length_of_built found
  have performed :
      StandsAt text name (session.perform (.word (.move name move))).1 ⟨place.index, element⟩ := by
    simp only [Session.perform, runWord, withCursor, isCursor, leads id isLength]
    refine ⟨stands.offers, id, ?_, found⟩
    rw [Session.setCursor, Table.get?_insert, if_pos rfl]
  exact performed.sweep

/-- A travel that follows a step through the document, and tells whether it led anywhere. -/
def Follows (travel : Travel) (target : Document → Nat → Option Nat) : Prop :=
  ∀ workspace cursor,
    travel.apply workspace cursor =
      let answer := WordCursor.follow (Workspace.moveFrom · · target) workspace cursor
      ((answer.1.1, some answer.1.2), answer.2)

theorem follows_nextParagraph : Follows .nextParagraph Document.next? :=
  fun _ _ => rfl

theorem follows_previousParagraph : Follows .previousParagraph Document.previous? :=
  fun _ _ => rfl

section

variable
    {travel : Travel}
    {target : Document → Nat → Option Nat}

/-- A travel from a paragraph that a step leads on from goes to the start of the one after it. -/
theorem StandsAt.travel_leads
    (stands : StandsAt text name session place)
    (follows : Follows travel target)
    {index : Nat}
    (leads : target text.document place.index = some index)
    (inRange : index < text.document.size) :
    let answer := session.step (.word (.travel name travel))
    answer.2.hasFound = true ∧ StandsAt text name answer.1 ⟨index, 0⟩ := by
  obtain ⟨id, isCursor, found⟩ := stands.isAt
  obtain ⟨other, later, isRequest, offers, isBuilt⟩ := stands.offers.exists_of_cursor inRange
  have isMove : session.workspace.moveFrom id target = (some other, later) := by
    rw [← isRequest]
    apply moveFrom_of_found found
    change target (session.workspace.document text.number) place.index = some index
    rw [stands.offers.document_eq, leads]
  have performed :
      StandsAt text name (session.perform (.word (.travel name travel))).1 ⟨index, 0⟩ := by
    simp only [Session.perform, runWord, withCursor, isCursor, follows _ _, WordCursor.follow,
      WordCursor.paragraph?, isMove]
    refine ⟨offers, other, ?_, isBuilt⟩
    rw [Table.get?_insert, if_pos rfl]
    rfl
  refine ⟨?_, performed.sweep⟩
  simp only [Session.step, Session.perform, runWord, withCursor, isCursor, follows _ _,
    WordCursor.follow, WordCursor.paragraph?, isMove, Reply.hasFound]

/-- A travel from a paragraph that no step leads on from finds nothing. -/
theorem StandsAt.travel_stops
    (stands : StandsAt text name session place)
    (follows : Follows travel target)
    (stops : target text.document place.index = none) :
    (session.step (.word (.travel name travel))).2.hasFound = false := by
  obtain ⟨id, isCursor, found⟩ := stands.isAt
  have isMove : session.workspace.moveFrom id target = (none, session.workspace) := by
    apply moveFrom_of_end found
    change target (session.workspace.document text.number) place.index = none
    rw [stands.offers.document_eq, stops]
  simp only [Session.step, Session.perform, runWord, withCursor, isCursor, follows _ _,
    WordCursor.follow, WordCursor.paragraph?, isMove, Reply.hasFound]

end

/-! ## Turns at places -/

theorem StandsAt.lt_size
    (stands : StandsAt text name session place) :
    place.index < text.document.size := by
  obtain ⟨id, -, found⟩ := stands.isAt
  have inRange := stands.offers.remembersKeys.keysInRange id _ found
  rwa [← stands.offers.document_eq]

theorem StandsAt.readOn?_eq
    (stands : StandsAt text name session place) :
    readOn? name session =
      if place.element = (text.elements place.index).length then
        let answer := session.step (.word (.travel name .nextParagraph))
        if answer.2.hasFound then some answer.1 else none
      else
        some (session.step (.word (.move name .nextWord))).1 := by
  obtain ⟨id, isCursor, found⟩ := stands.isAt
  have isLength := length_of_built found
  simp only [readOn?, isCursor, Option.bind_eq_bind, Option.bind_some,
    WordCursor.isEndOfParagraph, isLength, beq_iff_eq]

theorem StandsAt.readBack?_eq
    (stands : StandsAt text name session place) :
    readBack? name session =
      if place.element = 0 then
        let answer := session.step (.word (.travel name .previousParagraph))
        if answer.2.hasFound then
          some (answer.1.step (.word (.move name .paragraphEnd))).1
        else
          none
      else
        some (session.step (.word (.move name .previousWord))).1 := by
  obtain ⟨id, isCursor, found⟩ := stands.isAt
  simp [readBack?, isCursor, WordCursor.isStartOfParagraph, WordCursor.elementIndex,
    WordCursor.characterIndex]

/-- A turn of reading on leads to the next place. -/
theorem StandsAt.readOn?_leads
    (navigable : text.document.IsNavigable)
    (stands : StandsAt text name session place)
    {following : Place}
    (isAfter : place.after? text.elements text.document.next? = some following) :
    ∃ later, readOn? name session = some later ∧ StandsAt text name later following := by
  unfold Place.after? at isAfter
  rw [stands.readOn?_eq]
  split at isAfter
  · rename_i isEnd
    obtain ⟨index, leads, rfl⟩ := Option.map_eq_some_iff.1 isAfter
    have inRange := navigable.next?_lt_size stands.lt_size leads
    obtain ⟨hasFound, standsThere⟩ :=
      stands.travel_leads follows_nextParagraph leads inRange
    exact ⟨_, by simp [isEnd, hasFound], standsThere⟩
  · rename_i notEnd
    obtain rfl := Option.some.inj isAfter
    refine ⟨_, if_neg notEnd, stands.move fun id isLength => ?_⟩
    simp only [Move.apply, WordCursor.nextWord, isLength, if_neg notEnd]

theorem StandsAt.readOn?_stops
    (stands : StandsAt text name session place)
    (stops : place.after? text.elements text.document.next? = none) :
    readOn? name session = none := by
  unfold Place.after? at stops
  rw [stands.readOn?_eq]
  split at stops
  · rename_i isEnd
    have notFound :=
      stands.travel_stops follows_nextParagraph (Option.map_eq_none_iff.1 stops)
    simp [isEnd, notFound]
  · exact absurd stops (by simp)

/-- A turn of reading back leads to the previous place. -/
theorem StandsAt.readBack?_leads
    (navigable : text.document.IsNavigable)
    (stands : StandsAt text name session place)
    {preceding : Place}
    (isBefore : place.before? text.elements text.document.previous? = some preceding) :
    ∃ earlier, readBack? name session = some earlier ∧ StandsAt text name earlier preceding := by
  unfold Place.before? at isBefore
  rw [stands.readBack?_eq]
  split at isBefore
  · rename_i isStart
    obtain ⟨index, leads, rfl⟩ := Option.map_eq_some_iff.1 isBefore
    have inRange := (navigable.lt_of_previous? leads).trans stands.lt_size
    obtain ⟨hasFound, standsThere⟩ :=
      stands.travel_leads follows_previousParagraph leads inRange
    let there := (session.step (.word (.travel name .previousParagraph))).1
    have standsAtEnd :
        StandsAt text name (there.step (.word (.move name .paragraphEnd))).1
          (.ending text.elements index) := by
      apply standsThere.move
      intro id isLength
      exact congrArg (WordCursor.within id · 0) isLength
    exact ⟨_, by simp [isStart, hasFound, there], standsAtEnd⟩
  · rename_i notStart
    obtain rfl := Option.some.inj isBefore
    exact ⟨_, if_neg notStart, stands.move fun id isLength => rfl⟩

theorem StandsAt.readBack?_stops
    (stands : StandsAt text name session place)
    (stops : place.before? text.elements text.document.previous? = none) :
    readBack? name session = none := by
  unfold Place.before? at stops
  rw [stands.readBack?_eq]
  split at stops
  · rename_i isStart
    have notFound :=
      stands.travel_stops follows_previousParagraph (Option.map_eq_none_iff.1 stops)
    simp [isStart, notFound]
  · exact absurd stops (by simp)

/-! ## What is seen at places -/

theorem StandsAt.elementAt?_eq
    (stands : StandsAt text name session place) :
    elementAt? name session = place.read text.elements := by
  obtain ⟨id, isCursor, found⟩ := stands.isAt
  rw [elementAt?, isCursor, Option.bind_some, WordCursor.element?,
    elements_of_paragraph? found, Place.read, Text.built]

theorem StandsAt.isAtEndOfText_iff
    (navigable : text.document.IsNavigable)
    (stands : StandsAt text name session place) :
    isAtEndOfText name session = true ↔
      place.after? text.elements text.document.next? = none := by
  obtain ⟨id, isCursor, found⟩ := stands.isAt
  have isLength := length_of_built found
  have isLast : session.workspace.isLast id = text.document.isLast place.index := by
    rw [isLast, found, ← stands.offers.document_eq]
    rfl
  simp only [isAtEndOfText, isCursor, Option.any_some, WordCursor.isEndOfText,
    WordCursor.isEndOfParagraph, isLength, WordCursor.paragraph?, Option.map_some,
    Option.getD_some, isLast, Bool.and_eq_true, beq_iff_eq, navigable.isLast_iff, Place.after?]
  split
  · rename_i isEnd
    simp [isEnd]
  · rename_i notEnd
    simp [notEnd]

theorem StandsAt.isAtStartOfText_iff
    (stands : StandsAt text name session place) :
    isAtStartOfText name session = true ↔
      place.before? text.elements text.document.previous? = none := by
  obtain ⟨id, isCursor, found⟩ := stands.isAt
  have isFirst : session.workspace.isFirst id = text.document.isFirst place.index := by
    rw [isFirst, found, ← stands.offers.document_eq]
    rfl
  simp only [isAtStartOfText, isCursor, Option.any_some, WordCursor.isStartOfText,
    WordCursor.isStartOfParagraph, WordCursor.elementIndex, WordCursor.characterIndex,
    WordCursor.paragraph?, Option.map_some, Option.getD_some, isFirst, Bool.and_eq_true,
    beq_iff_eq, Document.isFirst_iff, Place.before?]
  split
  · rename_i isStart
    simp [isStart]
  · rename_i notStart
    simp [notStart]

/-- The text ends where no turn of reading on leads anywhere. -/
theorem StandsAt.isAtEndOfText_iff_readOn?
    (navigable : text.document.IsNavigable)
    (stands : StandsAt text name session place) :
    isAtEndOfText name session = true ↔ readOn? name session = none := by
  rw [stands.isAtEndOfText_iff navigable]
  refine ⟨stands.readOn?_stops, fun stops => ?_⟩
  cases isAfter : place.after? text.elements text.document.next? with
  | none => rfl
  | some following =>
      obtain ⟨later, leads, -⟩ := stands.readOn?_leads navigable isAfter
      exact absurd (leads.symm.trans stops) (by simp)

/-- The text starts where no turn of reading back leads anywhere. -/
theorem StandsAt.isAtStartOfText_iff_readBack?
    (navigable : text.document.IsNavigable)
    (stands : StandsAt text name session place) :
    isAtStartOfText name session = true ↔ readBack? name session = none := by
  rw [stands.isAtStartOfText_iff]
  refine ⟨stands.readBack?_stops, fun stops => ?_⟩
  cases isBefore : place.before? text.elements text.document.previous? with
  | none => rfl
  | some preceding =>
      obtain ⟨earlier, leads, -⟩ := stands.readBack?_leads navigable isBefore
      exact absurd (leads.symm.trans stops) (by simp)

end

/-! ## The whole way -/

section

variable
    {text : Text}
    {name : String}
    {session : Session}
    {place : Place}
    {others : List Place}

/-- From a place on, the turns of reading on lead through the places that follow, and end once. -/
theorem StandsAt.exists_onward
    (navigable : text.document.IsNavigable)
    (stands : StandsAt text name session place)
    (reads :
      ReadsThrough (Place.after? text.elements text.document.next?) (place :: others)) :
    ∃ onward finish,
      ReadsThrough (readOn? name) (onward ++ [finish]) ∧
        (onward ++ [finish]).head? = some session ∧
        List.Forall₂ (StandsAt text name) (onward ++ [finish]) (place :: others) ∧
        (∀ state ∈ onward, isAtEndOfText name state = false) ∧
        isAtEndOfText name finish = true := by
  obtain ⟨states, leadOn, relate⟩ :=
    reads.exists_following
      (fun _ _ _ stands isAfter => stands.readOn?_leads navigable isAfter)
      (fun _ _ stands => stands.readOn?_stops) stands
  obtain ⟨onward, finish, isWay⟩ : ∃ onward finish, session :: states = onward ++ [finish] :=
    ⟨_, _, (List.dropLast_concat_getLast (List.cons_ne_nil session states)).symm⟩
  rw [isWay] at leadOn relate
  refine ⟨onward, finish, leadOn, by rw [← isWay]; rfl, relate, ?_, ?_⟩
  · intro state member
    obtain ⟨_, standsThere⟩ := exists_related_of_mem relate (List.mem_append_left _ member)
    obtain ⟨later, leads⟩ := leadOn.exists_of_mem_front member
    rw [Bool.eq_false_iff, ne_eq, standsThere.isAtEndOfText_iff_readOn? navigable, leads]
    simp
  · obtain ⟨_, standsThere⟩ :=
      exists_related_of_mem relate (List.mem_append_right onward (List.mem_singleton_self finish))
    exact (standsThere.isAtEndOfText_iff_readOn? navigable).2 (leadOn.stops finish (by simp))

/-- From a place back, the turns of reading back lead through the places before it. -/
theorem StandsAt.exists_back
    (navigable : text.document.IsNavigable)
    (stands : StandsAt text name session place)
    (reads :
      ReadsThrough (Place.before? text.elements text.document.previous?) (place :: others)) :
    ∃ back,
      ReadsThrough (readBack? name) (session :: back) ∧
        List.Forall₂ (StandsAt text name) (session :: back) (place :: others) ∧
        ∀ last, (session :: back).getLast? = some last → isAtStartOfText name last = true := by
  obtain ⟨back, leadBack, relate⟩ :=
    reads.exists_following
      (fun _ _ _ stands isBefore => stands.readBack?_leads navigable isBefore)
      (fun _ _ stands => stands.readBack?_stops) stands
  refine ⟨back, leadBack, relate, fun last isLast => ?_⟩
  obtain ⟨_, standsThere⟩ := exists_related_of_mem relate (List.mem_of_getLast? isLast)
  exact (standsThere.isAtStartOfText_iff_readBack? navigable).2 (leadBack.stops last isLast)

/-- From its first place on the whole text is read, and from its end the reverse of it. -/
theorem StandsAt.exists_there_and_back
    (navigable : text.document.IsNavigable)
    {first : Nat}
    (starts : text.document.StartsText first)
    (stands : StandsAt text name session ⟨first, 0⟩) :
    ∃ onward finish back,
      IsRoundTrip name ((text.document.readFrom first).flatMap text.elements) session onward finish
        back := by
  obtain ⟨others, isText⟩ := Text.exists_places_eq_cons navigable starts
  obtain ⟨onward, finish, leadOn, isFirst, relate, notBefore, isEnd⟩ :=
    stands.exists_onward navigable (isText ▸ Text.readsThrough_places navigable starts)
  rw [← isText] at relate
  -- The last place of the way on is the first one of the way back.
  have relateBack := List.forall₂_reverse_iff.2 relate
  rw [List.reverse_append, List.reverse_singleton, List.singleton_append] at relateBack
  obtain ⟨last, earlier, standsAtEnd, -, isReverse⟩ := List.forall₂_cons_left_iff.1 relateBack
  obtain ⟨back, leadBack, relateEarlier, isBeginning⟩ :=
    standsAtEnd.exists_back navigable
      (isReverse ▸ Text.readsThrough_reverse_places navigable starts)
  have onElement :
      ∀ state place, StandsAt text name state place →
        elementAt? name state = place.read text.elements :=
    fun _ _ stands => stands.elementAt?_eq
  exact ⟨onward, finish, back, {
    leadsOn := leadOn
    head?_eq := isFirst
    readsOn := by
      rw [filterMap_eq_of_related relate onElement, Text.places, Place.filterMap_read_ofText]
    notBefore := notBefore
    isEnd := isEnd
    leadsBack := leadBack
    readsBack := by
      rw [filterMap_eq_of_related relateEarlier onElement, ← isReverse, List.filterMap_reverse,
        Text.places, Place.filterMap_read_ofText]
    isStart := isBeginning }⟩

end

/--
A word cursor at the start of a text that has just been asked for reads the whole text.  In a
workspace in which nothing else has been done, the turns of reading on come to an end, and on the
way the cursor is on every element that is built of the paragraphs of the text, one after the
other, and where the text ends at the end of the way alone.  From there the turns of reading back
come to an end where the text starts, with the same elements in reverse.
-/
theorem text_is_read_there_and_back
    (rules : Language → WordBreak → TextRules)
    (config : Config)
    (sources : List DocumentSource)
    (number first : Nat)
    (language : Language)
    (starts :
      ((createWith rules config (sources.map fun source => source.build.1)).document
        number).StartsText first) :
    let fresh := createWith rules config (sources.map fun source => source.build.1)
    let indices := (fresh.document number).readFrom first
    let elements := indices.flatMap fun index => (fresh.compose ⟨number, index, language⟩).1
    indices.Pairwise (· < ·) ∧
      ∃ id opened,
        fresh.cursor number language first = (some id, opened) ∧
          ∀ (name : String) (session : Session),
            session.workspace = opened →
              session.wordCursors.get? name = some (.start id) →
                ∃ onward finish back,
                  IsRoundTrip name elements session onward finish back := by
  intro fresh indices elements
  let text : Text :=
    ⟨rules, config.wordBreak, number, fresh.document number, language⟩
  have navigable : text.document.IsNavigable :=
    isNavigable_after_createWith rules config sources [] number
  have offers : fresh.Offers text := offers_createWith rules config _ number language
  have areBuilt : elements = indices.flatMap text.elements := by
    simp only [elements]
    congr 1
    funext index
    exact offers.fst_compose index
  obtain ⟨id, opened, isCursor, openedOffers, found⟩ := offers.exists_of_cursor starts.inRange
  refine ⟨Document.pairwise_readFrom _ _, id, opened, isCursor, ?_⟩
  rintro name session rfl isStart
  have stands : StandsAt text name session ⟨first, 0⟩ := ⟨openedOffers, id, isStart, found⟩
  rw [areBuilt]
  exact stands.exists_there_and_back navigable starts

/-- Reading from the first paragraph on ends before the one that ends the text. -/
theorem text_is_read_there_and_back_before_its_end :
    let sources : List DocumentSource :=
      [⟨.plain [⟨.text, [.text "a", .fixedSpace 1]⟩, ⟨.text, []⟩, ⟨.endOfText, []⟩,
          ⟨.text, [.text "b"]⟩], [], [], .only []⟩]
    let fresh := create default (sources.map fun source => source.build.1)
    let elements :=
      (fresh.compose ⟨0, 0, .undetermined⟩).1 ++ (fresh.compose ⟨0, 1, .undetermined⟩).1
    (fresh.document 0).StartsText 0 ∧
      (fresh.document 0).readFrom 0 = [0, 1] ∧
      elements.length = 2 ∧
      ∃ session onward finish back,
        session.wordCursors.get? "eye" = some (.start 0) ∧
          IsRoundTrip "eye" elements session onward finish back := by
  intro sources fresh elements
  have starts : (fresh.document 0).StartsText 0 := ⟨by decide, by decide, by decide⟩
  have isText : (fresh.document 0).readFrom 0 = [0, 1] := by decide
  have isLength : elements.length = 2 := by decide +kernel
  obtain ⟨-, id, opened, isCursor, reads⟩ :=
    text_is_read_there_and_back (fun _ option => .standard option) default sources 0 0
      .undetermined starts
  obtain rfl : id = 0 := (Option.some.inj (Prod.mk.inj isCursor).1).symm
  let session : Session :=
    ⟨opened, .empty, Table.empty.insert "eye" (.start 0), .empty⟩
  have isStart : session.wordCursors.get? "eye" = some (.start 0) := by
    rw [Table.get?_insert, if_pos rfl]
  have areElements :
      ((fresh.document 0).readFrom 0).flatMap
          (fun index => (fresh.compose ⟨0, index, .undetermined⟩).1) =
        elements := by
    rw [isText]
    simp only [elements, List.flatMap_cons, List.flatMap_nil, List.append_nil]
  obtain ⟨onward, finish, back, isRoundTrip⟩ := reads "eye" session rfl isStart
  exact ⟨starts, isText, isLength, session, onward, finish, back, isStart,
    areElements ▸ isRoundTrip⟩

end Session

end Folio
