import Folio.Proofs.Document.VisibleNodes
import Folio.Proofs.Session.Keys
import Folio.Session.ParagraphStep

/-!
# Walks

A walk lets go of each paragraph as it reads on, and whoever else holds paragraphs may hold
any.  Only the paragraph in hand has to be alive, and reading on never changes a document, so
a walk lists the indices that the step of the document leads through.

In a tree document that is the list of the visible nodes, whatever was folded before: a walk
forward from the first paragraph lists it in order, and a walk back from the last visible one
in the reverse order.
-/

namespace Folio.Session

open Workspace

/-! ## One step of a walk -/

section

variable
    {target : Document → Nat → Option Nat}
    {session : Session}
    {id : ParagraphId}
    {paragraph : BuiltParagraph}
    (found : session.workspace.paragraph? id = some paragraph)

include found

theorem snd_walk_zero
    (step : Workspace → ParagraphId → Option ParagraphId × Workspace) :
    (session.walk step id 0).2 = [paragraph.key.index] := by
  rw [walk, found]
  rfl

theorem snd_walk_of_end
    (isEnd :
      target (session.workspace.document paragraph.key.document) paragraph.key.index = none)
    (remaining : Nat) :
    (session.walk (fun workspace id => workspace.moveFrom id target) id remaining).2 =
      [paragraph.key.index] := by
  cases remaining with
  | zero => exact snd_walk_zero found _
  | succ remaining =>
      rw [walk, moveFrom_of_end found isEnd, found]
      rfl

theorem snd_walk_of_target
    {index : Nat}
    (isTarget :
      target (session.workspace.document paragraph.key.document) paragraph.key.index =
        some index)
    {next : ParagraphId}
    {later : Workspace}
    (isNext :
      session.workspace.cursor paragraph.key.document paragraph.key.language index =
        (some next, later))
    (remaining : Nat) :
    (session.walk (fun workspace id => workspace.moveFrom id target) id (remaining + 1)).2 =
      paragraph.key.index ::
        (walk (fun workspace id => workspace.moveFrom id target)
          (sweepBut { session with workspace := later } [next]) next remaining).2 := by
  rw [walk, moveFrom_of_found found isTarget, isNext, found]
  rfl

end

/-- The paragraph in hand is left by the sweep. -/
theorem paragraph?_sweepBut
    {session : Session}
    {id : ParagraphId}
    {paragraph : BuiltParagraph}
    (found : session.workspace.paragraph? id = some paragraph) :
    (session.sweepBut [id]).workspace.paragraph? id = some paragraph := by
  rw [sweepBut, paragraph?_sweep, found, Option.filter_some, if_pos]
  simp

/-! ## Whole walks -/

/-- A walk from a paragraph lists what the document's step leads through from there on. -/
theorem snd_walk_eq_take
    {target : Document → Nat → Option Nat}
    {session : Session}
    {id : ParagraphId}
    {paragraph : BuiltParagraph}
    {rest : List Nat}
    (remembers : session.workspace.RemembersKeys)
    (found : session.workspace.paragraph? id = some paragraph)
    (reads :
      ReadsThrough (target (session.workspace.document paragraph.key.document))
        (paragraph.key.index :: rest))
    (inRange :
      ∀ index ∈ rest, index < (session.workspace.document paragraph.key.document).size)
    (remaining : Nat) :
    (session.walk (fun workspace id => workspace.moveFrom id target) id remaining).2 =
      (paragraph.key.index :: rest).take (remaining + 1) := by
  induction remaining generalizing session id paragraph rest with
  | zero => exact snd_walk_zero found _
  | succ remaining ofRemaining =>
      cases rest with
      | nil =>
          have isEnd := reads.stops paragraph.key.index rfl
          rw [snd_walk_of_end found isEnd, List.take_succ_cons, List.take_nil]
      | cons index rest =>
          obtain ⟨next, later, following, isNext, sameDocuments, isAlive, hasKey⟩ :=
            remembers.exists_of_cursor paragraph.key.language (inRange index List.mem_cons_self)
          have laterRemembers : later.RemembersKeys := by
            have changes := changes_cursor session.workspace paragraph.key.document
              paragraph.key.language index
            rw [isNext] at changes
            exact changes.remembersKeys remembers
          have sameDocument :
              later.document following.key.document =
                session.workspace.document paragraph.key.document := by
            rw [document, sameDocuments, hasKey]
            rfl
          have sameIndex : following.key.index = index := by rw [hasKey]
          rw [snd_walk_of_target found reads.head_leads isNext, List.take_succ_cons, ← sameIndex]
          apply congrArg (List.cons _)
          apply ofRemaining
          · exact laterRemembers.sweep _
          · exact paragraph?_sweepBut isAlive
          · change ReadsThrough (target (later.document following.key.document)) _
            rw [sameDocument, sameIndex]
            exact reads.tail
          · change ∀ other ∈ rest, other < (later.document following.key.document).size
            rw [sameDocument]
            exact fun other member => inRange other (List.mem_cons_of_mem index member)

/-- A walk from a paragraph that is asked for. -/
theorem exists_walk
    {workspace : Workspace}
    (remembers : workspace.RemembersKeys)
    {number : Nat}
    {target : Document → Nat → Option Nat}
    {nodes : List Nat}
    (reads : ReadsThrough (target (workspace.document number)) nodes)
    (inRange : ∀ index ∈ nodes, index < (workspace.document number).size)
    {first : Nat}
    (isFirst : nodes.head? = some first)
    (language : Language) :
    ∃ id later,
      workspace.cursor number language first = (some id, later) ∧
        ∀ slots wordCursors ownCache remaining,
          (walk (fun workspace id => workspace.moveFrom id target)
              ⟨later, slots, wordCursors, ownCache⟩ id remaining).2 =
            nodes.take (remaining + 1) := by
  obtain ⟨rest, rfl⟩ := List.head?_eq_some_iff.1 isFirst
  obtain ⟨id, later, paragraph, isCursor, sameDocuments, isAlive, hasKey⟩ :=
    remembers.exists_of_cursor language (inRange first List.mem_cons_self)
  have changes := changes_cursor workspace number language first
  rw [isCursor] at changes
  refine ⟨id, later, isCursor, fun slots wordCursors ownCache remaining => ?_⟩
  have sameDocument : later.document paragraph.key.document = workspace.document number := by
    rw [document, sameDocuments, hasKey]
    rfl
  have sameIndex : paragraph.key.index = first := by rw [hasKey]
  rw [← sameIndex] at reads inRange ⊢
  apply snd_walk_eq_take (changes.remembersKeys remembers) isAlive
  · change ReadsThrough (target (later.document paragraph.key.document)) _
    rwa [sameDocument]
  · change ∀ index ∈ rest, index < (later.document paragraph.key.document).size
    rw [sameDocument]
    exact fun index member => inRange index (List.mem_cons_of_mem _ member)

/-! ## Walks through a tree document -/

/-- A document with an outline is one of the workspace, and commands reach it. -/
theorem document_apply_command
    {workspace : Workspace}
    {number : Nat}
    {tree : Outline}
    (isOutline : (workspace.document number).outline = some tree)
    (command : DocumentCommand) :
    (workspace.apply (.command number command)).document number =
      (runDocument (workspace.document number) command).1 := by
  have inRange : number < workspace.documents.size := by
    refine Nat.lt_of_not_le fun outOfRange => ?_
    rw [document, Array.getD_eq_getD_getElem?, Array.getElem?_eq_none outOfRange] at isOutline
    exact absurd isOutline (by simp [default, Document.plain])
  rw [apply, document_setDocument, if_pos ⟨rfl, inRange⟩]

/--
Whatever was done before, a walk through a tree document that has nodes lists the visible
ones: forward from node 0 each of them once and in order, and back from the last of them the
same nodes in the reverse order.  Opening a node with those above it puts the node into the
list, takes none from it, and changes only the flags on its lineage.  Opening or closing one
node can change the list only below it, and closing it takes all nodes below from the list.
-/
theorem walks_list_visible_nodes
    (rules : Language → WordBreak → TextRules)
    (config : Config)
    (sources : List DocumentSource)
    (operations : List Operation)
    (number : Nat)
    (tree : Outline) :
    let workspace :=
      (createWith rules config (sources.map fun source => source.build.1)).after operations
    (workspace.document number).outline = some tree ∧ 0 < tree.size →
      (∀ node, node ∈ tree.visibleNodes ↔ node < tree.size ∧ tree.IsVisible node) ∧
        tree.visibleNodes.Pairwise (· < ·) ∧
        (∀ language,
          ∃ id later,
            workspace.cursor number language 0 = (some id, later) ∧
              ∀ slots wordCursors ownCache remaining,
                (walk Workspace.next ⟨later, slots, wordCursors, ownCache⟩ id remaining).2 =
                  tree.visibleNodes.take (remaining + 1)) ∧
        (∃ last,
          tree.visibleNodes.getLast? = some last ∧
            ∀ language,
              ∃ id later,
                workspace.cursor number language last = (some id, later) ∧
                  ∀ slots wordCursors ownCache remaining,
                    (walk Workspace.previous ⟨later, slots, wordCursors, ownCache⟩ id
                        remaining).2 =
                      tree.visibleNodes.reverse.take (remaining + 1)) ∧
        (∀ index, index < tree.size →
          ∃ opened,
            ((workspace.apply (.command number (.openTree index))).document number).outline =
                some opened ∧
              index ∈ opened.visibleNodes ∧
              (∀ node ∈ tree.visibleNodes, node ∈ opened.visibleNodes) ∧
              ∀ node, node ∉ tree.lineage index → opened.isOpen node = tree.isOpen node) ∧
        ∀ index isOpen,
          ∃ folded,
            ((workspace.apply (.command number (.setOpen index isOpen))).document
                  number).outline =
                some folded ∧
              (∀ node, index ∉ tree.ancestors node →
                (node ∈ folded.visibleNodes ↔ node ∈ tree.visibleNodes)) ∧
              (isOpen = false →
                ∀ node, index ∈ tree.ancestors node → node ∉ folded.visibleNodes) := by
  rintro workspace ⟨isOutline, nonempty⟩
  have remembers : workspace.RemembersKeys :=
    (remembersKeys_createWith rules config _).after operations
  have navigable : (workspace.document number).IsNavigable :=
    isNavigable_after_createWith rules config sources operations number
  have isFirst := Outline.head?_visibleNodes nonempty
  have inRange : ∀ index ∈ tree.visibleNodes, index < (workspace.document number).size := by
    intro index member
    have below := (Outline.mem_visibleNodes.1 member).1
    rwa [(workspace.document number).outline_size tree isOutline] at below
  refine ⟨fun node => Outline.mem_visibleNodes, tree.pairwise_visibleNodes, ?_, ?_, ?_, ?_⟩
  · exact exists_walk remembers (navigable.readsThrough_next? isOutline) inRange isFirst
  · have nonemptyList : tree.visibleNodes ≠ [] := by
      intro isEmpty
      rw [isEmpty] at isFirst
      exact absurd isFirst (by simp)
    refine ⟨_, List.getLast?_eq_some_getLast nonemptyList, ?_⟩
    apply exists_walk remembers (navigable.readsThrough_previous? isOutline)
    · intro index member
      exact inRange index (List.mem_reverse.1 member)
    · rw [List.head?_reverse, List.getLast?_eq_some_getLast nonemptyList]
  · intro index indexInRange
    rw [document_apply_command isOutline]
    refine ⟨_, congrArg (Option.map _) isOutline, ?_, ?_, ?_⟩
    · exact Outline.mem_visibleNodes_openingLineage_self indexInRange
    · exact fun node => Outline.mem_visibleNodes_openingLineage
    · exact fun node => Outline.isOpen_openingLineage_of_notMem
  · intro index isOpen
    rw [document_apply_command isOutline]
    refine ⟨_, congrArg (Option.map _) isOutline, ?_, ?_⟩
    · exact fun node => Outline.mem_visibleNodes_opening_iff
    · rintro rfl node below
      exact Outline.notMem_visibleNodes_closing below

/-- A walk that passes over what a closed node hides. -/
theorem walks_list_visible_nodes_past_closed :
    let source : DocumentSource :=
      ⟨.tree [(none, ⟨.tree, []⟩), (some 0, ⟨.tree, []⟩), (some 1, ⟨.tree, []⟩),
        (none, ⟨.tree, []⟩)], [], [], .all⟩
    let workspace := (create default [source.build.1]).after [.command 0 (.setOpen 0 false)]
    let tree := (workspace.document 0).links
    ((workspace.document 0).outline = some tree ∧ 0 < tree.size) ∧
      ∃ id later,
        workspace.cursor 0 .undetermined 0 = (some id, later) ∧
          (walk Workspace.next ⟨later, .empty, .empty, .empty⟩ id 999).2 = [0, 3] := by
  intro source workspace tree
  have hasNodes : (workspace.document 0).outline = some tree ∧ 0 < tree.size := by
    decide +kernel
  have listed : tree.visibleNodes = [0, 3] := by decide +kernel
  obtain ⟨-, -, forward, -⟩ :=
    walks_list_visible_nodes (fun _ option => .standard option) default [source]
      [.command 0 (.setOpen 0 false)] 0 tree hasNodes
  obtain ⟨id, later, isCursor, walked⟩ := forward .undetermined
  refine ⟨hasNodes, id, later, isCursor, ?_⟩
  rw [walked, listed]
  rfl

end Folio.Session
