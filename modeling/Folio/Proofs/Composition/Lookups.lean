import Mathlib.Data.List.TakeWhile
import Folio.Composition.Analysis

/-!
# Lookups by place

Analysis goes through a run by places: it looks up the characters at the places of breaks, cuts
the run between the places of two characters, and looks up levels at bytes.  None of these
places is ever out of range or inside a character, whatever breaks the rules report and in
whatever order.  So analysis always has a result, and its levels are those of the three parts
of the run: the blanks at the two ends and what lies between.
-/

namespace Folio

/-! ## The level at the end -/

/-- The level at the end of the way from a level along others. -/
def lastLevel (start : Bidi.Level) (levels : List Bidi.Level) : Bidi.Level :=
  levels.getLast?.getD start

theorem lastLevel_cons (start level : Bidi.Level) (rest : List Bidi.Level) :
    lastLevel start (level :: rest) = lastLevel level rest := by
  rw [lastLevel, List.getLast?_cons, Option.getD_some, lastLevel]

theorem lastLevel_append (start : Bidi.Level) (first later : List Bidi.Level) :
    lastLevel start (first ++ later) = lastLevel (lastLevel start first) later := by
  induction first generalizing start with
  | nil => rfl
  | cons level rest ofRest => rw [List.cons_append, lastLevel_cons, ofRest, lastLevel_cons]

@[simp]
theorem lastLevel_replicate (start : Bidi.Level) (count : Nat) :
    lastLevel start (List.replicate count start) = start := by
  induction count with
  | zero => rfl
  | succ count ofCount => rw [List.replicate_succ, lastLevel_cons, ofCount]

/-- To stay where the way begins, and where it ends, does not change its end. -/
theorem lastLevel_of_stays (start : Bidi.Level) (before after : Nat) (levels : List Bidi.Level) :
    lastLevel start
        (List.replicate before start ++ levels ++
          List.replicate after (lastLevel start levels)) =
      lastLevel start levels := by
  rw [lastLevel_append, lastLevel_append, lastLevel_replicate, lastLevel_replicate]

namespace Analysis

/-! ## The pass over the breaks -/

theorem seek_le
    (places : Array (Nat × Char))
    (position place distance : Nat) :
    seek places position place distance ≤ place + distance := by
  induction distance generalizing place with
  | zero => exact Nat.le_refl _
  | succ distance nextLe =>
      unfold seek
      split
      · split
        · have next := nextLe (place + 1)
          omega
        · exact Nat.le_add_right _ _
      · exact Nat.le_add_right _ _

/-- A scan has one boundary for each of so many characters, and has not gone past them. -/
structure BreakScan.Fits (scan : BreakScan) (count : Nat) : Prop where
  size_eq : scan.boundaries.size = count
  place_le : scan.place ≤ count

section

variable
    {size : Nat}
    {places : Array (Nat × Char)}
    {position : Nat}
    {scan next : BreakScan}

theorem BreakScan.Fits.found_le (fits : scan.Fits places.size) (position : Nat) :
    scan.found places position ≤ places.size := by
  have reached := seek_le places position scan.place (places.size - scan.place)
  have inRange := fits.place_le
  rw [BreakScan.found]
  omega

/-- What the opportunity at an offset can do to the boundaries of a run at a place. -/
inductive Opens (places : Array (Nat × Char)) (position place : Nat)
    (boundaries : Array Boundary) : Array Boundary → Prop
  | stray
      (notHere : ∀ c, places[place]? = some (position, c) → place = 0) :
      Opens places position place boundaries boundaries
  | marked
      {c previous : Char}
      {offset : Nat}
      (notFirst : place ≠ 0)
      (here : places[place]? = some (position, c))
      (behind : places[place - 1]? = some (offset, previous)) :
      Opens places position place boundaries
        (boundaries.setIfInBounds place (openBoundary previous))

theorem exists_openAt?
    {boundaries : Array Boundary}
    {place : Nat}
    (sameSize : boundaries.size = places.size)
    (placeLe : place ≤ places.size)
    (position : Nat) :
    ∃ opened, openAt? places position place boundaries = some opened ∧
      Opens places position place boundaries opened := by
  by_cases outside : place = 0 ∨ place = places.size
  · refine ⟨boundaries, if_pos outside, .stray fun c isHere => ?_⟩
    have inRange := (Array.getElem?_eq_some_iff.1 isHere).1
    omega
  · have inRange : place < places.size := by omega
    have canWrite : place < boundaries.size := sameSize ▸ inRange
    have isHere : places[place]? = some places[place] := Array.getElem?_eq_getElem inRange
    have isBehind : places[place - 1]? = some places[place - 1] :=
      Array.getElem?_eq_getElem (by omega)
    by_cases begins : places[place].1 = position
    · refine ⟨boundaries.setIfInBounds place (openBoundary places[place - 1].2), ?_,
        .marked (by omega) (by rw [isHere, ← begins]) isBehind⟩
      simp [openAt?, outside, isHere, isBehind, begins, write?, canWrite]
    · refine ⟨boundaries, ?_, .stray fun c isThere => ?_⟩
      · simp [openAt?, outside, isHere, begins]
      · rw [isHere] at isThere
        exact absurd (congrArg Prod.fst (Option.some.inj isThere)) begins

theorem Opens.size_eq
    {boundaries opened : Array Boundary}
    {place : Nat}
    (opens : Opens places position place boundaries opened) :
    opened.size = boundaries.size := by
  cases opens with
  | stray => rfl
  | marked => exact Array.size_setIfInBounds

/-- What the opportunity at an offset can do to a scan. -/
inductive Marks (size : Nat) (places : Array (Nat × Char)) (position : Nat)
    (scan : BreakScan) : BreakScan → Prop
  | unused
      (atEnd : position = 0 ∨ size ≤ position) :
      Marks size places position scan scan
  | reached
      {opened : Array Boundary}
      (inside : 0 < position ∧ position < size)
      (opens : Opens places position (scan.found places position) scan.boundaries opened) :
      Marks size places position scan ⟨opened, scan.found places position⟩

/-- A scan that fits its run can take any opportunity. -/
theorem exists_markBreak?
    (fits : scan.Fits places.size)
    (size position : Nat) :
    ∃ next, markBreak? size places scan position = some next ∧
      Marks size places position scan next := by
  by_cases atEnd : position = 0 ∨ size ≤ position
  · exact ⟨scan, if_pos atEnd, .unused atEnd⟩
  · obtain ⟨opened, isOpened, opens⟩ :=
      exists_openAt? fits.size_eq (fits.found_le position) position
    refine ⟨⟨opened, scan.found places position⟩, ?_, .reached (by omega) opens⟩
    simp only [markBreak?, if_neg atEnd, isOpened, Option.map_some]

theorem Marks.fits
    (marks : Marks size places position scan next)
    (fits : scan.Fits places.size) :
    next.Fits places.size := by
  cases marks with
  | unused => exact fits
  | reached inside opens => exact ⟨opens.size_eq.trans fits.size_eq, fits.found_le position⟩

theorem exists_foldlM_markBreak?
    (fits : scan.Fits places.size)
    (size : Nat)
    (breaks : List Nat) :
    ∃ last, breaks.foldlM (markBreak? size places) scan = some last ∧
      last.Fits places.size := by
  induction breaks generalizing scan with
  | nil => exact ⟨scan, rfl, fits⟩
  | cons position rest ofRest =>
      obtain ⟨next, stepped, marks⟩ := exists_markBreak? fits size position
      rw [List.foldlM_cons, stepped]
      exact ofRest (marks.fits fits)

end

theorem BreakScan.fits_initial (count : Nat) : (BreakScan.initial count).Fits count :=
  ⟨Array.size_replicate, Nat.zero_le _⟩

section

variable
    (breaks : List Nat)
    (places : List (Nat × Char))

/-- The pass over the breaks comes to its end, with one boundary for each character. -/
theorem exists_boundaries? :
    ∃ found, boundaries? breaks places = some found ∧ found.length = places.length := by
  obtain ⟨last, passed, fits⟩ :=
    exists_foldlM_markBreak? (BreakScan.fits_initial places.toArray.size)
      (Utf8.size (places.map Prod.snd)) breaks
  have found : boundaries? breaks places = some last.boundaries.toList := by
    simp only [boundaries?, passed, Option.map_some]
  exact ⟨_, found, by simpa using fits.size_eq⟩

theorem boundaries?_eq : boundaries? breaks places = some (boundaries breaks places) := by
  obtain ⟨found, isFound, -⟩ := exists_boundaries? breaks places
  rw [boundaries, isFound, Option.getD_some]

@[simp]
theorem length_boundaries : (boundaries breaks places).length = places.length := by
  obtain ⟨found, isFound, sameLength⟩ := exists_boundaries? breaks places
  rw [boundaries, isFound, Option.getD_some, sameLength]

end

/-! ## The blanks at the two ends -/

/-- A run whose blanks at the two ends are taken apart from what lies between. -/
structure Trims (text front inner back : List Char) : Prop where
  text_eq : text = front ++ inner ++ back
  front_blank : ∀ c ∈ front, isBlank c = true
  back_blank : ∀ c ∈ back, isBlank c = true
  head_not_blank : ∀ c, inner.head? = some c → isBlank c = false
  last_not_blank : ∀ c, inner.getLast? = some c → isBlank c = false

theorem not_blank_of_head?_dropWhile
    {text : List Char}
    {c : Char}
    (isHead : (text.dropWhile isBlank).head? = some c) :
    isBlank c = false := by
  have notBlank := List.head?_dropWhile_not isBlank text
  rw [isHead] at notBlank
  simpa using notBlank

theorem core_append_trailingBlanks (text : List Char) :
    core text ++ trailingBlanks text = text.dropWhile isBlank := by
  rw [core, trailingBlanks, ← List.reverse_append, List.takeWhile_append_dropWhile,
    List.reverse_reverse]

/-- A run is the blanks at its start, what lies between, and the blanks at its end. -/
theorem leadingBlanks_append_core_append_trailingBlanks (text : List Char) :
    leadingBlanks text ++ core text ++ trailingBlanks text = text := by
  rw [List.append_assoc, core_append_trailingBlanks, leadingBlanks,
    List.takeWhile_append_dropWhile]

theorem trims (text : List Char) :
    Trims text (leadingBlanks text) (core text) (trailingBlanks text) where
  text_eq := (leadingBlanks_append_core_append_trailingBlanks text).symm
  front_blank := fun _ => List.mem_takeWhile_imp
  back_blank := fun _ member => List.mem_takeWhile_imp (List.mem_reverse.1 member)
  head_not_blank := by
    intro c isHead
    have parted := core_append_trailingBlanks text
    obtain ⟨rest, isCore⟩ := List.head?_eq_some_iff.1 isHead
    rw [isCore] at parted
    exact not_blank_of_head?_dropWhile (congrArg List.head? parted.symm)
  last_not_blank := by
    intro c isLast
    rw [core, List.getLast?_reverse] at isLast
    exact not_blank_of_head?_dropWhile isLast

/-! ### The edges of a run -/

/-- The first character that is not blank stands behind the blanks. -/
theorem findIdx?_not_blank
    {blanks : List Char}
    {c : Char}
    (areBlank : ∀ c ∈ blanks, isBlank c = true)
    (notBlank : isBlank c = false)
    (rest : List Char) :
    (blanks ++ c :: rest).findIdx? (!isBlank ·) = some blanks.length := by
  have noneBefore : blanks.findIdx? (!isBlank ·) = none := by
    simpa [List.findIdx?_eq_none_iff] using areBlank
  simp [List.findIdx?_append, noneBefore, List.findIdx?_cons, notBlank]

variable {text front inner back : List Char}

theorem edges?_eq_none (areBlank : ∀ c ∈ text, isBlank c = true) : edges? text = none := by
  simpa [edges?, List.findIdx?_eq_none_iff] using areBlank

theorem Trims.edges?_eq
    (trims : Trims text front inner back)
    (nonempty : inner ≠ []) :
    edges? text = some (front.length, front.length + (inner.length - 1)) := by
  obtain ⟨rfl, frontBlank, backBlank, headNot, lastNot⟩ := trims
  have fromFront : (front ++ inner ++ back).findIdx? (!isBlank ·) = some front.length := by
    cases inner with
    | nil => exact absurd rfl nonempty
    | cons c rest =>
        rw [List.append_assoc]
        exact findIdx?_not_blank frontBlank (headNot c rfl) (rest ++ back)
  have fromBack :
      (front ++ inner ++ back).reverse.findIdx? (!isBlank ·) = some back.length := by
    obtain ⟨initial, final, rfl⟩ := List.eq_nil_or_concat inner |>.resolve_left nonempty
    have notBlank := lastNot final (by simp)
    have reversed : ∀ c ∈ back.reverse, isBlank c = true :=
      fun c member => backBlank c (List.mem_reverse.1 member)
    simpa using findIdx?_not_blank reversed notBlank (initial.reverse ++ front.reverse)
  have someInner : 0 < inner.length := List.length_pos_iff.2 nonempty
  rw [edges?, fromFront, fromBack]
  simp only [Option.map_some, Option.getD_some, List.length_append, Option.some.injEq,
    Prod.mk.injEq, true_and]
  omega

/-! ### Parts of lists -/

section

variable {α : Type}

theorem span?_append (front inner back : List α) :
    span? (front ++ inner ++ back) front.length (front.length + inner.length) = some inner := by
  rw [span?, if_pos (by simp), List.take_append_of_le_length (by simp),
    List.take_of_length_le (by simp), List.drop_left]

theorem replaceFrom?_append
    {inner fresh : List α}
    (sameLength : fresh.length = inner.length)
    (front back : List α) :
    replaceFrom? (front ++ inner ++ back) front.length fresh = some (front ++ fresh ++ back) := by
  rw [replaceFrom?, if_pos (by simp [sameLength]), sameLength, ← List.length_append,
    List.drop_left, List.append_assoc front, List.take_left]

end

/-! ### The levels of the bytes -/

/-- Each character finds its level at the byte at which it begins. -/
theorem mapM_levelAt?
    {levels : List Bidi.Level}
    (sameLength : levels.length = text.length)
    (before : List Bidi.Level)
    (start : Nat) :
    (Utf8.placesFrom (start + before.length) text).mapM
        (fun place => levelAt? (before ++ byteLevels levels text).toArray start place.1) =
      some levels := by
  induction text generalizing levels before with
  | nil => rw [List.eq_nil_of_length_eq_zero sameLength]; rfl
  | cons c rest ofRest =>
      cases levels with
      | nil => exact absurd sameLength (by simp)
      | cons level levels =>
          have sameRest : levels.length = rest.length := by simpa using sameLength
          have next := ofRest sameRest (before ++ List.replicate c.utf8Size level)
          have bytes :
              before ++ byteLevels (level :: levels) (c :: rest) =
                before ++ List.replicate c.utf8Size level ++ byteLevels levels rest := by
            simp [byteLevels]
          have here :
              levelAt? (before ++ byteLevels (level :: levels) (c :: rest)).toArray start
                (start + before.length) = some level := by
            have someByte : 0 < (List.replicate c.utf8Size level).length := by
              rw [List.length_replicate]
              exact c.utf8Size_pos
            rw [bytes, levelAt?, if_pos (Nat.le_add_right ..), Nat.add_sub_cancel_left,
              List.getElem?_toArray, List.append_assoc, List.getElem?_append_right (Nat.le_refl _),
              Nat.sub_self, List.getElem?_append_left someByte, List.getElem?_replicate_of_lt]
            exact c.utf8Size_pos
          rw [Utf8.placesFrom, List.mapM_cons, here, bytes]
          rw [List.length_append, List.length_replicate, ← Nat.add_assoc] at next
          rw [next]
          rfl

@[simp]
theorem length_coreLevels
    (rules : TextRules)
    (base : Bidi.Level)
    (text : List Char) :
    (coreLevels rules base text).length = text.length := by
  unfold coreLevels
  split
  · exact rules.length_levels base text
  · exact List.length_replicate

section

variable (trims : Trims text front inner back)

include trims

theorem Trims.length_eq : text.length = front.length + inner.length + back.length := by
  rw [trims.text_eq, List.length_append, List.length_append]

/-- What lies between the blanks begins behind those at the start. -/
theorem Trims.place_of_first (nonempty : inner ≠ []) :
    ∃ c, (Utf8.places text)[front.length]? = some (Utf8.size front, c) := by
  obtain ⟨c, rest, rfl⟩ := List.exists_cons_of_ne_nil nonempty
  exact ⟨c, by simp [Utf8.getElem?_places, trims.text_eq]⟩

/-- What lies between the blanks ends at the end of its last character. -/
theorem Trims.place_of_last (nonempty : inner ≠ []) :
    ∃ offset c,
      (Utf8.places text)[front.length + (inner.length - 1)]? = some (offset, c) ∧
        offset + c.utf8Size = Utf8.size front + Utf8.size inner := by
  obtain ⟨initial, c, rfl⟩ := List.eq_nil_or_concat inner |>.resolve_left nonempty
  refine ⟨Utf8.size front + Utf8.size initial, c, ?_, by simp [Nat.add_assoc]⟩
  have lastPlace : front.length + ((initial.concat c).length - 1) = (front ++ initial).length := by
    simp
  rw [lastPlace, Utf8.getElem?_places, trims.text_eq, List.concat_eq_append,
    ← List.append_assoc front, List.append_assoc (front ++ initial), List.take_left]
  simp

theorem Trims.slice?_eq :
    Utf8.slice? text (Utf8.size front) (Utf8.size front + Utf8.size inner) = some inner := by
  rw [trims.text_eq, Utf8.slice?_append]

theorem Trims.span?_places :
    span? (Utf8.places text) front.length (front.length + inner.length) =
      some (Utf8.placesFrom (Utf8.size front) inner) := by
  have parts := span?_append (Utf8.placesFrom 0 front) (Utf8.placesFrom (Utf8.size front) inner)
    (Utf8.placesFrom (Utf8.size front + Utf8.size inner) back)
  rw [Utf8.length_placesFrom, Utf8.length_placesFrom] at parts
  rw [← parts, trims.text_eq, Utf8.places, Utf8.placesFrom_append, Utf8.placesFrom_append]
  simp

end

/-- What lies between the blanks has the levels that the rules give it, or the base level. -/
theorem resolve?_eq
    (rules : TextRules)
    (base : Bidi.Level)
    (text : List Char)
    (start : Nat) :
    resolve? rules base text start (Utf8.placesFrom start text) =
      some (coreLevels rules base text) := by
  unfold resolve? coreLevels
  split
  · exact mapM_levelAt? (rules.length_levels base text) [] start
  · simp [List.map_const']

theorem settle?_eq
    {resolved replaced : List Bidi.Level}
    (nonempty : resolved ≠ [])
    (sameLength : resolved.length = replaced.length)
    (front behind : List Bidi.Level)
    (latest : Bidi.Level) :
    settle? (front ++ replaced ++ behind) resolved front.length
        (front.length + (resolved.length - 1)) =
      some
        (front ++ resolved ++ List.replicate behind.length (lastLevel latest resolved),
          lastLevel latest resolved) := by
  obtain ⟨initial, finish, rfl⟩ := List.eq_nil_or_concat resolved |>.resolve_left nonempty
  have isFinish : lastLevel latest (initial.concat finish) = finish := by
    simp [lastLevel]
  have put := replaceFrom?_append sameLength front behind
  have isLast :
      (front ++ initial.concat finish ++ behind)[front.length +
        ((initial.concat finish).length - 1)]? = some finish := by
    simp
  have next :
      front.length + ((initial.concat finish).length - 1) + 1 =
        (front ++ initial.concat finish).length := by
    simp [Nat.add_assoc]
  have rest :
      (front ++ initial.concat finish ++ behind).length - (front ++ initial.concat finish).length =
        behind.length := by
    rw [List.length_append, Nat.add_sub_cancel_left]
  have follow :
      replaceFrom? (front ++ initial.concat finish ++ behind)
          (front ++ initial.concat finish).length (List.replicate behind.length finish) =
        some (front ++ initial.concat finish ++ List.replicate behind.length finish) := by
    simpa using replaceFrom?_append (List.length_replicate (a := finish))
      (front ++ initial.concat finish) []
  simp only [settle?, Option.bind_eq_bind, put, Option.bind_some, isLast, next, rest, follow,
    isFinish]
  rfl

/-- A run ends on the level of the last character that was resolved. -/
theorem lastLevel_levels
    (rules : TextRules)
    (base latest : Bidi.Level)
    (text : List Char) :
    lastLevel latest (levels rules base latest text) =
      lastLevel latest (coreLevels rules base (core text)) :=
  lastLevel_of_stays latest _ _ _

/-- Levels are found for all characters of a run, and it ends on the last of them. -/
theorem levels?_eq (rules : TextRules) (base latest : Bidi.Level) (text : List Char) :
    levels? rules base latest text =
      some (levels rules base latest text,
        lastLevel latest (levels rules base latest text)) := by
  have trimmed := trims text
  have sameLength := length_coreLevels rules base (core text)
  have carried :
      List.replicate text.length latest =
        List.replicate (leadingBlanks text).length latest ++
          List.replicate (coreLevels rules base (core text)).length latest ++
          List.replicate (trailingBlanks text).length latest := by
    rw [List.replicate_append_replicate, List.replicate_append_replicate, sameLength,
      ← trimmed.length_eq]
  rw [lastLevel_levels]
  by_cases isEmpty : core text = []
  · have allBlank : ∀ c ∈ text, isBlank c = true := by
      intro c member
      rw [trimmed.text_eq, isEmpty, List.append_nil, List.mem_append] at member
      exact member.elim (trimmed.front_blank c) (trimmed.back_blank c)
    have noLevels : coreLevels rules base (core text) = [] :=
      List.eq_nil_of_length_eq_zero (by rw [sameLength, isEmpty, List.length_nil])
    rw [levels?, edges?_eq_none allBlank, carried, levels, noLevels]
    rfl
  · obtain ⟨first, isFirst⟩ := trimmed.place_of_first isEmpty
    obtain ⟨offset, last, isLast, ends⟩ := trimmed.place_of_last isEmpty
    have someInner : 0 < (core text).length := List.length_pos_iff.2 isEmpty
    have behind :
        (leadingBlanks text).length + ((core text).length - 1) + 1 =
          (leadingBlanks text).length + (core text).length := by omega
    have someLevel : coreLevels rules base (core text) ≠ [] := by
      rwa [← List.length_pos_iff, sameLength]
    simp only [levels?, trimmed.edges?_eq isEmpty, isFirst, isLast, ends, trimmed.slice?_eq,
      behind, trimmed.span?_places, Option.bind_eq_bind, Option.bind_some, resolve?_eq]
    have settled :=
      settle?_eq someLevel (List.length_replicate (a := latest)).symm
        (List.replicate (leadingBlanks text).length latest)
        (List.replicate (trailingBlanks text).length latest) latest
    rw [List.length_replicate, List.length_replicate] at settled
    rw [carried, ← sameLength, settled]
    rfl

end Analysis

end Folio
