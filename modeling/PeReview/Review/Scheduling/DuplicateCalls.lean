import PeReview.Data.SortedJson
import PeReview.Repos.Evidence
import PeReview.Review.Scheduling.ToolKeys

/-!
# Calls with one key

A tool call with the key of an earlier one is suppressed.  When two such calls read the
same of every repository.
-/

namespace PeReview.Scheduling

open PeReview.Data

/-- `_tool_call_key`: the texts of two calls are the same if and only if these are. -/
def toolCallText (name : String) (arguments : Dict String Json) :
    Except Failure (String × Dict String Json) :=
  (canonicalToolCallKey name arguments).map fun key => (key.1, Json.sortedFields key.2)

def SameKey (name other : String) (first second : Dict String Json) : Prop :=
  ∃ key, toolCallText name first = .ok key ∧ toolCallText other second = .ok key

/-- The pathspec of a search, if its query is not refused. -/
def searchSpec (arguments : Dict String Json) : Option (Option String) :=
  (nonEmptyText (Json.field arguments "query")).bind fun _ =>
    pathspecOf (Json.field arguments "path")

def rangePlaces (arguments : Dict String Json) : List (Option (List String)) :=
  match Json.field arguments "ranges" with
  | .array ranges => (ranges.take batchReadMaxRanges).map rangePlace
  | _ => []

/-- Two calls spell their paths with the same components, and their pathspecs alike; or both
are refused as they stand. -/
def SpelledAlike (name : String) (first second : Dict String Json) : Prop :=
  if name = "read_file" then readPlace first = readPlace second
  else if name = "batch_read" then rangePlaces first = rangePlaces second
  else if name = "search_text" then searchSpec first = searchSpec second
  else if name = "list_files" then
    pathspecOf (Json.field first "path") = pathspecOf (Json.field second "path")
  else True

section Integers

variable {value other result : Json} {default low : Int} {high : Option Int}

theorem boundedInt_congr (same : value.toInt = other.toInt) :
    boundedInt value default low high = boundedInt other default low high := by
  unfold boundedInt
  rw [same]

/-- The executor reads of the canonical number what it reads of the number. -/
theorem boundedInt_canonicalInt (clamped : ∀ parsed,
      clamp low high (clamp low high parsed) = clamp low high parsed)
    (within : clamp low high default = default)
    (computed : canonicalInt value default low high = .ok result) :
    boundedInt result default low high = boundedInt value default low high := by
  unfold canonicalInt at computed
  unfold boundedInt
  cases read_ : value.toInt with
  | ok parsed =>
      rw [read_] at computed
      cases computed
      simp only [Json.toInt, clamped]
  | error raised =>
      rw [read_] at computed
      cases raised with
      | overflowError => cases computed
      | typeError | valueError | osError | runtimeError =>
          cases value with
          | null =>
              cases computed
              simp only [Json.toInt, within]
          | bool _ | int _ | float _ | string _ | array _ | object _ =>
              cases computed
              rw [read_]

/-- A number of a key is none that the executor raises for. -/
theorem boundedInt_of_canonicalInt (computed : canonicalInt value default low high = .ok result) :
    ∃ number, boundedInt value default low high = .ok number := by
  unfold canonicalInt at computed
  unfold boundedInt
  cases read_ : value.toInt with
  | ok parsed => exact ⟨_, rfl⟩
  | error raised =>
      cases raised with
      | overflowError =>
          rw [read_] at computed
          cases computed
      | typeError | valueError | osError | runtimeError => exact ⟨_, rfl⟩

theorem clamp_from_one (parsed : Int) :
    clamp 1 none (clamp 1 none parsed) = clamp 1 none parsed := by
  simp [clamp]

theorem clamp_to_hundred (parsed : Int) :
    clamp 1 (some 100) (clamp 1 (some 100) parsed) = clamp 1 (some 100) parsed := by
  simp only [clamp]
  omega

end Integers

section Keys

variable {name other : String} {first second : Dict String Json}

/-- The canonical arguments of calls with one key are the same but for the order of
fields. -/
theorem SameKey.canonical (same : SameKey name other first second) :
    name = other ∧ ∃ one another, canonicalToolArguments name first = .ok one ∧
      canonicalToolArguments other second = .ok another ∧
      Json.sortedFields one = Json.sortedFields another := by
  obtain ⟨key, isFirst, isSecond⟩ := same
  unfold toolCallText canonicalToolCallKey at isFirst isSecond
  cases ofFirst : canonicalToolArguments name first with
  | error raised =>
      rw [ofFirst] at isFirst
      cases isFirst
  | ok one =>
      cases ofSecond : canonicalToolArguments other second with
      | error raised =>
          rw [ofSecond] at isSecond
          cases isSecond
      | ok another =>
          rw [ofFirst, Except.ok_bind] at isFirst
          rw [ofSecond, Except.ok_bind] at isSecond
          split at isFirst
          · split at isSecond
            · have joined := Except.ok.inj (isFirst.trans isSecond.symm)
              rw [Prod.mk.injEq] at joined
              exact ⟨joined.1, one, another, rfl, rfl, joined.2⟩
            · cases isSecond
          · cases isFirst

/-- A field of calls with one key is the same but for the order of fields. -/
theorem fieldOr_eq_of_sorted {one another : Dict String Json} {key : String} {default : Json}
    (plain : Json.sorted default = default)
    (same : Json.sortedFields one = Json.sortedFields another) :
    Json.sorted (Json.fieldOr one key default) =
      Json.sorted (Json.fieldOr another key default) := by
  rw [← Json.fieldOr_sortedFields plain, same, Json.fieldOr_sortedFields plain]

theorem field_eq_of_sorted {one another : Dict String Json} (key : String)
    (same : Json.sortedFields one = Json.sortedFields another) :
    Json.sorted (Json.field one key) = Json.sorted (Json.field another key) :=
  fieldOr_eq_of_sorted rfl same

end Keys

section ReadFile

variable {first second arguments canonical : Dict String Json} {value : Json} {start : Int}
  {stop : Option Int}

theorem readEndLine_sorted : readEndLine (Json.sorted value) = readEndLine value := by
  cases value <;> rfl

theorem one_le_canonicalInt {result : Int}
    (computed : canonicalInt value 1 1 = .ok (.int result)) : 1 ≤ result := by
  unfold canonicalInt at computed
  cases read_ : value.toInt with
  | ok parsed =>
      rw [read_] at computed
      cases computed
      exact Int.le_max_left 1 parsed
  | error raised =>
      rw [read_] at computed
      cases raised with
      | overflowError => cases computed
      | typeError | valueError | osError | runtimeError =>
          cases value with
          | int number => cases read_
          | null =>
              cases computed
              exact Int.le_refl 1
          | bool _ | float _ | string _ | array _ | object _ => cases computed

/-- An end that is not refused is absent or a positive number. -/
theorem end_of_accepted (accepted : readEndLine value = .ok (.ok stop)) :
    value = .null ∧ stop = none ∨
      ∃ parsed, value.toInt = .ok parsed ∧ 1 ≤ parsed ∧ stop = some parsed ∧
        value ≠ .null := by
  unfold readEndLine at accepted
  split at accepted
  · cases accepted
    exact Or.inl ⟨rfl, rfl⟩
  · rename_i present
    split at accepted
    · cases accepted
    · cases accepted
    · rename_i parsed read_
      split at accepted
      · cases accepted
      · cases accepted
        exact Or.inr ⟨parsed, read_, by omega, rfl, present⟩

/-- The end of a range as the key has it, where the executor takes the end. -/
theorem readEndLine_canonicalEnd {result : Json} (positive : 1 ≤ start)
    (accepted : readEndLine value = .ok (.ok stop))
    (computed : canonicalEnd value start = .ok result) :
    ∃ other, readEndLine result = .ok (.ok other) ∧
      other.getD (start + 199) = stop.getD (start + 199) := by
  have reads : ∀ number : Int, 1 ≤ number →
      readEndLine (.int number) = .ok (.ok (some number)) := by
    intro number large
    unfold readEndLine
    simp only [Json.toInt]
    rw [if_neg (by omega)]
  rcases end_of_accepted accepted with ⟨absent, none_⟩ | ⟨parsed, read_, large, some_, present⟩
  · rw [absent] at computed
    cases computed
    rw [none_]
    exact ⟨some (start + 199), reads _ (by omega), rfl⟩
  · unfold canonicalEnd at computed
    split at computed
    · exact absurd rfl present
    · unfold canonicalInt at computed
      rw [read_] at computed
      cases computed
      have kept : clamp 1 none parsed = parsed := by
        simp only [clamp]
        omega
      rw [kept, some_]
      exact ⟨some parsed, reads parsed large, rfl⟩

/-- The executor reads from the canonical arguments what it reads from the arguments. -/
theorem read_canonical (computed : canonicalToolArguments "read_file" arguments = .ok canonical) :
    boundedInt (Json.fieldOr canonical "start_line" (.int 1)) 1 1 =
        boundedInt (Json.fieldOr arguments "start_line" (.int 1)) 1 1 ∧
      ∀ start stop, boundedInt (Json.fieldOr arguments "start_line" (.int 1)) 1 1 = .ok start →
        readEndLine (Json.field arguments "end_line") = .ok (.ok stop) →
          ∃ other, readEndLine (Json.field canonical "end_line") = .ok (.ok other) ∧
            other.getD (max 1 start + 199) = stop.getD (max 1 start + 199) := by
  unfold canonicalToolArguments at computed
  rw [if_pos rfl] at computed
  cases begins : canonicalInt (Json.fieldOr arguments "start_line" (.int 1)) 1 1 with
  | error raised =>
      rw [begins] at computed
      cases computed
  | ok first =>
      have same := boundedInt_canonicalInt clamp_from_one rfl begins
      rw [begins, Except.ok_bind] at computed
      cases first with
      | int first =>
          have positive := one_le_canonicalInt begins
          dsimp only at computed
          cases ends : canonicalEnd (Json.field arguments "end_line") first with
          | error raised =>
              rw [ends] at computed
              cases computed
          | ok last =>
              rw [ends, Except.ok_bind] at computed
              cases computed
              have isStart : Json.fieldOr
                  [("path", canonicalPath (Json.field arguments "path")),
                    ("start_line", .int first), ("end_line", last)] "start_line" (.int 1) =
                  .int first := by
                simp [Json.fieldOr, Dict.get?]
              have isStop : Json.field
                  [("path", canonicalPath (Json.field arguments "path")),
                    ("start_line", .int first), ("end_line", last)] "end_line" = last := by
                simp [Json.field, Dict.get?]
              rw [isStart, isStop]
              refine ⟨same, ?_⟩
              intro start stop starts accepted
              rw [← same] at starts
              have value : start = first := by
                have read_ : boundedInt (.int first) 1 1 = .ok (max 1 first) := rfl
                rw [read_] at starts
                have equal := Except.ok.inj starts
                omega
              have bound : max 1 start = first := by omega
              rw [bound]
              exact readEndLine_canonicalEnd positive accepted ends
      | null | bool _ | float _ | string _ | array _ | object _ =>
          cases computed
          exact ⟨rfl, fun _ stop _ accepted => ⟨stop, accepted, rfl⟩⟩

/-- Calls with one key read the same lines, if neither is refused. -/
theorem SameKey.read_file (same : SameKey "read_file" "read_file" first second) :
    boundedInt (Json.fieldOr first "start_line" (.int 1)) 1 1 =
        boundedInt (Json.fieldOr second "start_line" (.int 1)) 1 1 ∧
      ∀ start stop other,
        boundedInt (Json.fieldOr first "start_line" (.int 1)) 1 1 = .ok start →
          readEndLine (Json.field first "end_line") = .ok (.ok stop) →
            readEndLine (Json.field second "end_line") = .ok (.ok other) →
              stop.getD (max 1 start + 199) = other.getD (max 1 start + 199) := by
  obtain ⟨_, one, another, ofFirst, ofSecond, sorted⟩ := same.canonical
  obtain ⟨firstStart, firstStop⟩ := read_canonical ofFirst
  obtain ⟨secondStart, secondStop⟩ := read_canonical ofSecond
  have starts : boundedInt (Json.fieldOr one "start_line" (.int 1)) 1 1 =
      boundedInt (Json.fieldOr another "start_line" (.int 1)) 1 1 := by
    apply boundedInt_congr
    rw [← Json.toInt_sorted, fieldOr_eq_of_sorted rfl sorted, Json.toInt_sorted]
  have ends : readEndLine (Json.field one "end_line") =
      readEndLine (Json.field another "end_line") := by
    rw [← readEndLine_sorted, ← Json.field_sortedFields, sorted, Json.field_sortedFields,
      readEndLine_sorted]
  have begins : boundedInt (Json.fieldOr first "start_line" (.int 1)) 1 1 =
      boundedInt (Json.fieldOr second "start_line" (.int 1)) 1 1 := by
    rw [← firstStart, starts, secondStart]
  refine ⟨begins, ?_⟩
  intro start stop other isStart accepted otherAccepted
  obtain ⟨keyStop, reads, value⟩ := firstStop start stop isStart accepted
  obtain ⟨otherStop, otherReads, otherValue⟩ :=
    secondStop start other (begins ▸ isStart) otherAccepted
  rw [ends, otherReads] at reads
  cases reads
  rw [← value, otherValue]

/-- A place that is read, and how it is asked for. -/
theorem request_of_readPlace {parts : List String} (place : readPlace arguments = some parts) :
    ∃ path stop, nonEmptyText (Json.field arguments "path") = some path ∧
      readEndLine (Json.field arguments "end_line") = .ok (.ok stop) ∧
      placeOf path = some parts := by
  unfold readPlace at place
  split at place
  · rename_i stop accepted
    obtain ⟨path, isPath, found⟩ := Option.bind_eq_some_iff.mp place
    exact ⟨path, stop, isPath, accepted, found⟩
  · cases place

/-- Nothing is read without a place. -/
theorem evidence_of_readPlace_none {workspace : Workspace} (tree : workspace.IsTree)
    (nowhere : readPlace arguments = none) :
    evidence (execute workspace "read_file" arguments) = none := by
  rw [evidence_read_file]
  unfold readPlace at nowhere
  cases isPath : nonEmptyText (Json.field arguments "path") with
  | none => rfl
  | some path =>
      split
      · rename_i other stop start isOther accepted starts
        cases isOther
        rw [accepted, isPath] at nowhere
        simp only [Option.bind_some] at nowhere
        rw [Workspace.look_root tree (placeOf_eq_none.mp nowhere)]
        rfl
      · rfl

theorem evidence_of_readPlace {workspace : Workspace} {path : String}
    (isPath : nonEmptyText (Json.field arguments "path") = some path)
    (accepted : readEndLine (Json.field arguments "end_line") = .ok (.ok stop))
    (starts : boundedInt (Json.fieldOr arguments "start_line" (.int 1)) 1 1 = .ok start) :
    evidence (execute workspace "read_file" arguments) =
      linesAt (workspace.look path) (max 1 start) (stop.getD (max 1 start + 199)) := by
  rw [evidence_read_file, isPath, accepted, starts]

/-- A start line that is no number is read as one, and an infinite one ends the review. -/
theorem start_of_key {other : String} (same : SameKey "read_file" other first second) :
    ∃ start, boundedInt (Json.fieldOr first "start_line" (.int 1)) 1 1 = .ok start := by
  obtain ⟨_, one, _, ofFirst, _⟩ := same.canonical
  unfold canonicalToolArguments at ofFirst
  rw [if_pos rfl] at ofFirst
  cases begins : canonicalInt (Json.fieldOr first "start_line" (.int 1)) 1 1 with
  | error raised =>
      rw [begins] at ofFirst
      cases ofFirst
  | ok result => exact boundedInt_of_canonicalInt begins

/-- In a marked tree the evidence tells the place. -/
theorem evidence_read_markedTree {wanted : List String}
    (starts : boundedInt (Json.fieldOr arguments "start_line" (.int 1)) 1 1 = .ok start) :
    ∃ stop, evidence (execute (markedTree wanted []) "read_file" arguments) =
      (readPlace arguments).map fun parts =>
        .lines (mark wanted parts) (max 1 start) stop := by
  cases place : readPlace arguments with
  | none => exact ⟨0, evidence_of_readPlace_none isTree_markedTree place⟩
  | some parts =>
      obtain ⟨path, stop, isPath, accepted, placed⟩ := request_of_readPlace place
      refine ⟨stop.getD (max 1 start + 199), ?_⟩
      rw [evidence_of_readPlace isPath accepted starts, look_markedTree, placed]
      rfl

theorem map_mark_of_lines {places others : Option (List String)} {wanted : List String}
    {begin_ last otherLast : Int}
    (same : (places.map fun parts => Evidence.lines (mark wanted parts) begin_ last) =
      others.map fun parts => Evidence.lines (mark wanted parts) begin_ otherLast) :
    places.map (mark wanted) = others.map (mark wanted) := by
  cases places with
  | none =>
      cases others with
      | none => rfl
      | some parts => cases same
  | some parts =>
      cases others with
      | none => cases same
      | some other =>
          rw [Option.map_some, Option.map_some, Option.some.injEq, Evidence.lines.injEq] at same
          rw [Option.map_some, Option.map_some, same.1]

theorem read_file_alike_iff (same : SameKey "read_file" "read_file" first second) :
    (∀ workspace : Workspace, workspace.IsTree →
        evidence (execute workspace "read_file" first) =
          evidence (execute workspace "read_file" second)) ↔
      readPlace first = readPlace second := by
  obtain ⟨start, starts⟩ := start_of_key same
  obtain ⟨begins, ends⟩ := same.read_file
  have secondStarts := begins ▸ starts
  constructor
  · intro alike
    apply eq_of_mark
    intro wanted
    obtain ⟨_, ofFirst⟩ := @evidence_read_markedTree first start wanted starts
    obtain ⟨_, ofSecond⟩ := @evidence_read_markedTree second start wanted secondStarts
    apply map_mark_of_lines
    rw [← ofFirst, ← ofSecond]
    exact alike (markedTree wanted []) isTree_markedTree
  · intro places workspace tree
    cases place : readPlace first with
    | none =>
        rw [evidence_of_readPlace_none tree place,
          evidence_of_readPlace_none tree (places ▸ place)]
    | some parts =>
        obtain ⟨path, stop, isPath, accepted, placed⟩ := request_of_readPlace place
        obtain ⟨other, otherStop, isOther, otherAccepted, otherPlaced⟩ :=
          request_of_readPlace (places ▸ place)
        rw [evidence_of_readPlace isPath accepted starts,
          evidence_of_readPlace isOther otherAccepted secondStarts,
          Workspace.look_eq tree (pathParts_eq placed otherPlaced),
          ends start stop otherStop starts accepted otherAccepted]

end ReadFile

section BatchRead

variable {workspace : Workspace} {first second arguments : Dict String Json}
  {item other : Json} {items others : List Json} {path : String} {start stop : Int}

theorem canonicalRange_of_fields {range : Dict String Json} (isRange : item.fields? = some range)
    (isStart : positiveInt (Json.field range "start_line") = some start)
    (isEnd : positiveInt (Json.field range "end_line") = some stop) :
    canonicalRange item =
      .object
        [("path", canonicalPath (Json.field range "path")),
          ("start_line", Json.field range "start_line"),
          ("end_line", .int (min stop (start + 199)))] := by
  unfold canonicalRange
  rw [isRange]
  dsimp only
  rw [isStart, isEnd]

/-- What a range that is not refused says, and how the key has it. -/
theorem canonicalRange_of_requested (requested : requestedRange item = some (path, start, stop)) :
    ∃ range, canonicalRange item =
        .object
          [("path", canonicalPath (Json.field range "path")),
            ("start_line", Json.field range "start_line"), ("end_line", .int stop)] ∧
      (Json.field range "start_line").exactInt = some start := by
  unfold requestedRange at requested
  split at requested
  · cases requested
  · rename_i range isRange
    split at requested
    · rename_i text begins ends isText isStart isEnd
      split at requested
      · cases requested
      · cases requested
        refine ⟨range, ?_, ?_⟩
        · rw [canonicalRange_of_fields isRange isStart isEnd]
          have last : start + batchReadMaxLines - 1 = start + 199 := by
            unfold batchReadMaxLines
            omega
          rw [last]
        · unfold positiveInt at isStart
          exact (Option.filter_eq_some_iff.mp isStart).1
    · cases requested

/-- Ranges with one key that are not refused ask for the same lines. -/
theorem requestedRange_of_key (same : Json.sorted (canonicalRange item) =
      Json.sorted (canonicalRange other)) {otherPath : String} {otherStart otherStop : Int}
    (requested : requestedRange item = some (path, start, stop))
    (otherRequested : requestedRange other = some (otherPath, otherStart, otherStop)) :
    start = otherStart ∧ stop = otherStop := by
  obtain ⟨range, isItem, begins⟩ := canonicalRange_of_requested requested
  obtain ⟨otherRange, isOther, otherBegins⟩ := canonicalRange_of_requested otherRequested
  rw [isItem, isOther, Json.sorted, Json.sorted, Json.object.injEq] at same
  have startLines := field_eq_of_sorted "start_line" same
  have endLines := field_eq_of_sorted "end_line" same
  simp only [Json.field, Dict.get?, String.reduceEq, if_false, if_true, Option.getD_some]
    at startLines endLines
  constructor
  · have numbers := congrArg Json.exactInt startLines
    rw [Json.exactInt_sorted, Json.exactInt_sorted] at numbers
    exact Option.some.inj (begins.symm.trans (numbers.trans otherBegins))
  · have numbers := congrArg Json.exactInt endLines
    rw [Json.exactInt_sorted, Json.exactInt_sorted] at numbers
    exact Option.some.inj numbers

theorem requestedLines_of_rangePlace_none (tree : workspace.IsTree)
    (nowhere : rangePlace item = none) : requestedLines workspace item = .ok none := by
  unfold rangePlace at nowhere
  unfold requestedLines
  cases requested : requestedRange item with
  | none => rfl
  | some range =>
      obtain ⟨path, start, stop⟩ := range
      rw [requested, Option.bind_some] at nowhere
      dsimp only
      rw [Workspace.look_root tree (placeOf_eq_none.mp nowhere)]
      rfl

/-- Ranges with one key and one place give the same lines. -/
theorem requestedLines_eq (tree : workspace.IsTree)
    (same : Json.sorted (canonicalRange item) = Json.sorted (canonicalRange other))
    (places : rangePlace item = rangePlace other) :
    requestedLines workspace item = requestedLines workspace other := by
  cases place : rangePlace item with
  | none =>
      rw [requestedLines_of_rangePlace_none tree place,
        requestedLines_of_rangePlace_none tree (places ▸ place)]
  | some parts =>
      obtain ⟨⟨path, start, stop⟩, requested, placed⟩ := Option.bind_eq_some_iff.mp place
      obtain ⟨⟨otherPath, otherStart, otherStop⟩, otherRequested, otherPlaced⟩ :=
        Option.bind_eq_some_iff.mp (places ▸ place)
      obtain ⟨starts, stops⟩ := requestedRange_of_key same requested otherRequested
      unfold requestedLines
      rw [requested, otherRequested]
      dsimp only
      rw [Workspace.look_eq tree (pathParts_eq placed otherPlaced), starts, stops]

theorem mapM_requestedLines_eq (tree : workspace.IsTree)
    (same : (items.map canonicalRange).map Json.sorted =
      (others.map canonicalRange).map Json.sorted)
    (places : items.map rangePlace = others.map rangePlace) :
    items.mapM (requestedLines workspace) = others.mapM (requestedLines workspace) := by
  induction items generalizing others with
  | nil =>
      rw [List.map_nil] at places
      rw [List.map_eq_nil_iff.mp places.symm]
  | cons item rest inductionHypothesis =>
      cases others with
      | nil => cases places
      | cons other more =>
          simp only [List.map_cons, List.cons.injEq] at same places
          rw [List.mapM_cons, List.mapM_cons, requestedLines_eq tree same.1 places.1,
            inductionHypothesis same.2 places.2]

/-- The ranges of calls with one key. -/
theorem ranges_of_key (same : SameKey "batch_read" "batch_read" first second)
    (isFirst : Json.field first "ranges" = .array items)
    (isSecond : Json.field second "ranges" = .array others) :
    ((items.take batchReadMaxRanges).map canonicalRange).map Json.sorted =
      ((others.take batchReadMaxRanges).map canonicalRange).map Json.sorted := by
  obtain ⟨_, one, another, ofFirst, ofSecond, sorted⟩ := same.canonical
  unfold canonicalToolArguments at ofFirst ofSecond
  rw [if_neg (by decide), if_pos rfl] at ofFirst ofSecond
  rw [isFirst] at ofFirst
  rw [isSecond] at ofSecond
  cases ofFirst
  cases ofSecond
  have ranges := field_eq_of_sorted "ranges" sorted
  simp only [Json.field, Dict.get?, if_true, Option.getD_some, Json.sorted,
    Json.array.injEq, Json.sortedItems_eq] at ranges
  exact ranges

/-- What `batch_read` gives, by the ranges that are read. -/
theorem evidence_of_ranges (isArray : Json.field arguments "ranges" = .array items) :
    evidence (execute workspace "batch_read" arguments) =
      if items = [] then none
      else rangesAt ((items.take batchReadMaxRanges).mapM (requestedLines workspace)) := by
  rw [evidence_batch_read, isArray]
  cases items with
  | nil => rfl
  | cons range ranges => rfl

theorem evidence_of_rangePlaces_nil (nothing : rangePlaces arguments = []) :
    evidence (execute workspace "batch_read" arguments) = none := by
  unfold rangePlaces at nothing
  split at nothing
  · rename_i ranges isArray
    rw [evidence_of_ranges isArray, if_pos]
    cases ranges with
    | nil => rfl
    | cons range rest => cases nothing
  · rename_i notArray
    rw [evidence_batch_read]
    split
    · rename_i range ranges isArray
      exact absurd isArray (notArray _)
    · rfl

/-- Places that are read are of ranges. -/
theorem ranges_of_rangePlaces (places : rangePlaces arguments ≠ []) :
    ∃ items, Json.field arguments "ranges" = .array items ∧ items ≠ [] ∧
      rangePlaces arguments = (items.take batchReadMaxRanges).map rangePlace := by
  unfold rangePlaces at places ⊢
  split at places
  · rename_i items isArray
    refine ⟨items, isArray, ?_, rfl⟩
    intro none_
    rw [none_] at places
    exact places rfl
  · exact absurd rfl places

/-- In a marked tree the evidence tells the places. -/
theorem evidence_batch_markedTree {wanted : List String} (places : rangePlaces arguments ≠ []) :
    ∃ sections : List (Option (String × Int × Int)),
      evidence (execute (markedTree wanted []) "batch_read" arguments) =
          some (.ranges sections) ∧
        sections.map (Option.map Prod.fst) =
          (rangePlaces arguments).map (Option.map (mark wanted)) := by
  obtain ⟨items, isArray, some_, isPlaces⟩ := ranges_of_rangePlaces places
  have requested : ∀ ranges : List Json, ∃ sections,
      ranges.mapM (requestedLines (markedTree wanted [])) = .ok sections ∧
        sections.map (Option.map Prod.fst) =
          (ranges.map rangePlace).map (Option.map (mark wanted)) := by
    intro ranges
    induction ranges with
    | nil => exact ⟨[], rfl, rfl⟩
    | cons range rest inductionHypothesis =>
        obtain ⟨sections, read_, marks⟩ := inductionHypothesis
        rw [List.mapM_cons, requestedLines_markedTree, Except.ok_bind, read_, Except.ok_bind]
        refine ⟨_, rfl, ?_⟩
        rw [List.map_cons, List.map_cons, List.map_cons, marks]
        unfold rangePlace
        cases requestedRange range with
        | none => rfl
        | some asked =>
            rw [Option.bind_some, Option.bind_some]
            cases placeOf asked.1 with
            | none => rfl
            | some parts => rfl
  obtain ⟨sections, read_, marks⟩ := requested (items.take batchReadMaxRanges)
  refine ⟨sections, ?_, ?_⟩
  · rw [evidence_of_ranges isArray, if_neg some_, read_]
    rfl
  · rw [isPlaces]
    exact marks

theorem rangePlaces_of_alike
    (alike : ∀ wanted, evidence (execute (markedTree wanted []) "batch_read" first) =
      evidence (execute (markedTree wanted []) "batch_read" second)) :
    rangePlaces first = rangePlaces second := by
  by_cases nothing : rangePlaces first = []
  · by_cases nowhere : rangePlaces second = []
    · rw [nothing, nowhere]
    · obtain ⟨sections, read_, _⟩ := @evidence_batch_markedTree second [] nowhere
      have refused := alike []
      rw [evidence_of_rangePlaces_nil nothing, read_] at refused
      cases refused
  · by_cases nowhere : rangePlaces second = []
    · obtain ⟨sections, read_, _⟩ := @evidence_batch_markedTree first [] nothing
      have refused := alike []
      rw [evidence_of_rangePlaces_nil nowhere, read_] at refused
      cases refused
    · apply eq_of_map_mark
      intro wanted
      obtain ⟨sections, read_, marks⟩ := @evidence_batch_markedTree first wanted nothing
      obtain ⟨others, otherRead, otherMarks⟩ := @evidence_batch_markedTree second wanted nowhere
      have same := alike wanted
      rw [read_, otherRead] at same
      cases same
      rw [← marks, otherMarks]

theorem batch_read_alike_iff (same : SameKey "batch_read" "batch_read" first second) :
    (∀ workspace : Workspace, workspace.IsTree →
        evidence (execute workspace "batch_read" first) =
          evidence (execute workspace "batch_read" second)) ↔
      rangePlaces first = rangePlaces second := by
  constructor
  · intro alike
    apply rangePlaces_of_alike
    intro wanted
    exact alike (markedTree wanted []) isTree_markedTree
  · intro places workspace tree
    by_cases nothing : rangePlaces first = []
    · rw [evidence_of_rangePlaces_nil nothing, evidence_of_rangePlaces_nil (places ▸ nothing)]
    · obtain ⟨items, isFirst, some_, firstPlaces⟩ := ranges_of_rangePlaces nothing
      obtain ⟨others, isSecond, otherSome, secondPlaces⟩ :=
        ranges_of_rangePlaces (places ▸ nothing)
      rw [evidence_of_ranges isFirst, evidence_of_ranges isSecond, if_neg some_,
        if_neg otherSome]
      rw [firstPlaces, secondPlaces] at places
      rw [mapM_requestedLines_eq tree (ranges_of_key same isFirst isSecond) places]

end BatchRead

section Pathspecs

variable {first second : Dict String Json} {workspace : Workspace}

theorem nonEmptyText_sorted {value : Json} :
    nonEmptyText (Json.sorted value) = nonEmptyText value := by
  unfold nonEmptyText
  rw [Json.text_sorted]

/-- Calls with one key ask for the same text and as many results. -/
theorem SameKey.search_text (same : SameKey "search_text" "search_text" first second) :
    nonEmptyText (Json.field first "query") = nonEmptyText (Json.field second "query") ∧
      ∃ maxResults,
        boundedInt (Json.fieldOr first "max_results" (.int 40)) 40 1 (some 100) =
            .ok maxResults ∧
          boundedInt (Json.fieldOr second "max_results" (.int 40)) 40 1 (some 100) =
            .ok maxResults := by
  obtain ⟨_, one, another, ofFirst, ofSecond, sorted⟩ := same.canonical
  unfold canonicalToolArguments at ofFirst ofSecond
  rw [if_neg (by decide), if_neg (by decide), if_pos rfl] at ofFirst ofSecond
  cases firstResults :
      canonicalInt (Json.fieldOr first "max_results" (.int 40)) 40 1 (some 100) with
  | error raised =>
      rw [firstResults] at ofFirst
      cases ofFirst
  | ok results =>
      cases secondResults :
          canonicalInt (Json.fieldOr second "max_results" (.int 40)) 40 1 (some 100) with
      | error raised =>
          rw [secondResults] at ofSecond
          cases ofSecond
      | ok others =>
          rw [firstResults, Except.ok_bind] at ofFirst
          rw [secondResults, Except.ok_bind] at ofSecond
          cases ofFirst
          cases ofSecond
          have queries : Json.sorted (Json.field first "query") =
              Json.sorted (Json.field second "query") := by
            apply field_eq_of_sorted "query" sorted
          have limits : Json.sorted results = Json.sorted others := by
            apply field_eq_of_sorted "max_results" sorted
          constructor
          · rw [← nonEmptyText_sorted, queries, nonEmptyText_sorted]
          · obtain ⟨maxResults, ofFirst⟩ := boundedInt_of_canonicalInt firstResults
            refine ⟨maxResults, ofFirst, ?_⟩
            rw [← ofFirst, ← boundedInt_canonicalInt clamp_to_hundred rfl firstResults,
              ← boundedInt_canonicalInt clamp_to_hundred rfl secondResults]
            apply boundedInt_congr
            rw [← Json.toInt_sorted, ← limits, Json.toInt_sorted]

/-- Pathspecs that git is called with are told apart by a git that answers one command. -/
theorem eq_of_commands {pathspecs others : Option (Option String)}
    {command : List String → List String} (apart : Function.Injective command)
    {found : Evidence}
    (same : ∀ wanted,
      (pathspecs.bind fun pathspec =>
          if command (pathspecArguments pathspec) = wanted then some found else none) =
        others.bind fun pathspec =>
          if command (pathspecArguments pathspec) = wanted then some found else none) :
    pathspecs = others := by
  cases pathspecs with
  | none =>
      cases others with
      | none => rfl
      | some other =>
          have answered := same (command (pathspecArguments other))
          rw [Option.bind_none, Option.bind_some, if_pos rfl] at answered
          cases answered
  | some pathspec =>
      have answered := same (command (pathspecArguments pathspec))
      rw [Option.bind_some, if_pos rfl] at answered
      cases others with
      | none => cases answered
      | some other =>
          rw [Option.bind_some] at answered
          split at answered
          · rename_i equal
            rw [pathspecArguments_injective (apart equal)]
          · cases answered

/-- Calls that go to git with one pathspec give one result. -/
theorem bind_eq_of_pathspecOf {path other : Json} {result : Option String → Option Evidence}
    (congr : ∀ first second : Option String,
      (first.filter fun path => path ≠ "") = (second.filter fun path => path ≠ "") →
        result first = result second)
    (same : pathspecOf path = pathspecOf other) :
    (optionalPath path).bind result = (optionalPath other).bind result := by
  unfold pathspecOf at same
  cases isPath : optionalPath path with
  | none =>
      cases isOther : optionalPath other with
      | none => rfl
      | some text =>
          rw [isPath, isOther] at same
          cases same
  | some text =>
      cases isOther : optionalPath other with
      | none =>
          rw [isPath, isOther] at same
          cases same
      | some others =>
          rw [isPath, isOther, Option.map_some, Option.map_some, Option.some.injEq] at same
          exact congr text others same

theorem evidence_list_files_eq :
    evidence (execute workspace "list_files" first) =
      (optionalPath (Json.field first "path")).bind fun path =>
        evidence (listFiles workspace path) := by
  rw [evidence_list_files]
  cases optionalPath (Json.field first "path") <;> rfl

theorem evidence_list_markedTree {wanted : List String} :
    evidence (execute (markedTree [] wanted) "list_files" first) =
      (pathspecOf (Json.field first "path")).bind fun pathspec =>
        if listCommand (markedTree [] []) (pathspecArguments pathspec) = wanted then
          some (.files [])
        else none := by
  rw [evidence_list_files_eq]
  unfold pathspecOf
  rw [Option.bind_map]
  congr 1
  funext path
  exact evidence_listFiles_markedTree

/-- Calls of `list_files` read the same of every tree if and only if git is called with one
pathspec. -/
theorem list_files_alike_iff :
    (∀ workspace : Workspace, workspace.IsTree →
        evidence (execute workspace "list_files" first) =
          evidence (execute workspace "list_files" second)) ↔
      pathspecOf (Json.field first "path") = pathspecOf (Json.field second "path") := by
  constructor
  · intro alike
    apply @eq_of_commands _ _ (listCommand (markedTree [] [])) _ (.files [])
    · intro wanted
      rw [← evidence_list_markedTree, ← evidence_list_markedTree]
      exact alike (markedTree [] wanted) isTree_markedTree
    · intro one other same
      exact List.append_cancel_left same
  · intro same workspace _
    rw [evidence_list_files_eq, evidence_list_files_eq]
    apply bind_eq_of_pathspecOf
    · intro one other filtered
      rw [listFiles_congr filtered]
    · exact same

/-- What `search_text` gives, by the text it is asked for. -/
theorem evidence_search_text_eq {maxResults : Int}
    (limited : boundedInt (Json.fieldOr first "max_results" (.int 40)) 40 1 (some 100) =
      .ok maxResults) :
    evidence (execute workspace "search_text" first) =
      (nonEmptyText (Json.field first "query")).bind fun query =>
        (optionalPath (Json.field first "path")).bind fun path =>
          evidence (searchText workspace query path maxResults) := by
  rw [evidence_search_text, limited]
  cases nonEmptyText (Json.field first "query") with
  | none => rfl
  | some query => cases optionalPath (Json.field first "path") <;> rfl

theorem evidence_search_markedTree {maxResults : Int} {wanted : List String} {query : String}
    (isQuery : nonEmptyText (Json.field first "query") = some query)
    (limited : boundedInt (Json.fieldOr first "max_results" (.int 40)) 40 1 (some 100) =
      .ok maxResults) :
    evidence (execute (markedTree [] wanted) "search_text" first) =
      (pathspecOf (Json.field first "path")).bind fun pathspec =>
        if grepCommand (markedTree [] []) query (pathspecArguments pathspec) = wanted then
          some (.rows [] [])
        else none := by
  rw [evidence_search_text_eq limited, isQuery, Option.bind_some]
  unfold pathspecOf
  rw [Option.bind_map]
  congr 1
  funext path
  exact evidence_searchText_markedTree

theorem search_text_alike_iff (same : SameKey "search_text" "search_text" first second) :
    (∀ workspace : Workspace, workspace.IsTree →
        evidence (execute workspace "search_text" first) =
          evidence (execute workspace "search_text" second)) ↔
      searchSpec first = searchSpec second := by
  obtain ⟨queries, maxResults, limited, otherLimited⟩ := same.search_text
  unfold searchSpec
  cases isQuery : nonEmptyText (Json.field first "query") with
  | none =>
      rw [← queries, isQuery]
      refine ⟨fun _ => rfl, ?_⟩
      intro _ workspace _
      rw [evidence_search_text_eq limited, evidence_search_text_eq otherLimited, ← queries,
        isQuery]
      rfl
  | some query =>
      have otherQuery := queries.symm.trans isQuery
      rw [otherQuery, Option.bind_some, Option.bind_some]
      constructor
      · intro alike
        apply @eq_of_commands _ _ (grepCommand (markedTree [] []) query) _ (.rows [] [])
        · intro wanted
          rw [← evidence_search_markedTree isQuery limited,
            ← evidence_search_markedTree otherQuery otherLimited]
          exact alike (markedTree [] wanted) isTree_markedTree
        · intro one other same
          exact List.append_cancel_left same
      · intro pathspecs workspace _
        rw [evidence_search_text_eq limited, evidence_search_text_eq otherLimited, isQuery,
          otherQuery, Option.bind_some, Option.bind_some]
        apply bind_eq_of_pathspecOf
        · intro one other filtered
          rw [searchText_congr filtered]
        · exact pathspecs

end Pathspecs

section Duplicates

variable {name other : String} {first second : Dict String Json}

theorem evidence_unknown {workspace : Workspace} {arguments : Dict String Json}
    (notRead : name ≠ "read_file") (notBatch : name ≠ "batch_read")
    (notSearch : name ≠ "search_text") (notList : name ≠ "list_files") :
    evidence (execute workspace name arguments) = none := by
  unfold execute
  rw [if_neg notRead, if_neg notBatch, if_neg notSearch, if_neg notList]
  rfl

/-- Two calls with one key read the same of every tree, and fail on the same trees, if and
only if their paths are spelled alike. -/
theorem duplicate_reads_alike_iff (same : SameKey name other first second) :
    (∀ workspace : Workspace, workspace.IsTree →
        evidence (execute workspace name first) = evidence (execute workspace other second)) ↔
      SpelledAlike name first second := by
  obtain ⟨one, _⟩ := same.canonical
  cases one
  unfold SpelledAlike
  by_cases isRead : name = "read_file"
  · rw [if_pos isRead]
    cases isRead
    exact read_file_alike_iff same
  by_cases isBatch : name = "batch_read"
  · rw [if_neg isRead, if_pos isBatch]
    cases isBatch
    exact batch_read_alike_iff same
  by_cases isSearch : name = "search_text"
  · rw [if_neg isRead, if_neg isBatch, if_pos isSearch]
    cases isSearch
    exact search_text_alike_iff same
  by_cases isList : name = "list_files"
  · rw [if_neg isRead, if_neg isBatch, if_neg isSearch, if_pos isList]
    cases isList
    exact list_files_alike_iff
  · rw [if_neg isRead, if_neg isBatch, if_neg isSearch, if_neg isList]
    refine ⟨fun _ => trivial, ?_⟩
    intro _ workspace _
    rw [evidence_unknown isRead isBatch isSearch isList,
      evidence_unknown isRead isBatch isSearch isList]

def readFirstLine (path : String) (stop : Int) : Dict String Json :=
  [("path", .string path), ("start_line", .int 1), ("end_line", .int stop)]

def readFirstLineKey (path : String) : String × Dict String Json :=
  ("read_file", [("end_line", .int 1), ("path", .string path), ("start_line", .int 1)])

theorem toolCallText_readFirstLine {path kept : String} {stop : Int}
    (normal : normpath (slashed path) = kept) (below : kept ≠ ".") (clamped : max 1 stop = 1) :
    toolCallText "read_file" (readFirstLine path stop) = .ok (readFirstLineKey kept) := by
  have arguments : canonicalToolArguments "read_file" (readFirstLine path stop) =
      .ok
        [("path", canonicalPath (.string path)), ("start_line", .int 1),
          ("end_line", .int (max 1 stop))] := by
    rfl
  have canonical : canonicalPath (.string path) = .string kept := by
    unfold canonicalPath
    dsimp only
    rw [normal, if_neg below]
  have written : Json.allFields Json.writtenScalar
      [("path", .string kept), ("start_line", .int 1), ("end_line", .int 1)] = true := by
    simp [Json.allFields, Json.all, Json.writtenScalar, Json.one_lt_intTextBound]
  unfold toolCallText canonicalToolCallKey
  rw [arguments, Except.ok_bind, canonical, clamped, if_pos written]
  have path_ : ¬"path" ≤ "end_line" := by
    decide +kernel
  have starts : "path" ≤ "start_line" := by
    decide +kernel
  simp [Except.map, Json.sortedFields, Json.sorted, List.orderedInsert, readFirstLineKey, path_,
    starts]

theorem duplicate_reads_alike_slashes :
    SpelledAlike "read_file" (readFirstLine "src/a.py" 1) (readFirstLine ".//src\\a.py" 1) ∧
      ∀ workspace : Workspace, workspace.IsTree →
        evidence (execute workspace "read_file" (readFirstLine "src/a.py" 1)) =
          evidence (execute workspace "read_file" (readFirstLine ".//src\\a.py" 1)) := by
  have same : SameKey "read_file" "read_file" (readFirstLine "src/a.py" 1)
      (readFirstLine ".//src\\a.py" 1) := by
    refine ⟨readFirstLineKey "src/a.py", ?_, ?_⟩
    · exact toolCallText_readFirstLine (by decide +kernel) (by decide) rfl
    · exact toolCallText_readFirstLine (by decide +kernel) (by decide) rfl
  have alike : SpelledAlike "read_file" (readFirstLine "src/a.py" 1)
      (readFirstLine ".//src\\a.py" 1) := by
    unfold SpelledAlike
    rw [if_pos rfl]
    decide +kernel
  exact ⟨alike, (duplicate_reads_alike_iff same).mpr alike⟩

/-- The key has the end of a range that is refused for the end of one that is read, and a path
behind a link for another one. -/
theorem duplicates_read_apart :
    (SameKey "read_file" "read_file" (readFirstLine "a.py" 0) (readFirstLine "a.py" 1) ∧
      SameKey "read_file" "read_file" (readFirstLine "link/../a.py" 1)
        (readFirstLine "a.py" 1)) ∧
    (markedTree ["a.py"] []).IsTree ∧
      evidence (execute (markedTree ["a.py"] []) "read_file" (readFirstLine "a.py" 0)) = none ∧
      evidence (execute (markedTree ["a.py"] []) "read_file" (readFirstLine "a.py" 1)) =
        some (.lines "/w/0" 1 1) ∧
      evidence
          (execute (markedTree ["a.py"] []) "read_file" (readFirstLine "link/../a.py" 1)) =
        some (.lines "/w/1" 1 1) := by
  have plain : toolCallText "read_file" (readFirstLine "a.py" 1) =
      .ok (readFirstLineKey "a.py") := by
    exact toolCallText_readFirstLine (by decide +kernel) (by decide) rfl
  have refused : toolCallText "read_file" (readFirstLine "a.py" 0) =
      .ok (readFirstLineKey "a.py") := by
    exact toolCallText_readFirstLine (by decide +kernel) (by decide) rfl
  have linked : toolCallText "read_file" (readFirstLine "link/../a.py" 1) =
      .ok (readFirstLineKey "a.py") := by
    exact toolCallText_readFirstLine (by decide +kernel) (by decide) rfl
  refine ⟨⟨⟨_, refused, plain⟩, ⟨_, linked, plain⟩⟩, isTree_markedTree, ?_, ?_, ?_⟩
  · decide +kernel
  · decide +kernel
  · decide +kernel

end Duplicates

end PeReview.Scheduling
