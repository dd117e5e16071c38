import PeReview.Data.Except
import PeReview.Repos.Tools

/-!
# What leaves a tool call

The caller of `execute` catches a `ValueError` and an `OSError`.  Anything else comes
from an infinite number or from a loop of symbolic links.
-/

namespace PeReview

open PeReview.Data

/-- `except (ValueError, OSError)` does not take it. -/
def Failure.Uncaught (raised : Failure) : Prop :=
  raised.kind ≠ .valueError ∧ raised.kind ≠ .osError

instance (raised : Failure) : Decidable raised.Uncaught :=
  inferInstanceAs (Decidable (_ ∧ _))

/-- A computation ends with an exception that is not caught. -/
def Escapes {Value : Type} (result : Except Failure Value) : Prop :=
  ∃ raised, result = .error raised ∧ raised.Uncaught

section Escapes

variable {Value Final : Type}

@[simp]
theorem not_escapes_ok (value : Value) :
    ¬Escapes (.ok value : Except Failure Value) := by
  intro escapes
  obtain ⟨raised, failed, _⟩ := escapes
  cases failed

@[simp]
theorem escapes_error (raised : Failure) :
    Escapes (.error raised : Except Failure Value) ↔ raised.Uncaught := by
  constructor
  · intro escapes
    obtain ⟨other, failed, uncaught⟩ := escapes
    cases failed
    exact uncaught
  · intro uncaught
    exact ⟨raised, rfl, uncaught⟩

theorem escapes_bind {action : Except Failure Value}
    {rest : Value → Except Failure Final} :
    Escapes (action >>= rest) ↔
      Escapes action ∨ ∃ value, action = .ok value ∧ Escapes (rest value) := by
  cases action with
  | error raised =>
      simp
  | ok value =>
      simp

/-- A list computation escapes where its first failure does. -/
theorem escapes_mapM_cons {Item : Type} {action : Item → Except Failure Value}
    {item : Item} {rest : List Item} :
    Escapes ((item :: rest).mapM action) ↔
      Escapes (action item) ∨
        (∃ value, action item = .ok value) ∧ Escapes (rest.mapM action) := by
  rw [List.mapM_cons, escapes_bind]
  apply or_congr Iff.rfl
  constructor
  · intro later
    obtain ⟨value, computed, escapes⟩ := later
    rw [escapes_bind] at escapes
    rcases escapes with escapes | escapes
    · exact ⟨⟨value, computed⟩, escapes⟩
    · obtain ⟨values, _, escapes⟩ := escapes
      exact absurd escapes (not_escapes_ok _)
  · intro later
    obtain ⟨⟨value, computed⟩, escapes⟩ := later
    apply Exists.intro value
    rw [escapes_bind]
    exact ⟨computed, Or.inl escapes⟩

end Escapes

namespace Workspace

variable {workspace : Workspace}

def Loops (workspace : Workspace) (path : String) : Prop :=
  ∃ raised, workspace.realpath (slashed path) = .error raised ∧
    raised.kind = .runtimeError

/-- One of several paths is passed by, or is looked at: none of them ends the call. -/
def Passes (workspace : Workspace) (path : String) : Prop :=
  match workspace.resolve path with
  | .error raised => raised.kind = .valueError
  | .ok target => ∃ file, workspace.isFile target = .ok file

inductive MeetsLoop (workspace : Workspace) : List String → Prop
  | here {path : String} {rest : List String} (loops : workspace.Loops path) :
      MeetsLoop workspace (path :: rest)
  | later {path : String} {rest : List String} (passes : workspace.Passes path)
      (met : MeetsLoop workspace rest) : MeetsLoop workspace (path :: rest)

theorem not_meetsLoop_nil : ¬workspace.MeetsLoop [] := by
  intro met
  cases met

theorem meetsLoop_cons {path : String} {rest : List String} :
    workspace.MeetsLoop (path :: rest) ↔
      workspace.Loops path ∨ workspace.Passes path ∧ workspace.MeetsLoop rest := by
  constructor
  · intro met
    cases met with
    | here loops => exact Or.inl loops
    | later passes met => exact Or.inr ⟨passes, met⟩
  · intro met
    rcases met with loops | ⟨passes, met⟩
    · exact .here loops
    · exact .later passes met

/-- `_resolve` fails with an exception that is not caught only on a loop. -/
theorem escapes_resolve {path : String} :
    Escapes (workspace.resolve path) ↔ workspace.Loops path := by
  unfold resolve Loops
  rw [escapes_bind]
  constructor
  · intro escapes
    rcases escapes with ⟨raised, failed, uncaught⟩ | ⟨target, _, escapes⟩
    · rcases workspace.realpath_raises _ _ failed with value | os | loop
      · exact absurd value uncaught.1
      · exact absurd os uncaught.2
      · exact ⟨raised, failed, loop⟩
    · split at escapes
      · exact absurd escapes (not_escapes_ok _)
      · simp [Failure.Uncaught] at escapes
  · intro loops
    obtain ⟨raised, failed, loop⟩ := loops
    exact Or.inl ⟨raised, failed, by simp [Failure.Uncaught, loop]⟩

theorem not_escapes_isFile (target : String) : ¬Escapes (workspace.isFile target) := by
  intro escapes
  obtain ⟨raised, failed, uncaught⟩ := escapes
  exact uncaught.2 (workspace.isFile_raises target raised failed)

theorem not_escapes_git (arguments : List String) :
    ¬Escapes (workspace.git arguments) := by
  intro escapes
  obtain ⟨raised, failed, uncaught⟩ := escapes
  rcases workspace.git_raises arguments raised failed with value | os
  · exact uncaught.1 value
  · exact uncaught.2 os

/-- What both readers of several paths do with each. -/
structure Visits {Value : Type} (workspace : Workspace) (path : String)
    (action : Except Failure Value) : Prop where
  escapes : Escapes action ↔ workspace.Loops path
  returns : (∃ value, action = .ok value) ↔ workspace.Passes path

/-- A path is resolved, a `ValueError` is taken, and the file is looked at. -/
theorem visits_of_resolve {Value : Type} {path : String}
    {refused : Failure → Value} {seen : String → Bool → Except Failure Value}
    (returns : ∀ target file, ∃ value, seen target file = .ok value) :
    workspace.Visits path
      (match workspace.resolve path with
        | .error raised =>
            if raised.kind = .valueError then .ok (refused raised) else .error raised
        | .ok target => workspace.isFile target >>= seen target) := by
  cases resolved : workspace.resolve path with
  | error raised =>
      have loops : Escapes (workspace.resolve path) ↔ workspace.Loops path :=
        escapes_resolve
      rw [resolved, escapes_error] at loops
      by_cases value : raised.kind = .valueError
      · constructor
        · simp [← loops, Failure.Uncaught, value]
        · simp [Passes, resolved, value]
      · constructor
        · simp [← loops, value]
        · simp [Passes, resolved, value]
  | ok target =>
      have loops : Escapes (workspace.resolve path) ↔ workspace.Loops path :=
        escapes_resolve
      rw [resolved] at loops
      have never : ¬workspace.Loops path := fun met => not_escapes_ok _ (loops.mpr met)
      constructor
      · apply iff_of_false _ never
        rw [escapes_bind, not_or, not_exists]
        refine ⟨not_escapes_isFile target, fun file looked => ?_⟩
        obtain ⟨value, computed⟩ := returns target file
        rw [computed] at looked
        exact not_escapes_ok _ looked.2
      · cases looked : workspace.isFile target with
        | error raised =>
            simp [Passes, resolved, looked]
        | ok file =>
            simp [Passes, resolved, looked, returns target file]

/-- A reader of several paths escapes where it meets a loop. -/
theorem escapes_mapM_visits {Item Value : Type}
    {action : Item → Except Failure Value} {path : Item → Option String}
    {items : List Item}
    (skips : ∀ item ∈ items, path item = none → ∃ value, action item = .ok value)
    (visits : ∀ item ∈ items, ∀ found, path item = some found →
      workspace.Visits found (action item)) :
    Escapes (items.mapM action) ↔ workspace.MeetsLoop (items.filterMap path) := by
  induction items with
  | nil =>
      simp [not_meetsLoop_nil]
  | cons item rest inductionHypothesis =>
      rw [List.forall_mem_cons] at skips visits
      have later := inductionHypothesis skips.2 visits.2
      rw [escapes_mapM_cons, later]
      cases found : path item with
      | none =>
          obtain ⟨value, computed⟩ := skips.1 found
          rw [List.filterMap_cons_none found, computed]
          simp
      | some path =>
          have visit := visits.1 path found
          rw [List.filterMap_cons_some found, meetsLoop_cons, visit.escapes,
            visit.returns]

end Workspace

/-- The path of a range `batch_read` looks at. -/
def rangePath (item : Json) : Option String :=
  match item.fields? with
  | none => none
  | some range =>
      match nonEmptyText (Json.field range "path"),
        positiveInt (Json.field range "start_line"),
        positiveInt (Json.field range "end_line") with
      | some path, some start, some stop => if stop < start then none else some path
      | _, _, _ => none

section Reads

variable {workspace : Workspace}

/-- A range that is refused as it stands looks at no path. -/
theorem batchRange_of_none {item : Json} (index : Nat) (none_ : rangePath item = none) :
    ∃ read_, batchRange workspace index item = .ok read_ := by
  unfold rangePath at none_
  unfold batchRange
  revert none_
  cases item.fields? with
  | none => exact fun _ => ⟨_, rfl⟩
  | some range =>
      dsimp only
      cases nonEmptyText (Json.field range "path") with
      | none => exact fun _ => ⟨_, rfl⟩
      | some path =>
          dsimp only
          cases positiveInt (Json.field range "start_line") with
          | none => exact fun _ => ⟨_, rfl⟩
          | some start =>
              cases positiveInt (Json.field range "end_line") with
              | none => exact fun _ => ⟨_, rfl⟩
              | some stop =>
                  dsimp only
                  by_cases backwards : stop < start
                  · rw [if_pos backwards, if_pos backwards]
                    exact fun _ => ⟨_, rfl⟩
                  · rw [if_neg backwards]
                    intro none_
                    cases none_

theorem visits_batchRange {item : Json} {path : String} (index : Nat)
    (found : rangePath item = some path) :
    workspace.Visits path (batchRange workspace index item) := by
  unfold rangePath at found
  split at found
  · cases found
  · rename_i range other
    split at found
    · rename_i text start stop first second third
      split at found
      · cases found
      · rename_i forwards
        cases found
        simp only [batchRange, other, first, second, third, forwards, if_false]
        apply Workspace.visits_of_resolve
        intro target file
        cases file with
        | false => simp
        | true => simp
    · cases found

theorem visits_contextFile (path : String) :
    workspace.Visits path (contextFile workspace path) := by
  unfold contextFile
  apply Workspace.visits_of_resolve
  intro target file
  exact ⟨_, rfl⟩

/-- `end_line` of `read_file` is absent or a positive number. -/
def EndAccepted (value : Json) : Prop :=
  value = .null ∨ ∃ stop, value.toInt = .ok stop ∧ 1 ≤ stop

theorem escapes_boundedInt {value : Json} {default low : Int} {high : Option Int} :
    Escapes (boundedInt value default low high) ↔ value.isInfinite = true := by
  rw [← Json.toInt_eq_overflowError]
  unfold boundedInt
  cases converted : value.toInt with
  | ok parsed => simp
  | error raised =>
      cases raised with
      | overflowError => simp [overflow, Failure.Uncaught]
      | typeError | valueError | osError | runtimeError => simp

theorem boundedInt_returns {value : Json} {default low : Int} {high : Option Int} :
    (∃ bounded, boundedInt value default low high = .ok bounded) ↔
      ¬value.isInfinite = true := by
  rw [← Json.toInt_eq_overflowError]
  unfold boundedInt
  cases converted : value.toInt with
  | ok parsed => simp
  | error raised =>
      cases raised with
      | overflowError => simp
      | typeError | valueError | osError | runtimeError => simp

theorem escapes_readEndLine {value : Json} :
    Escapes (readEndLine value) ↔ value.isInfinite = true := by
  rw [← Json.toInt_eq_overflowError]
  unfold readEndLine
  split
  · simp [Json.toInt]
  · split
    · rename_i converted
      simp [converted, overflow, Failure.Uncaught]
    · rename_i raised other converted
      have notOverflow : raised ≠ .overflowError := other
      simp [converted, notOverflow]
    · rename_i stop converted
      simp only [converted, reduceCtorEq, iff_false]
      split
      · exact not_escapes_ok _
      · exact not_escapes_ok _

theorem readEndLine_accepts {value : Json} :
    (∃ stop, readEndLine value = .ok (.ok stop)) ↔ EndAccepted value := by
  unfold readEndLine EndAccepted
  split
  · simp
  · rename_i other
    have notNull : ¬value = .null := other
    rw [or_iff_right notNull]
    split
    · rename_i converted
      simp [converted]
    · rename_i raised others converted
      simp [converted]
    · rename_i stop converted
      simp only [converted, Except.ok.injEq]
      by_cases small : stop < 1
      · simp [small]
      · simp [small, Int.not_lt.mp small]

theorem escapes_readFile {path : String} {start : Int} {stop : Option Int} :
    Escapes (readFile workspace path start stop) ↔ workspace.Loops path := by
  unfold readFile
  rw [escapes_bind, Workspace.escapes_resolve]
  apply or_iff_left
  intro later
  obtain ⟨target, _, escapes⟩ := later
  rw [escapes_bind] at escapes
  rcases escapes with escapes | ⟨file, _, escapes⟩
  · exact Workspace.not_escapes_isFile target escapes
  · cases file with
    | false => simp at escapes
    | true => simp at escapes

theorem escapes_batchRead {ranges : List Json} :
    Escapes (batchRead workspace ranges) ↔
      workspace.MeetsLoop ((ranges.take batchReadMaxRanges).filterMap rangePath) := by
  let selected := ranges.take batchReadMaxRanges
  have stops :
      Escapes
          ((selected.zipIdx 1).mapM fun entry => batchRange workspace entry.2 entry.1) ↔
        workspace.MeetsLoop
          ((selected.zipIdx 1).filterMap fun entry => rangePath entry.1) := by
    apply Workspace.escapes_mapM_visits
    · intro entry _ refused
      exact batchRange_of_none entry.2 refused
    · intro entry _ path found
      exact visits_batchRange entry.2 found
  have paths : (selected.zipIdx 1).filterMap (fun entry => rangePath entry.1) =
      selected.filterMap rangePath := by
    have items := List.filterMap_map (f := Prod.fst) (g := rangePath)
      (l := selected.zipIdx 1)
    rw [List.zipIdx_map_fst] at items
    exact items.symm
  rw [paths] at stops
  rw [← stops]
  unfold batchRead
  dsimp only
  rw [escapes_bind]
  apply or_iff_left
  intro later
  obtain ⟨sections, _, escapes⟩ := later
  exact not_escapes_ok _ escapes

theorem escapes_checkedPathspec {path : Option String} :
    Escapes (checkedPathspec workspace path) ↔
      ∃ text, path = some text ∧ text ≠ "" ∧ workspace.Loops text := by
  unfold checkedPathspec
  cases path with
  | none => simp
  | some text =>
      by_cases empty : text = ""
      · simp [Option.filter_some, empty]
      · simp only [Option.filter_some, empty, ne_eq, not_false_eq_true, decide_true,
          if_true]
        rw [escapes_bind, Workspace.escapes_resolve]
        simp [empty]

theorem escapes_searchMatches {answer : GitAnswer} {maxResults : Int} :
    Escapes (searchMatches workspace answer maxResults) ↔
      (answer.returnCode = 0 ∨ answer.returnCode = 1) ∧
        workspace.MeetsLoop (contextPaths (grepRows answer maxResults)) := by
  have context :
      Escapes
          ((contextPaths (grepRows answer maxResults)).mapM (contextFile workspace)) ↔
        workspace.MeetsLoop
          ((contextPaths (grepRows answer maxResults)).filterMap some) := by
    apply Workspace.escapes_mapM_visits
    · intro path _ none_
      cases none_
    · intro path _ found same
      cases same
      exact visits_contextFile path
  rw [List.filterMap_some] at context
  unfold searchMatches
  by_cases failed : answer.returnCode ≠ 0 ∧ answer.returnCode ≠ 1
  · simp [failed]
  · have listed : answer.returnCode = 0 ∨ answer.returnCode = 1 := by
      omega
    simp only [failed, if_false, listed, true_and]
    by_cases empty : grepRows answer maxResults = []
    · simp [empty, contextPaths, Workspace.not_meetsLoop_nil]
    · simp only [empty, if_false]
      rw [← context, escapes_bind]
      apply or_iff_left
      intro later
      obtain ⟨found, _, escapes⟩ := later
      exact not_escapes_ok _ escapes

/-- A call of `search_text` meets a loop: on its own path, or on the way through the
files git names. -/
def SearchMeetsLoop (workspace : Workspace) (query : String) (path : Option String)
    (maxResults : Int) : Prop :=
  (∃ text, path = some text ∧ text ≠ "" ∧ workspace.Loops text) ∨
    ∃ pathspec answer, checkedPathspec workspace path = .ok pathspec ∧
      workspace.git (grepCommand workspace query pathspec) = .ok answer ∧
        (answer.returnCode = 0 ∨ answer.returnCode = 1) ∧
          workspace.MeetsLoop (contextPaths (grepRows answer maxResults))

theorem escapes_searchText {query : String} {path : Option String} {maxResults : Int} :
    Escapes (searchText workspace query path maxResults) ↔
      SearchMeetsLoop workspace query path maxResults := by
  unfold searchText SearchMeetsLoop
  rw [escapes_bind, escapes_checkedPathspec]
  apply or_congr Iff.rfl
  apply exists_congr
  intro pathspec
  rw [escapes_bind, or_iff_right (Workspace.not_escapes_git _)]
  simp only [escapes_searchMatches, exists_and_left]

theorem escapes_listFiles {path : Option String} :
    Escapes (listFiles workspace path) ↔
      ∃ text, path = some text ∧ text ≠ "" ∧ workspace.Loops text := by
  unfold listFiles
  rw [escapes_bind, escapes_checkedPathspec]
  apply or_iff_left
  intro later
  obtain ⟨pathspec, _, escapes⟩ := later
  rw [escapes_bind, or_iff_right (Workspace.not_escapes_git _)] at escapes
  obtain ⟨answer, _, escapes⟩ := escapes
  split at escapes
  · exact not_escapes_ok _ escapes
  · exact not_escapes_ok _ escapes

/-- A call runs into a loop of symbolic links. -/
def CallMeetsLoop (workspace : Workspace) (name : String)
    (arguments : Dict String Json) : Prop :=
  if name = "read_file" then
    ∃ path, nonEmptyText (Json.field arguments "path") = some path ∧
      EndAccepted (Json.field arguments "end_line") ∧ workspace.Loops path
  else if name = "batch_read" then
    ∃ ranges, Json.field arguments "ranges" = .array ranges ∧
      workspace.MeetsLoop ((ranges.take batchReadMaxRanges).filterMap rangePath)
  else if name = "search_text" then
    ∃ query path maxResults,
      nonEmptyText (Json.field arguments "query") = some query ∧
        optionalPath (Json.field arguments "path") = some path ∧
          boundedInt (Json.fieldOr arguments "max_results" (.int 40)) 40 1 (some 100) =
            .ok maxResults ∧
            SearchMeetsLoop workspace query path maxResults
  else if name = "list_files" then
    ∃ text, Json.field arguments "path" = .string text ∧ text ≠ "" ∧
      workspace.Loops text
  else False

/-- A call has `int` read an infinite number. -/
def ReadsInfinity (name : String) (arguments : Dict String Json) : Prop :=
  if name = "read_file" then
    (nonEmptyText (Json.field arguments "path")).isSome = true ∧
      ((Json.field arguments "end_line").isInfinite = true ∨
        EndAccepted (Json.field arguments "end_line") ∧
          (Json.fieldOr arguments "start_line" (.int 1)).isInfinite = true)
  else if name = "search_text" then
    (nonEmptyText (Json.field arguments "query")).isSome = true ∧
      (optionalPath (Json.field arguments "path")).isSome = true ∧
        (Json.fieldOr arguments "max_results" (.int 40)).isInfinite = true
  else False

theorem escapes_read_file {arguments : Dict String Json} :
    Escapes (execute workspace "read_file" arguments) ↔
      ReadsInfinity "read_file" arguments ∨
        CallMeetsLoop workspace "read_file" arguments := by
  simp only [execute, ReadsInfinity, CallMeetsLoop, if_true]
  cases named : nonEmptyText (Json.field arguments "path") with
  | none => simp
  | some path =>
      have ends : ∀ value, Escapes (readEndLine value) ↔ value.isInfinite = true :=
        fun value => escapes_readEndLine
      dsimp only
      rw [escapes_bind, ends]
      simp only [Option.isSome_some, true_and, Option.some.injEq, exists_eq_left', or_assoc]
      apply or_congr Iff.rfl
      rw [← readEndLine_accepts, ← and_or_left]
      constructor
      · intro later
        obtain ⟨accepted, read_, escapes⟩ := later
        cases accepted with
        | error message => simp at escapes
        | ok stop =>
            refine ⟨⟨stop, read_⟩, ?_⟩
            dsimp only at escapes
            rw [escapes_bind, escapes_boundedInt] at escapes
            apply escapes.imp_right
            intro further
            obtain ⟨start, _, escapes⟩ := further
            exact escapes_readFile.mp escapes
      · intro later
        obtain ⟨⟨stop, read_⟩, escapes⟩ := later
        refine ⟨.ok stop, read_, ?_⟩
        dsimp only
        rw [escapes_bind, escapes_boundedInt]
        by_cases infinite :
            (Json.fieldOr arguments "start_line" (.int 1)).isInfinite = true
        · exact Or.inl infinite
        · obtain ⟨start, bounded⟩ := boundedInt_returns.mpr infinite
          have loops := escapes.resolve_left infinite
          exact Or.inr ⟨start, bounded, escapes_readFile.mpr loops⟩

theorem escapes_batch_read {arguments : Dict String Json} :
    Escapes (execute workspace "batch_read" arguments) ↔
      CallMeetsLoop workspace "batch_read" arguments := by
  simp only [execute, CallMeetsLoop, String.reduceEq, if_true, if_false]
  split
  · rename_i first rest given
    rw [escapes_batchRead]
    simp [given]
  · rename_i others
    simp only [not_escapes_ok, false_iff, not_exists, not_and]
    intro ranges given
    cases ranges with
    | nil => simp [Workspace.not_meetsLoop_nil]
    | cons first rest => exact absurd given (others first rest)

theorem escapes_search_text {arguments : Dict String Json} :
    Escapes (execute workspace "search_text" arguments) ↔
      ReadsInfinity "search_text" arguments ∨
        CallMeetsLoop workspace "search_text" arguments := by
  simp only [execute, ReadsInfinity, CallMeetsLoop, String.reduceEq, if_true, if_false]
  cases asked : nonEmptyText (Json.field arguments "query") with
  | none => simp
  | some query =>
      cases named : optionalPath (Json.field arguments "path") with
      | none => simp
      | some path =>
          dsimp only
          rw [escapes_bind, escapes_boundedInt]
          simp only [escapes_searchText, Option.isSome_some, true_and,
            Option.some.injEq, exists_and_left, exists_eq_left']

theorem escapes_list_files {arguments : Dict String Json} :
    Escapes (execute workspace "list_files" arguments) ↔
      CallMeetsLoop workspace "list_files" arguments := by
  simp only [execute, CallMeetsLoop, String.reduceEq, if_true, if_false]
  cases given : Json.field arguments "path" with
  | null => simp [optionalPath, escapes_listFiles]
  | string text => simp [optionalPath, escapes_listFiles]
  | bool value | int value | float value | array items | object fields =>
      simp [optionalPath]

/-- What leaves a call is an overflow or the failure on a loop. -/
theorem escapes_execute {name : String} {arguments : Dict String Json} :
    Escapes (execute workspace name arguments) ↔
      ReadsInfinity name arguments ∨ CallMeetsLoop workspace name arguments := by
  by_cases readFile : name = "read_file"
  · rw [readFile]
    exact escapes_read_file
  by_cases batchRead : name = "batch_read"
  · rw [batchRead, escapes_batch_read]
    simp [ReadsInfinity]
  by_cases searchText : name = "search_text"
  · rw [searchText]
    exact escapes_search_text
  by_cases listFiles : name = "list_files"
  · rw [listFiles, escapes_list_files]
    simp [ReadsInfinity]
  · simp [execute, ReadsInfinity, CallMeetsLoop, readFile, batchRead, searchText,
      listFiles]

end Reads

end PeReview
