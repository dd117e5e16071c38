import PeReview.Repos.ToolFailures
import PeReview.Review.Scheduling
import PeReview.Review.Scheduling.ToolKeys

/-!
# The turn of a tool call

`_tool_step` of `review/scheduling.py` with the repository tools behind it.  The key of a
call is made outside the `try` statement, so every exception of it leaves the review, a
`ValueError` as well.
-/

namespace PeReview.Scheduling

open PeReview.Data

section Keys

/-- `int` reads a number, or `None` takes its place. -/
def ReadsInt (value : Json) : Prop :=
  value = .null ∨ ∃ number, value.toInt = .ok number

/-- The key of a call has `int` read an infinite number. -/
def KeyReadsInfinity (name : String) (arguments : Dict String Json) : Prop :=
  if name = "read_file" then
    (Json.fieldOr arguments "start_line" (.int 1)).isInfinite = true ∨
      ReadsInt (Json.fieldOr arguments "start_line" (.int 1)) ∧
        (Json.field arguments "end_line").isInfinite = true
  else if name = "search_text" then
    (Json.fieldOr arguments "max_results" (.int 40)).isInfinite = true
  else False

/-- The last line of an open range has more digits than Python writes. -/
def LongRange (name : String) (arguments : Dict String Json) : Prop :=
  name = "read_file" ∧ Json.field arguments "end_line" = .null ∧
    ∃ start, (Json.fieldOr arguments "start_line" (.int 1)).toInt = .ok start ∧
      intTextBound ≤ (max 1 start + 199).toNat

variable {value : Json} {default low : Int} {high : Option Int}

theorem canonicalInt_of_infinite (infinite : value.isInfinite = true) :
    canonicalInt value default low high = .error overflow := by
  unfold canonicalInt
  rw [Json.toInt_eq_overflowError.mpr infinite]

theorem canonicalInt_of_ok {number : Int} (read_ : value.toInt = .ok number) :
    canonicalInt value default low high = .ok (.int (clamp low high number)) := by
  unfold canonicalInt
  rw [read_]

theorem canonicalInt_null : canonicalInt .null default low high = .ok (.int default) :=
  rfl

theorem canonicalInt_of_malformed (finite : ¬value.isInfinite = true)
    (malformed : ¬ReadsInt value) : canonicalInt value default low high = .ok value := by
  rw [← Json.toInt_eq_overflowError] at finite
  unfold ReadsInt at malformed
  rw [not_or, not_exists] at malformed
  unfold canonicalInt
  cases converted : value.toInt with
  | ok number => exact absurd converted (malformed.2 number)
  | error raised =>
      cases raised with
      | overflowError => exact absurd converted finite
      | typeError | valueError | osError | runtimeError =>
          cases value with
          | null => exact absurd rfl malformed.1
          | bool _ | int _ | float _ | string _ | array _ | object _ => rfl

theorem canonicalInt_returns (finite : ¬value.isInfinite = true) :
    ∃ result, canonicalInt value default low high = .ok result := by
  by_cases reads : ReadsInt value
  · rcases reads with null | ⟨number, converted⟩
    · rw [null]
      exact ⟨_, canonicalInt_null⟩
    · exact ⟨_, canonicalInt_of_ok converted⟩
  · exact ⟨_, canonicalInt_of_malformed finite reads⟩

/-- A clamp between small bounds can be written when its number can. -/
theorem natAbs_clamp_lt {number : Int} {bound : Nat} (small : number.natAbs < bound)
    (lowSmall : low.natAbs < bound) (highSmall : ∀ top ∈ high, top.natAbs < bound) :
    (clamp low high number).natAbs < bound := by
  unfold clamp
  cases high with
  | none =>
      dsimp only
      omega
  | some top =>
      have topSmall := highSmall top rfl
      dsimp only
      omega

theorem small_lt_intTextBound {number : Nat} (small : number ≤ 1000) :
    number < intTextBound := by
  have power : 2 ^ 10 ≤ 2 ^ Json.doubleExponent :=
    Nat.pow_le_pow_right (by decide) (by decide)
  have bound := Json.doubleBound_lt
  exact lt_of_lt_of_le (Nat.lt_of_le_of_lt small (by decide)) (le_trans power bound.le)

/-- A decoded value reads as a number that can be written. -/
theorem written_canonicalInt {result : Json} (loaded : Json.all Json.loadedScalar value = true)
    (defaultSmall : value = .null → default.natAbs < intTextBound) (lowSmall : low.natAbs ≤ 1000)
    (highSmall : ∀ top ∈ high, top.natAbs ≤ 1000)
    (read_ : canonicalInt value default low high = .ok result) :
    Json.all Json.writtenScalar result = true := by
  by_cases infinite : value.isInfinite = true
  · rw [canonicalInt_of_infinite infinite] at read_
    cases read_
  by_cases reads : ReadsInt value
  · rcases reads with null | ⟨number, converted⟩
    · rw [null, canonicalInt_null] at read_
      cases read_
      simp only [Json.all, Json.writtenScalar, decide_eq_true_eq]
      exact defaultSmall null
    · rw [canonicalInt_of_ok converted] at read_
      cases read_
      simp only [Json.all, Json.writtenScalar, decide_eq_true_eq]
      apply natAbs_clamp_lt (Json.natAbs_toInt_lt loaded converted)
      · exact small_lt_intTextBound lowSmall
      · exact fun top member => small_lt_intTextBound (highSmall top member)
  · rw [canonicalInt_of_malformed infinite reads] at read_
    cases read_
    exact Json.all_mono (fun _ => Json.writtenScalar_of_loaded) loaded

theorem written_canonicalPath (loaded : Json.all Json.loadedScalar value = true) :
    Json.all Json.writtenScalar (canonicalPath value) = true := by
  cases value with
  | string text => rfl
  | null | bool _ | int _ | float _ | array _ | object _ =>
      exact Json.all_mono (fun _ => Json.writtenScalar_of_loaded) loaded

theorem written_canonicalOptionalPath (loaded : Json.all Json.loadedScalar value = true) :
    Json.all Json.writtenScalar (canonicalOptionalPath value) = true := by
  unfold canonicalOptionalPath
  split
  · exact written_canonicalPath loaded
  · rfl

theorem loaded_field {fields : Dict String Json} (loaded : Json.loadedFields fields = true)
    (key : String) : Json.all Json.loadedScalar (Json.field fields key) = true :=
  Json.all_fieldOr loaded rfl

theorem positiveInt_eq_some {number : Int} (read_ : positiveInt value = some number) :
    value = .int number ∧ 1 ≤ number := by
  obtain ⟨exact_, positive⟩ := Option.filter_eq_some_iff.mp read_
  cases value with
  | int other =>
      cases exact_
      exact ⟨rfl, of_decide_eq_true positive⟩
  | null | bool _ | float _ | string _ | array _ | object _ =>
      cases exact_

theorem written_canonicalRange (loaded : Json.all Json.loadedScalar value = true) :
    Json.all Json.writtenScalar (canonicalRange value) = true := by
  have written {value : Json} (loaded : Json.all Json.loadedScalar value = true) :
      Json.all Json.writtenScalar value = true :=
    Json.all_mono (fun _ => Json.writtenScalar_of_loaded) loaded
  cases value with
  | object fields =>
      have fieldsLoaded : Json.loadedFields fields = true := loaded
      simp only [canonicalRange, Json.fields?, Json.all, Json.allFields, Bool.and_true,
        Bool.and_eq_true]
      refine ⟨written_canonicalPath (loaded_field fieldsLoaded _),
        written (loaded_field fieldsLoaded _), ?_⟩
      split
      · rename_i start stop first second
        obtain ⟨_, startPositive⟩ := positiveInt_eq_some first
        obtain ⟨same, stopPositive⟩ := positiveInt_eq_some second
        have stopLoaded := loaded_field fieldsLoaded "end_line"
        simp only [same, Json.all, Json.loadedScalar, decide_eq_true_eq] at stopLoaded
        simp only [Json.all, Json.writtenScalar, decide_eq_true_eq]
        apply lt_of_le_of_lt _ stopLoaded
        omega
      · exact written (loaded_field fieldsLoaded _)
  | null | bool _ | int _ | float _ | string _ | array _ =>
      exact written loaded

theorem key_of_written {name : String} {arguments : Dict String Json} :
    (∃ key, canonicalToolCallKey name arguments = .ok key) ↔
      ∃ canonical, canonicalToolArguments name arguments = .ok canonical ∧
        Json.allFields Json.writtenScalar canonical = true := by
  unfold canonicalToolCallKey
  cases computed : canonicalToolArguments name arguments with
  | error raised => simp
  | ok canonical =>
      by_cases written : Json.allFields Json.writtenScalar canonical = true
      · simp [written]
      · simp [written]

theorem KeyReadsInfinity.readFile {arguments : Dict String Json} :
    KeyReadsInfinity "read_file" arguments ↔
      (Json.fieldOr arguments "start_line" (.int 1)).isInfinite = true ∨
        ReadsInt (Json.fieldOr arguments "start_line" (.int 1)) ∧
          (Json.field arguments "end_line").isInfinite = true := by
  simp [KeyReadsInfinity]

/-- The last line in the key of `read_file` is written unless `int` overflows or it is
that of a long range. -/
theorem canonicalEnd_returns {start : Int} (positive : 1 ≤ start)
    (loaded : Json.all Json.loadedScalar value = true) :
    (∃ stop, canonicalEnd value start = .ok stop ∧
        Json.all Json.writtenScalar stop = true) ↔
      ¬value.isInfinite = true ∧
        ¬(value = .null ∧ intTextBound ≤ (start + 199).toNat) := by
  by_cases null : value = .null
  · have same : (start + 199).natAbs = (start + 199).toNat := by
      omega
    simp [null, canonicalEnd, Json.all, Json.writtenScalar, Json.isInfinite, same]
  · have reads : canonicalEnd value start = canonicalInt value (start + 199) 1 := by
      unfold canonicalEnd
      split
      · exact absurd rfl null
      · rfl
    rw [reads, and_iff_left (fun long => null long.1)]
    by_cases infinite : value.isInfinite = true
    · simp [canonicalInt_of_infinite infinite, infinite]
    · apply iff_of_true _ infinite
      have returns : ∃ result, canonicalInt value (start + 199) 1 = .ok result :=
        canonicalInt_returns infinite
      obtain ⟨stop, read_⟩ := returns
      apply Exists.intro stop
      refine ⟨read_, written_canonicalInt loaded ?_ (by decide) ?_ read_⟩
      · exact fun absent => absurd absent null
      · intro top member
        cases member

/-- The first line in the key of `read_file`, when there is a number to read. -/
theorem canonicalStart (loaded : Json.all Json.loadedScalar value = true)
    (reads : ReadsInt value) :
    ∃ start, canonicalInt value 1 1 = .ok (.int start) ∧ 1 ≤ start ∧
      start.natAbs < intTextBound ∧
        ((∃ number, value.toInt = .ok number ∧
            intTextBound ≤ (max 1 number + 199).toNat) ↔
          intTextBound ≤ (start + 199).toNat) := by
  rcases reads with null | ⟨number, converted⟩
  · refine ⟨1, by rw [null]; rfl, le_refl 1, Json.one_lt_intTextBound, ?_⟩
    have short : 200 < intTextBound := small_lt_intTextBound (by decide)
    simp [null, Json.toInt, short]
  · refine ⟨max 1 number, canonicalInt_of_ok converted, le_max_left 1 number, ?_, ?_⟩
    · have small := Json.natAbs_toInt_lt loaded converted
      have least := Json.one_lt_intTextBound
      omega
    · simp [converted]

/-- The key of `read_file` is written unless `int` overflows or the range is long. -/
theorem readFileKey_returns {arguments : Dict String Json}
    (loaded : Json.loadedFields arguments = true) :
    (∃ key, canonicalToolCallKey "read_file" arguments = .ok key) ↔
      ¬KeyReadsInfinity "read_file" arguments ∧ ¬LongRange "read_file" arguments := by
  have startLoaded : Json.all Json.loadedScalar
      (Json.fieldOr arguments "start_line" (.int 1)) = true :=
    Json.all_fieldOr loaded (by
      simp only [Json.all, Json.loadedScalar, decide_eq_true_eq]
      exact Json.one_lt_intTextBound)
  have stopLoaded := loaded_field loaded "end_line"
  have path := written_canonicalPath (loaded_field loaded "path")
  have argumentsWritten : Json.allFields Json.writtenScalar arguments = true :=
    Json.allFields_mono (fun _ => Json.writtenScalar_of_loaded) loaded
  rw [key_of_written, KeyReadsInfinity.readFile]
  simp only [canonicalToolArguments, LongRange, if_true, true_and]
  generalize Json.fieldOr arguments "start_line" (.int 1) = start at startLoaded ⊢
  generalize Json.field arguments "end_line" = stop at stopLoaded ⊢
  by_cases infinite : start.isInfinite = true
  · simp [canonicalInt_of_infinite infinite, infinite]
  by_cases reads : ReadsInt start
  · obtain ⟨first, read_, positive, small, long⟩ := canonicalStart startLoaded reads
    rw [read_, long]
    simp only [Except.ok_bind, infinite, reads, Bool.false_eq_true, false_or, true_and]
    rw [← canonicalEnd_returns positive stopLoaded]
    cases canonicalEnd stop first with
    | error raised => simp
    | ok last =>
        simp [Json.allFields, path, Json.all, Json.writtenScalar, small]
  · rw [canonicalInt_of_malformed infinite reads]
    have noLongRange : ¬∃ number, start.toInt = .ok number ∧
        intTextBound ≤ (max 1 number + 199).toNat := by
      intro long
      obtain ⟨number, converted, _⟩ := long
      exact reads (Or.inr ⟨number, converted⟩)
    simp only [infinite, reads, noLongRange, Bool.false_eq_true, false_and, and_false,
      or_self, not_false_eq_true, and_self, iff_true]
    refine ⟨arguments, ?_, argumentsWritten⟩
    cases start with
    | int number => exact absurd (Or.inr ⟨number, rfl⟩) reads
    | null | bool _ | float _ | string _ | array _ | object _ => rfl

/-- The key of a call is made unless `int` overflows or the range is long. -/
theorem canonicalToolCallKey_returns {name : String} {arguments : Dict String Json}
    (loaded : Json.loadedFields arguments = true) :
    (∃ key, canonicalToolCallKey name arguments = .ok key) ↔
      ¬KeyReadsInfinity name arguments ∧ ¬LongRange name arguments := by
  have written : Json.allFields Json.writtenScalar arguments = true :=
    Json.allFields_mono (fun _ => Json.writtenScalar_of_loaded) loaded
  by_cases readFile : name = "read_file"
  · rw [readFile]
    exact readFileKey_returns loaded
  have short : ¬LongRange name arguments := fun long => readFile long.1
  by_cases batchRead : name = "batch_read"
  · have finite : ¬KeyReadsInfinity name arguments := by
      simp [KeyReadsInfinity, batchRead]
    apply iff_of_true _ ⟨finite, short⟩
    rw [key_of_written, batchRead]
    unfold canonicalToolArguments
    simp only [String.reduceEq, if_true, if_false]
    split
    · rename_i ranges given
      have rangesLoaded : Json.allItems Json.loadedScalar ranges = true := by
        have arrayLoaded := loaded_field loaded "ranges"
        rw [given] at arrayLoaded
        exact arrayLoaded
      refine ⟨_, rfl, ?_⟩
      simp only [Json.allFields, Json.all, Bool.and_true]
      apply Json.allItems_of_forall
      intro item member
      obtain ⟨range, selected, same⟩ := List.mem_map.mp member
      rw [← same]
      exact written_canonicalRange
        (Json.all_of_mem rangesLoaded (List.mem_of_mem_take selected))
    · exact ⟨arguments, rfl, written⟩
  by_cases searchText : name = "search_text"
  · have field := loaded_field loaded
    have limit : Json.all Json.loadedScalar
        (Json.fieldOr arguments "max_results" (.int 40)) = true :=
      Json.all_fieldOr loaded (by
        simp only [Json.all, Json.loadedScalar, decide_eq_true_eq]
        exact small_lt_intTextBound (by decide))
    rw [and_iff_left short, key_of_written, searchText]
    simp only [canonicalToolArguments, KeyReadsInfinity, String.reduceEq, if_true,
      if_false]
    by_cases infinite :
        (Json.fieldOr arguments "max_results" (.int 40)).isInfinite = true
    · simp [canonicalInt_of_infinite infinite, infinite]
    · apply iff_of_true _ infinite
      have returns : ∃ result,
          canonicalInt (Json.fieldOr arguments "max_results" (.int 40)) 40 1 (some 100) =
            .ok result :=
        canonicalInt_returns infinite
      obtain ⟨bounded, read_⟩ := returns
      have bounds : Json.all Json.writtenScalar bounded = true := by
        apply written_canonicalInt limit _ (by decide) _ read_
        · exact fun _ => small_lt_intTextBound (by decide)
        · intro top member
          cases member
          decide
      rw [read_]
      refine ⟨_, rfl, ?_⟩
      have query : Json.all Json.writtenScalar (Json.field arguments "query") = true :=
        Json.all_mono (fun _ => Json.writtenScalar_of_loaded) (field "query")
      simp [Json.allFields, query, bounds, written_canonicalOptionalPath (field "path")]
  by_cases listFiles : name = "list_files"
  · have finite : ¬KeyReadsInfinity name arguments := by
      simp [KeyReadsInfinity, listFiles]
    apply iff_of_true _ ⟨finite, short⟩
    rw [key_of_written, listFiles]
    refine ⟨_, rfl, ?_⟩
    simp [Json.allFields, written_canonicalOptionalPath (loaded_field loaded "path")]
  · have finite : ¬KeyReadsInfinity name arguments := by
      simp [KeyReadsInfinity, readFile, searchText]
    apply iff_of_true _ ⟨finite, short⟩
    rw [key_of_written]
    refine ⟨arguments, ?_, written⟩
    simp [canonicalToolArguments, readFile, batchRead, searchText, listFiles]

end Keys

section Turns

variable {Payload : Type}

/-- The tools of a review, with the texts made of what they read. -/
structure ToolHost where
  workspace : Workspace
  /-- `json.loads(raw_arguments)`. -/
  arguments : ToolCall → Dict String Json
  keyText : String × Dict String Json → String
  resultText : ToolOutput → String
  /-- An exception, as the scheduler has it. -/
  raised : Failure → PyError

namespace ToolHost

/-- `_tool_call_key`. -/
def toolCallKey (host : ToolHost) (call : ToolCall) : Except PyError String :=
  match canonicalToolCallKey call.name (host.arguments call) with
  | .ok key => .ok (host.keyText key)
  | .error failure => .error (host.raised failure)

/-- What `tools.execute` gives, and what the `except` clause takes. -/
def answer (host : ToolHost) (call : ToolCall) : ToolAnswer :=
  match execute host.workspace call.name (host.arguments call) with
  | .ok output => .text (host.resultText output)
  | .error failure =>
      if failure.Uncaught then .raised (host.raised failure) else .rejected failure.text

def phaseRun (host : ToolHost) (run : PhaseRun Payload) : PhaseRun Payload :=
  { run with toolCallKey := host.toolCallKey }

/-- What the wait of a tool turn ends with when the audit can be written. -/
def reply (host : ToolHost) : Control Payload → Option Reply
  | .turn _ => some .proceed
  | .recordingTool _ _ _ | .recordingResult _ _ _ _ => some .acknowledged
  | .executing _ call _ => some (.executed (host.answer call))
  | _ => none

def advance (host : ToolHost) (run : PhaseRun Payload)
    (state : SchedulerState Payload) : SchedulerState Payload :=
  match host.reply state.control with
  | none => state
  | some reply => (SchedulerState.step (host.phaseRun run) reply state).getD state

def toolTurn (host : ToolHost) (run : PhaseRun Payload)
    (state : SchedulerState Payload) : SchedulerState Payload :=
  host.advance run (host.advance run (host.advance run (host.advance run state)))

/-- The turn ends with a tool message, and its session goes back to the queue. -/
def Continues (host : ToolHost) (run : PhaseRun Payload)
    (state : SchedulerState Payload) (session : Session Payload) (call : ToolCall) :
    Prop :=
  (host.toolTurn run state).control = .scheduling ∧
    ∃ text continued,
      (host.toolTurn run state).active = state.active ++ [continued] ∧
        continued.transcript = session.transcript ++ [.tool call.id text]

variable {host : ToolHost} {run : PhaseRun Payload} {state : SchedulerState Payload}
  {session : Session Payload} {call : ToolCall} {calls : List ToolCall}

@[simp]
theorem phaseRun_toolCallKey : (host.phaseRun run).toolCallKey = host.toolCallKey :=
  rfl

theorem advance_of_none (waits : host.reply state.control = none) :
    host.advance run state = state := by
  unfold advance
  rw [waits]

/-- A state the tools have nothing to answer is where the turn ends. -/
theorem toolTurn_of_none (waits : host.reply (host.advance run state).control = none) :
    host.toolTurn run state = host.advance run state := by
  unfold toolTurn
  rw [advance_of_none waits, advance_of_none waits, advance_of_none waits]

theorem advance_turn (stands : state.control = .turn session)
    (pending : session.pendingTools = call :: calls) :
    host.advance run state =
      SchedulerState.toolStep (host.phaseRun run) state
        { session with pendingTools := calls } call := by
  unfold advance
  rw [stands]
  simp only [reply, SchedulerState.step, stands, Option.getD_some,
    SchedulerState.beginTurn, pending]

/-- The key of a call that cannot be made leaves the review. -/
theorem not_continues_of_key (stands : state.control = .turn session)
    (pending : session.pendingTools = call :: calls)
    (failed : ¬∃ key, canonicalToolCallKey call.name (host.arguments call) = .ok key) :
    ¬host.Continues run state session call := by
  cases made : canonicalToolCallKey call.name (host.arguments call) with
  | ok key => exact absurd ⟨key, made⟩ failed
  | error failure =>
      have first : host.advance run state = state.raise (host.raised failure) := by
        rw [advance_turn stands pending]
        simp only [SchedulerState.toolStep, phaseRun_toolCallKey, toolCallKey, made]
      intro continues
      have ended := continues.1
      rw [toolTurn_of_none (by rw [first]; rfl), first] at ended
      cases ended

/-- The call is neither a duplicate nor beyond the budget: it goes to the tools. -/
def Charged (run : PhaseRun Payload) (state : SchedulerState Payload)
    (session : Session Payload) (text : String) : Prop :=
  session.seen.contains text = false ∧
    run.settings.remainingTools run.phase state.usage ≠ 0

/-- A call that is not charged is answered at once. -/
theorem continues_of_suppressed {key : String × Dict String Json}
    (stands : state.control = .turn session)
    (pending : session.pendingTools = call :: calls)
    (made : canonicalToolCallKey call.name (host.arguments call) = .ok key)
    (suppressed : ¬Charged run state session (host.keyText key)) :
    host.Continues run state session call := by
  have first : host.advance run state = SchedulerState.toolStep (host.phaseRun run) state
      { session with pendingTools := calls } call :=
    advance_turn stands pending
  simp only [SchedulerState.toolStep, phaseRun_toolCallKey, toolCallKey, made] at first
  unfold Charged at suppressed
  by_cases seen : session.seen.contains (host.keyText key) = true
  · rw [if_pos seen] at first
    unfold Continues
    rw [toolTurn_of_none (by rw [first]; rfl), first]
    exact ⟨rfl, _, _, rfl, rfl⟩
  · have exhausted : (host.phaseRun run).settings.remainingTools
        (host.phaseRun run).phase state.usage = 0 := by
      by_contra available
      exact suppressed ⟨Bool.eq_false_iff.mpr seen, available⟩
    rw [if_neg seen, if_pos exhausted] at first
    unfold Continues
    rw [toolTurn_of_none (by rw [first]; rfl), first]
    exact ⟨rfl, _, _, rfl, rfl⟩

theorem toolText_answer :
    (∃ text, SchedulerState.toolText (host.answer call) = .ok text) ↔
      ¬Escapes (execute host.workspace call.name (host.arguments call)) := by
  unfold answer
  cases execute host.workspace call.name (host.arguments call) with
  | ok output => simp [SchedulerState.toolText]
  | error failure =>
      by_cases uncaught : failure.Uncaught
      · simp [SchedulerState.toolText, uncaught]
      · simp [SchedulerState.toolText, uncaught]

/-- A charged call is answered unless an exception leaves the tools. -/
theorem continues_of_charged {key : String × Dict String Json}
    (stands : state.control = .turn session)
    (pending : session.pendingTools = call :: calls)
    (made : canonicalToolCallKey call.name (host.arguments call) = .ok key)
    (charged : Charged run state session (host.keyText key)) :
    host.Continues run state session call ↔
      ¬Escapes (execute host.workspace call.name (host.arguments call)) := by
  have first : host.advance run state = SchedulerState.toolStep (host.phaseRun run) state
      { session with pendingTools := calls } call :=
    advance_turn stands pending
  have fresh := charged.1
  have available : (host.phaseRun run).settings.remainingTools
      (host.phaseRun run).phase state.usage ≠ 0 := charged.2
  have unseen : ¬session.seen.contains (host.keyText key) = true := by
    simp only [fresh, Bool.false_eq_true, not_false_eq_true]
  simp only [SchedulerState.toolStep, phaseRun_toolCallKey, toolCallKey, made] at first
  rw [if_neg unseen, if_neg available] at first
  rw [← toolText_answer]
  unfold Continues toolTurn
  rw [first]
  cases answered : SchedulerState.toolText (host.answer call) with
  | error error =>
      simp [advance, reply, SchedulerState.step, SchedulerState.executeTool, answered,
        SchedulerState.raise]
  | ok text =>
      apply iff_of_true _ ⟨text, rfl⟩
      simp only [advance, reply, SchedulerState.step, SchedulerState.executeTool,
        Option.getD_some, answered, SchedulerState.keepToolResult]
      refine ⟨rfl, text, _, rfl, ?_⟩
      split
      · rfl
      · rfl

end ToolHost

/-- `int` would read an infinite number, for the key or for the call. -/
def InfiniteArgument (name : String) (arguments : Dict String Json) : Prop :=
  if name = "read_file" then
    (Json.fieldOr arguments "start_line" (.int 1)).isInfinite = true ∨
      (Json.field arguments "end_line").isInfinite = true ∧
        (ReadsInt (Json.fieldOr arguments "start_line" (.int 1)) ∨
          (nonEmptyText (Json.field arguments "path")).isSome = true)
  else if name = "search_text" then
    (Json.fieldOr arguments "max_results" (.int 40)).isInfinite = true
  else False

theorem infiniteArgument_iff {name : String} {arguments : Dict String Json} :
    InfiniteArgument name arguments ↔
      KeyReadsInfinity name arguments ∨ ReadsInfinity name arguments := by
  unfold InfiniteArgument KeyReadsInfinity ReadsInfinity
  by_cases readFile : name = "read_file"
  · simp only [readFile, if_true]
    tauto
  · by_cases searchText : name = "search_text"
    · simp only [searchText, String.reduceEq, if_true, if_false]
      tauto
    · simp [readFile, searchText]

variable {Payload : Type} [Inhabited Payload]

/-- A session about to make a call, with nothing spent. -/
def freshTurn (call : ToolCall) : Session Payload :=
  { work := { key := "", payload := default }, transcript := [], pendingTools := [call] }

def plainRun (host : ToolHost) : PhaseRun Payload :=
  { settings := {}
    phase := .verification
    messages := fun _ => []
    parse := fun _ _ => .error .database
    split := fun _ => .ok []
    maxUnits := 1
    toolCallKey := host.toolCallKey
    toolResultFailed := fun _ => false }

theorem charged_freshTurn (host : ToolHost) (call : ToolCall) (text : String) :
    ToolHost.Charged (plainRun host : PhaseRun Payload)
      { control := .turn (freshTurn call) } (freshTurn call) text := by
  refine ⟨rfl, ?_⟩
  simp [plainRun, ReviewLimits.remainingTools, ReviewLimits.reserve]

/-- A tool turn ends with a tool message in every session if and only if the call has no
infinite number, no range beyond what Python writes, and no loop of symbolic links. -/
theorem tool_turns_continue_iff (host : ToolHost) (call : ToolCall)
    (loaded : Json.loadedFields (host.arguments call) = true) :
    (∀ (run : PhaseRun Payload) (state : SchedulerState Payload)
        (session : Session Payload) (calls : List ToolCall),
        state.control = .turn session → session.pendingTools = call :: calls →
          host.Continues run state session call) ↔
      ¬InfiniteArgument call.name (host.arguments call) ∧
        ¬LongRange call.name (host.arguments call) ∧
          ¬CallMeetsLoop host.workspace call.name (host.arguments call) := by
  have keys : (∃ key, canonicalToolCallKey call.name (host.arguments call) = .ok key) ↔
      ¬KeyReadsInfinity call.name (host.arguments call) ∧
        ¬LongRange call.name (host.arguments call) :=
    canonicalToolCallKey_returns loaded
  rw [infiniteArgument_iff, not_or]
  constructor
  · intro continues
    have fresh := continues (plainRun host) { control := .turn (freshTurn call) }
      (freshTurn call) [] rfl rfl
    have made : ∃ key, canonicalToolCallKey call.name (host.arguments call) = .ok key := by
      by_contra failed
      exact ToolHost.not_continues_of_key rfl rfl failed fresh
    obtain ⟨finite, short⟩ := keys.mp made
    obtain ⟨key, returned⟩ := made
    have kept := (ToolHost.continues_of_charged rfl rfl returned
      (charged_freshTurn host call _)).mp fresh
    rw [escapes_execute, not_or] at kept
    exact ⟨⟨finite, kept.1⟩, short, kept.2⟩
  · intro plain run state session calls stands pending
    obtain ⟨⟨keyFinite, finite⟩, short, straight⟩ := plain
    obtain ⟨key, made⟩ := keys.mpr ⟨keyFinite, short⟩
    by_cases charged : ToolHost.Charged run state session (host.keyText key)
    · apply (ToolHost.continues_of_charged stands pending made charged).mpr
      rw [escapes_execute, not_or]
      exact ⟨finite, straight⟩
    · exact ToolHost.continues_of_suppressed stands pending made charged

def emptyWorkspace : Workspace :=
  { root := "/w"
    realpath := fun value => .ok ("/w/" ++ value)
    isFile := fun _ => .ok false
    git := fun _ => .ok { returnCode := 0, stdout := "", stderr := "" }
    realpath_raises := fun _ _ failed => nomatch failed
    isFile_raises := fun _ _ failed => nomatch failed
    git_raises := fun _ _ failed => nomatch failed }

/-- The tools over an empty workspace, when every call has these arguments. -/
def emptyHost (arguments : Dict String Json) : ToolHost :=
  { workspace := emptyWorkspace
    arguments := fun _ => arguments
    keyText := Prod.fst
    resultText := fun _ => "\x7b\"error\": \"file not found\"\x7d"
    raised := fun _ => .value "" }

def readCall : ToolCall :=
  { id := "call-1", name := "read_file", rawArguments := "" }

/-- A start line that is no number, and an end line in a text, end no review. -/
theorem tool_turns_continue_malformed :
    (emptyHost
      [("path", .string "a.py"), ("start_line", .string "x"),
        ("end_line", .string "5")]).Continues
      (plainRun (emptyHost [])) { control := .turn (freshTurn readCall) }
      (freshTurn readCall : Session Unit) readCall := by
  apply (tool_turns_continue_iff _ readCall rfl).mpr ?_ _ _ _ [] rfl rfl
  refine ⟨?_, ?_, ?_⟩
  · simp [InfiniteArgument, readCall, emptyHost, Json.fieldOr, Json.field, Dict.get?,
      Json.isInfinite]
  · intro long
    cases long.2.1
  · intro loop
    obtain ⟨path, _, _, raised, failed, _⟩ := loop
    cases failed

/-- `start_line` is `1e999`: the key has `int` read an infinity, outside the `try`. -/
theorem tool_turn_ended_by_infinity :
    Json.loadedFields
        [("path", .string "a.py"), ("start_line", .float (.infinite false))] = true ∧
      ¬(emptyHost
          [("path", .string "a.py"), ("start_line", .float (.infinite false))]).Continues
        (plainRun (emptyHost [])) { control := .turn (freshTurn readCall) }
        (freshTurn readCall : Session Unit) readCall := by
  refine ⟨rfl, ?_⟩
  apply ToolHost.not_continues_of_key rfl rfl
  intro failed
  obtain ⟨key, made⟩ := failed
  cases made

end Turns

end PeReview.Scheduling
