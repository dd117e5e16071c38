import PeReview.Data.Overlay
import PeReview.Repos.BoundedReader

/-!
# Reading ranges

What the bounded reader reads for one range, whatever it reads for the others.
-/

namespace PeReview

open PeReview.Data

/-- The physical lines of a file, each with its line feed. -/
def physicalLines : List UInt8 → List (List UInt8)
  | [] => []
  | byte :: rest =>
      if byte = 10 then [byte] :: physicalLines rest
      else
        match physicalLines rest with
        | [] => [[byte]]
        | line :: lines => (byte :: line) :: lines

section Lines

variable {bytes rest line segment : List UInt8} {number limit : Nat}

theorem unbroken_cons {byte : UInt8} :
    10 ∉ byte :: line ↔ byte ≠ 10 ∧ 10 ∉ line := by
  rw [List.mem_cons, not_or]
  exact Iff.and ne_comm Iff.rfl

theorem physicalLines_terminated (unbroken : 10 ∉ line) (rest : List UInt8) :
    physicalLines (line ++ 10 :: rest) = (line ++ [10]) :: physicalLines rest := by
  induction line with
  | nil => rfl
  | cons byte line inductionHypothesis =>
      obtain ⟨first, others⟩ := unbroken_cons.mp unbroken
      rw [List.cons_append, physicalLines, if_neg first, inductionHypothesis others]
      rfl

theorem physicalLines_last (unbroken : 10 ∉ line) :
    physicalLines line = if line = [] then [] else [line] := by
  induction line with
  | nil => rfl
  | cons byte line inductionHypothesis =>
      obtain ⟨first, others⟩ := unbroken_cons.mp unbroken
      rw [physicalLines, if_neg first, inductionHypothesis others]
      by_cases last : line = []
      · simp [last]
      · simp [last]

/-- A segment is a part of the line, without its line feed or with it. -/
structure IsSegment (segment : List UInt8) : Prop where
  filled : segment ≠ []
  shape : 10 ∉ segment ∨ ∃ body, segment = body ++ [10] ∧ 10 ∉ body

theorem readline_append (limit : Nat) (bytes : List UInt8) :
    (readline limit bytes).1 ++ (readline limit bytes).2 = bytes := by
  induction bytes generalizing limit with
  | nil => rfl
  | cons byte rest inductionHypothesis =>
      rw [readline]
      split
      · rfl
      · split
        · rfl
        · exact congrArg (byte :: ·) (inductionHypothesis (limit - 1))

theorem readline_shape (limit : Nat) (bytes : List UInt8) :
    10 ∉ (readline limit bytes).1 ∨
      ∃ body, (readline limit bytes).1 = body ++ [10] ∧ 10 ∉ body := by
  induction bytes generalizing limit with
  | nil => exact Or.inl List.not_mem_nil
  | cons byte rest inductionHypothesis =>
      rw [readline]
      split
      · exact Or.inl List.not_mem_nil
      · split
        · rename_i _ ends
          exact Or.inr ⟨[], by rw [ends]; rfl, List.not_mem_nil⟩
        · rename_i _ plain
          rcases inductionHypothesis (limit - 1) with unbroken | ⟨body, same, unbroken⟩
          · exact Or.inl (unbroken_cons.mpr ⟨plain, unbroken⟩)
          · refine Or.inr ⟨byte :: body, ?_, unbroken_cons.mpr ⟨plain, unbroken⟩⟩
            dsimp only
            rw [same]
            rfl

theorem readline_filled (positive : 0 < limit) (more : bytes ≠ []) :
    (readline limit bytes).1 ≠ [] := by
  cases bytes with
  | nil => exact absurd rfl more
  | cons byte rest =>
      rw [readline, if_neg (Nat.ne_of_gt positive)]
      split <;> exact List.cons_ne_nil _ _

end Lines

section Reader

variable {captureFromLine stopAfterLine captureBytes number : Int}
  {read bytes segment : List UInt8} {fuel : Nat}

/-- The reader with a part of a line. -/
def readerAt (captureFromLine captureBytes number : Int) (read : List UInt8) : LineReader :=
  { lineNumber := number
    kept := if captureFromLine ≤ number then read.take captureBytes.toNat else []
    truncated := decide (captureFromLine ≤ number ∧ max captureBytes 0 < read.length)
    sawSegment := decide (read ≠ []) }

theorem readerAt_nil :
    readerAt captureFromLine captureBytes number [] = { lineNumber := number } := by
  have short : ¬max captureBytes 0 < 0 := by omega
  simp [readerAt, short]

/-- The segments of a line are captured as the line is. -/
theorem capture_readerAt (filled : segment ≠ []) :
    (readerAt captureFromLine captureBytes number read).capture captureFromLine captureBytes
        segment =
      readerAt captureFromLine captureBytes number (read ++ segment) := by
  unfold LineReader.capture readerAt
  by_cases captured : captureFromLine ≤ number
  · rw [if_pos captured, LineReader.mk.injEq]
    dsimp only
    rw [if_pos captured, if_pos captured]
    refine ⟨rfl, ?_, ?_, ?_⟩
    · have remaining : (captureBytes - (read.take captureBytes.toNat).length).toNat =
          captureBytes.toNat - read.length := by
        rw [List.length_take]
        omega
      rw [remaining, List.take_append]
    · have more := List.length_pos_iff.mpr filled
      rw [List.length_take, List.length_append, ← Bool.decide_or, decide_eq_decide]
      omega
    · simp [filled]
  · simp [captured, filled]

/-- The lines that are yielded, up to the last one that is wanted. -/
def yieldedLines (captureFromLine stopAfterLine captureBytes : Int) :
    Int → List (List UInt8) → List BoundedLine
  | _, [] => []
  | number, line :: rest =>
      if number ≤ stopAfterLine then
        (readerAt captureFromLine captureBytes number line).line ::
          yieldedLines captureFromLine stopAfterLine captureBytes (number + 1) rest
      else []

/-- A file is read to its end, or to the last line that is wanted, as its lines. -/
theorem iterFrom_eq (captureFromLine stopAfterLine captureBytes number : Int)
    (read : List UInt8) (enough : bytes.length < fuel) (unbroken : 10 ∉ read) :
    iterFrom none captureFromLine stopAfterLine captureBytes fuel
        (readerAt captureFromLine captureBytes number read) bytes =
      (yieldedLines captureFromLine stopAfterLine captureBytes number
        (physicalLines (read ++ bytes)), none) := by
  induction fuel generalizing bytes read number with
  | zero => exact absurd enough (Nat.not_lt_zero _)
  | succ fuel inductionHypothesis =>
      have lineNumber :
          (readerAt captureFromLine captureBytes number read).lineNumber = number := rfl
      rw [iterFrom, lineNumber]
      by_cases wanted : number ≤ stopAfterLine
      · rw [if_pos wanted]
        have joined := readline_append fileReadChunkBytes bytes
        have shape := readline_shape fileReadChunkBytes bytes
        have filled : bytes ≠ [] → (readline fileReadChunkBytes bytes).1 ≠ [] :=
          readline_filled (by decide)
        cases isRead : readline fileReadChunkBytes bytes with
        | mk segment rest =>
            rw [isRead] at joined shape filled
            cases segment with
            | nil =>
                have none_ : bytes = [] := by
                  by_contra more
                  exact filled more rfl
                rw [none_, List.append_nil, physicalLines_last unbroken]
                by_cases last : read = []
                · simp [last, yieldedLines, readerAt]
                · simp [last, yieldedLines, wanted]
                  simp [readerAt, last]
            | cons byte others =>
                dsimp only at joined shape ⊢
                have shorter : rest.length < fuel := by
                  have lengths := congrArg List.length joined
                  rw [List.length_append, List.length_cons] at lengths
                  omega
                have more : byte :: others ≠ [] := List.cons_ne_nil _ _
                rw [capture_readerAt more, ← joined, ← List.append_assoc]
                rcases shape with inner | ⟨body, same, inner⟩
                · have open_ : ¬(byte :: others).getLast? = some 10 := by
                    intro ends
                    exact inner (List.mem_of_getLast? ends)
                  rw [if_neg open_]
                  apply inductionHypothesis _ _ shorter
                  rw [List.mem_append, not_or]
                  exact ⟨unbroken, inner⟩
                · have ends : (byte :: others).getLast? = some 10 := by
                    rw [same]
                    exact List.getLast?_concat
                  have whole : 10 ∉ read ++ body := by
                    rw [List.mem_append, not_or]
                    exact ⟨unbroken, inner⟩
                  have next := inductionHypothesis (number + 1) [] shorter List.not_mem_nil
                  rw [readerAt_nil, List.nil_append] at next
                  have line : (readerAt captureFromLine captureBytes number
                      (read ++ byte :: others)).lineNumber = number := rfl
                  have first : physicalLines (read ++ (body ++ [10]) ++ rest) =
                      (read ++ (body ++ [10])) :: physicalLines rest := by
                    have terminated := physicalLines_terminated whole rest
                    simpa only [List.append_assoc, List.singleton_append] using terminated
                  rw [if_pos ends, line, next, same, first, yieldedLines, if_pos wanted]
      · rw [if_neg wanted]
        cases physicalLines (read ++ bytes) with
        | nil => rfl
        | cons line lines => rw [yieldedLines, if_neg wanted]

end Reader

def capturedLine (captureBytes number : Int) (line : List UInt8) : BoundedLine :=
  { number, bytes := rstripEnds (line.take captureBytes.toNat)
    truncated := decide (max captureBytes 0 < line.length) }

/-- The lines of a file from a number on, each as it is captured. -/
def capturedLines (captureBytes : Int) : Int → List (List UInt8) → List BoundedLine
  | _, [] => []
  | number, line :: rest =>
      capturedLine captureBytes number line :: capturedLines captureBytes (number + 1) rest

def RangeState.follow (path : String) (maxOutputBytes : Int) (maxLineBytes : Option Int)
    (range : LineRange) (state : RangeState) (line : BoundedLine) : RangeState :=
  if range.start ≤ line.number ∧ line.number ≤ range.stop ∧ state.done = false then
    .read path maxOutputBytes (renderLine maxLineBytes line) state
  else state

def rangeText (path : String) (maxOutputBytes : Int) (maxLineBytes : Option Int)
    (bytes : List UInt8) (range : LineRange) : String :=
  ((capturedLines (captureBytes maxOutputBytes maxLineBytes) 1 (physicalLines bytes)).foldl
    (RangeState.follow path maxOutputBytes maxLineBytes range) {}).text

section Following

variable {path : String} {maxOutputBytes : Int} {maxLineBytes : Option Int}
  {range : LineRange} {state : RangeState} {lines : List BoundedLine}
  {number captured captureFromLine stopAfterLine : Int}

/-- A range that has ended, or is behind, is not changed. -/
theorem follow_settled {line : BoundedLine}
    (settled : state.done = true ∨ line.number < range.start ∨ range.stop < line.number) :
    state.follow path maxOutputBytes maxLineBytes range line = state := by
  unfold RangeState.follow
  rw [if_neg]
  intro reads
  obtain ⟨start, stop, open_⟩ := reads
  rcases settled with done | before | behind
  · rw [open_] at done
    cases done
  · omega
  · omega

theorem foldl_settled
    (settled : state.done = true ∨ ∀ line ∈ lines, range.stop < line.number) :
    lines.foldl (RangeState.follow path maxOutputBytes maxLineBytes range) state = state := by
  induction lines with
  | nil => rfl
  | cons line rest inductionHypothesis =>
      have same : state.follow path maxOutputBytes maxLineBytes range line = state := by
        apply follow_settled
        exact settled.imp id fun behind => Or.inr (behind line List.mem_cons_self)
      rw [List.foldl_cons, same]
      apply inductionHypothesis
      exact settled.imp id fun behind line member =>
        behind line (List.mem_cons_of_mem _ member)

theorem le_of_mem_capturedLines {lines : List (List UInt8)} {line : BoundedLine}
    (member : line ∈ capturedLines captured number lines) : number ≤ line.number := by
  induction lines generalizing number with
  | nil => cases member
  | cons first rest inductionHypothesis =>
      rw [capturedLines, List.mem_cons] at member
      rcases member with isFirst | later
      · rw [isFirst]
        exact Int.le_refl _
      · have behind := inductionHypothesis later
        omega

/-- The lines that are read for other ranges are nothing to a range. -/
theorem foldl_yieldedLines (from_ : captureFromLine ≤ range.start)
    (within : range.stop ≤ stopAfterLine) (lines : List (List UInt8)) (number : Int)
    (state : RangeState) :
    (yieldedLines captureFromLine stopAfterLine captured number lines).foldl
        (RangeState.follow path maxOutputBytes maxLineBytes range) state =
      (capturedLines captured number lines).foldl
        (RangeState.follow path maxOutputBytes maxLineBytes range) state := by
  induction lines generalizing number state with
  | nil => rfl
  | cons line rest inductionHypothesis =>
      rw [yieldedLines]
      by_cases wanted : number ≤ stopAfterLine
      · have same : state.follow path maxOutputBytes maxLineBytes range
              (readerAt captureFromLine captured number line).line =
            state.follow path maxOutputBytes maxLineBytes range
              (capturedLine captured number line) := by
          by_cases reads : captureFromLine ≤ number
          · simp [readerAt, LineReader.line, capturedLine, reads]
          · have before : number < range.start := by omega
            rw [follow_settled (Or.inr (Or.inl before)), follow_settled (Or.inr (Or.inl before))]
        rw [if_pos wanted, List.foldl_cons, same, inductionHypothesis]
        rfl
      · rw [if_neg wanted]
        symm
        apply foldl_settled
        right
        intro other member
        have behind := le_of_mem_capturedLines member
        omega

end Following

section States

variable {path : String} {maxOutputBytes minStart number : Int} {maxLineBytes : Option Int}
  {range : LineRange} {ranges : List LineRange} {state : RangeState}
  {states : Dict Int RangeState} {lines : List BoundedLine} {key : Int}

/-- The update of one range leaves the others. -/
theorem get?_updateStates_singleton (change : RangeState → RangeState) (first : Int) :
    Dict.get? (updateStates change states [first]) key =
      if first = key then (Dict.get? states key).map change else Dict.get? states key := by
  simp only [updateStates, List.foldl_cons, List.foldl_nil]
  cases found : Dict.get? states first with
  | none =>
      by_cases same : first = key
      · rw [if_pos same, ← same, found]
        rfl
      · rw [if_neg same]
  | some state =>
      by_cases same : first = key
      · rw [if_pos same, ← same, found]
        exact Dict.get?_set_self _ _ _
      · rw [if_neg same]
        exact Dict.get?_set_of_ne _ _ same

theorem get?_updateStates {change : RangeState → RangeState} {keys : List Int}
    (distinct : keys.Nodup) :
    Dict.get? (updateStates change states keys) key =
      if key ∈ keys then (Dict.get? states key).map change else Dict.get? states key := by
  induction keys generalizing states with
  | nil => rfl
  | cons first rest inductionHypothesis =>
      obtain ⟨fresh, others⟩ := List.nodup_cons.mp distinct
      have step : updateStates change states (first :: rest) =
          updateStates change (updateStates change states [first]) rest := rfl
      rw [step, inductionHypothesis others, get?_updateStates_singleton]
      by_cases same : first = key
      · rw [← same, if_neg fresh, if_pos List.mem_cons_self, if_pos rfl]
      · have different : key ≠ first := Ne.symm same
        simp [same, different]

theorem nodup_activeKeys (distinct : (ranges.map LineRange.key).Nodup) :
    (activeKeys ranges states number).Nodup :=
  distinct.sublist (List.filter_sublist.map _)

/-- A range is active at its lines while it has not ended. -/
theorem mem_activeKeys (number : Int) (distinct : (ranges.map LineRange.key).Nodup)
    (member : range ∈ ranges) (found : Dict.get? states range.key = some state) :
    range.key ∈ activeKeys ranges states number ↔
      range.start ≤ number ∧ number ≤ range.stop ∧ state.done = false := by
  have open_ : isDone states range.key = state.done := by
    unfold isDone
    rw [found]
    rfl
  unfold activeKeys
  rw [List.mem_map]
  constructor
  · intro active
    obtain ⟨other, reads, same⟩ := active
    rw [List.mem_filter] at reads
    have equal := List.inj_on_of_nodup_map distinct reads.1 member same
    rw [equal, open_] at reads
    simpa [and_assoc] using reads.2
  · intro reads
    refine ⟨range, List.mem_filter.mpr ⟨member, ?_⟩, rfl⟩
    rw [open_]
    simpa [and_assoc] using reads

/-- The state of a range is what the lines make of it, whatever the other ranges are. -/
theorem get?_readStates (distinct : (ranges.map LineRange.key).Nodup)
    (member : range ∈ ranges) (early : minStart ≤ range.start)
    (ascending : lines.Pairwise fun first second => first.number < second.number)
    (found : Dict.get? states range.key = some state) :
    Dict.get?
        (readStates path maxOutputBytes maxLineBytes minStart ranges lines states).1
        range.key =
      some (lines.foldl (RangeState.follow path maxOutputBytes maxLineBytes range) state) := by
  induction lines generalizing states state with
  | nil => exact found
  | cons line rest inductionHypothesis =>
      obtain ⟨first, later⟩ := List.pairwise_cons.mp ascending
      have active := mem_activeKeys line.number distinct member found
      rw [readStates, List.foldl_cons]
      dsimp only
      split
      · rename_i skipped
        have same : state.follow path maxOutputBytes maxLineBytes range line = state := by
          unfold RangeState.follow
          rw [if_neg]
          intro reads
          rw [Bool.or_eq_true, decide_eq_true_eq, List.isEmpty_iff] at skipped
          rcases skipped with before | none_
          · omega
          · have isActive := active.mpr reads
            rw [none_] at isActive
            cases isActive
        rw [same]
        exact inductionHypothesis later found
      · have updated : Dict.get?
              (updateStates
                (.read path maxOutputBytes (renderLine maxLineBytes line)) states
                (activeKeys ranges states line.number)) range.key =
            some (state.follow path maxOutputBytes maxLineBytes range line) := by
          rw [get?_updateStates (nodup_activeKeys distinct), found]
          unfold RangeState.follow
          simp only [active]
          split <;> rfl
        split
        · rename_i ended
          unfold allRead at ended
          rw [List.all_eq_true] at ended
          have ends := ended range member
          unfold isDone at ends
          rw [updated, Option.map_some, Option.getD_some, Bool.or_eq_true,
            decide_eq_true_eq] at ends
          rw [foldl_settled]
          · exact updated
          · apply ends.imp id
            intro stop other isLater
            have behind := first other isLater
            omega
        · exact inductionHypothesis later updated

theorem get?_readStates_other (distinct : (ranges.map LineRange.key).Nodup)
    (other : key ∉ ranges.map LineRange.key) :
    Dict.get?
        (readStates path maxOutputBytes maxLineBytes minStart ranges lines states).1 key =
      Dict.get? states key := by
  induction lines generalizing states with
  | nil => rfl
  | cons line rest inductionHypothesis =>
      have passive : key ∉ activeKeys ranges states line.number := by
        intro active
        exact other ((List.filter_sublist.map _).subset active)
      have kept : Dict.get?
            (updateStates (.read path maxOutputBytes (renderLine maxLineBytes line)) states
              (activeKeys ranges states line.number)) key = Dict.get? states key := by
        rw [get?_updateStates (nodup_activeKeys distinct), if_neg passive]
      rw [readStates]
      dsimp only
      split
      · exact inductionHypothesis
      · split
        · exact kept
        · rw [inductionHypothesis]
          exact kept

end States

section Ranges

variable {path : String} {bytes : List UInt8} {maxOutputBytes : Int} {maxLineBytes : Option Int}
  {range : LineRange} {ranges : List LineRange} {captureFromLine stopAfterLine captured number : Int}

theorem get?_foldl_set {Value : Type} {value : LineRange → Value} {dict : Dict Int Value}
    {key : Int} (other : key ∉ ranges.map LineRange.key) :
    Dict.get? (ranges.foldl (fun dict range => Dict.set dict range.key (value range)) dict)
        key = Dict.get? dict key := by
  induction ranges generalizing dict with
  | nil => rfl
  | cons first rest inductionHypothesis =>
      rw [List.map_cons, List.mem_cons, not_or] at other
      rw [List.foldl_cons, inductionHypothesis other.2]
      exact Dict.get?_set_of_ne _ _ (Ne.symm other.1)

/-- Each range begins with a state of its own. -/
theorem get?_initialStates (distinct : (ranges.map LineRange.key).Nodup)
    (member : range ∈ ranges) :
    Dict.get? (initialStates ranges) range.key =
      some (if range.stop < range.start then { result := some "<empty>" } else {}) := by
  unfold initialStates
  generalize ([] : Dict Int RangeState) = states
  induction ranges generalizing states with
  | nil => cases member
  | cons first rest inductionHypothesis =>
      rw [List.map_cons] at distinct
      obtain ⟨fresh, others⟩ := List.nodup_cons.mp distinct
      rw [List.foldl_cons]
      rcases List.mem_cons.mp member with isFirst | later
      · rw [isFirst, get?_foldl_set fresh]
        exact Dict.get?_set_self _ _ _
      · exact inductionHypothesis others later _

theorem mem_validRanges :
    range ∈ validRanges ranges ↔ range ∈ ranges ∧ range.start ≤ range.stop := by
  unfold validRanges
  rw [List.mem_filter, decide_eq_true_eq]

theorem le_of_mem_yieldedLines {lines : List (List UInt8)} {line : BoundedLine}
    (member : line ∈ yieldedLines captureFromLine stopAfterLine captured number lines) :
    number ≤ line.number := by
  induction lines generalizing number with
  | nil => cases member
  | cons first rest inductionHypothesis =>
      rw [yieldedLines] at member
      split at member
      · rcases List.mem_cons.mp member with isFirst | later
        · rw [isFirst]
          exact Int.le_refl _
        · have behind := inductionHypothesis later
          omega
      · cases member

theorem yieldedLines_ascending (lines : List (List UInt8)) (number : Int) :
    (yieldedLines captureFromLine stopAfterLine captured number lines).Pairwise
      fun first second => first.number < second.number := by
  induction lines generalizing number with
  | nil => exact List.Pairwise.nil
  | cons first rest inductionHypothesis =>
      rw [yieldedLines]
      split
      · apply List.pairwise_cons.mpr
        refine ⟨?_, inductionHypothesis _⟩
        intro line member
        have behind := le_of_mem_yieldedLines member
        have own : (readerAt captureFromLine captured number first).line.number = number := rfl
        omega
      · exact List.Pairwise.nil

theorem iterBoundedBinaryLines_eq (bytes : List UInt8) :
    iterBoundedBinaryLines { bytes, failure := none } captureFromLine stopAfterLine captured =
      (yieldedLines captureFromLine stopAfterLine captured 1 (physicalLines bytes), none) := by
  have read := iterFrom_eq captureFromLine stopAfterLine captured 1 []
    (Nat.lt_succ_self bytes.length) List.not_mem_nil
  rw [readerAt_nil] at read
  exact read

theorem get?_map_text {states : Dict Int RangeState} {key : Int} :
    Dict.get? (states.map fun entry => (entry.1, entry.2.text)) key =
      (Dict.get? states key).map RangeState.text := by
  induction states with
  | nil => rfl
  | cons entry rest inductionHypothesis =>
      obtain ⟨first, state⟩ := entry
      rw [List.map_cons, Dict.get?_cons, Dict.get?_cons]
      split
      · rfl
      · exact inductionHypothesis

/-- A range without lines gives none. -/
theorem rangeText_empty (empty : range.stop < range.start) :
    rangeText path maxOutputBytes maxLineBytes bytes range = "<empty>" := by
  unfold rangeText
  have untouched (lines : List BoundedLine) (state : RangeState) :
      lines.foldl (RangeState.follow path maxOutputBytes maxLineBytes range) state = state := by
    induction lines with
    | nil => rfl
    | cons line rest inductionHypothesis =>
        have same : state.follow path maxOutputBytes maxLineBytes range line = state := by
          apply follow_settled
          omega
        rw [List.foldl_cons, same]
        exact inductionHypothesis
  rw [untouched]
  rfl

/-- What a range gives depends on the file and the limits only. -/
theorem get?_readTextRangesBounded (path : String) (bytes : List UInt8)
    (maxOutputBytes : Int) (maxLineBytes : Option Int)
    (distinct : (ranges.map LineRange.key).Nodup) (member : range ∈ ranges) :
    Dict.get?
        (readTextRangesBounded (.ok { bytes, failure := none }) path ranges maxOutputBytes
          maxLineBytes) range.key =
      some (rangeText path maxOutputBytes maxLineBytes bytes range) := by
  have initial := get?_initialStates distinct member
  have distinctValid : ((validRanges ranges).map LineRange.key).Nodup :=
    distinct.sublist (List.filter_sublist.map _)
  unfold readTextRangesBounded
  dsimp only
  by_cases empty : range.stop < range.start
  · have other : range.key ∉ (validRanges ranges).map LineRange.key := by
      intro listed
      obtain ⟨valid, isValid, same⟩ := List.mem_map.mp listed
      rw [mem_validRanges] at isValid
      have equal := List.inj_on_of_nodup_map distinct isValid.1 member same
      rw [equal] at isValid
      omega
    rw [if_pos empty] at initial
    rw [rangeText_empty empty]
    split
    · rw [iterBoundedBinaryLines_eq]
      dsimp only
      rw [ite_self]
      dsimp only
      rw [get?_map_text, get?_readStates_other distinctValid other, initial]
      rfl
    · rw [get?_map_text, initial]
      rfl
  · have valid : range ∈ validRanges ranges := mem_validRanges.mpr ⟨member, by omega⟩
    rw [if_neg empty] at initial
    cases least : ((validRanges ranges).map LineRange.start).min? with
    | none =>
        rw [List.min?_eq_none_iff, List.map_eq_nil_iff] at least
        rw [least] at valid
        cases valid
    | some minStart =>
        cases greatest : ((validRanges ranges).map LineRange.stop).max? with
        | none =>
            rw [List.max?_eq_none_iff, List.map_eq_nil_iff] at greatest
            rw [greatest] at valid
            cases valid
        | some maxEnd =>
            have early : minStart ≤ range.start :=
              (List.min?_eq_some_iff.mp least).2 _ (List.mem_map_of_mem valid)
            have within : range.stop ≤ maxEnd :=
              (List.max?_eq_some_iff.mp greatest).2 _ (List.mem_map_of_mem valid)
            dsimp only
            rw [iterBoundedBinaryLines_eq]
            dsimp only
            rw [ite_self]
            dsimp only
            rw [get?_map_text,
              get?_readStates distinctValid valid early (yieldedLines_ascending _ _) initial,
              foldl_yieldedLines early within]
            rfl

/-- A range that is read without a line limit. -/
theorem readTextRangeBounded_eq (startLine endLine : Int) :
    readTextRangeBounded (.ok { bytes, failure := none }) path startLine endLine
        maxOutputBytes =
      some (rangeText path maxOutputBytes none bytes
        { key := 0, start := startLine, stop := endLine }) :=
  @get?_readTextRangesBounded { key := 0, start := startLine, stop := endLine }
    [{ key := 0, start := startLine, stop := endLine }] path bytes maxOutputBytes none
    (List.nodup_singleton _) (List.mem_singleton_self _)

/-- One pass over a file gives each range what reading it alone gives. -/
theorem read_text_ranges_independent (bytes : List UInt8) (path : String)
    (ranges : List LineRange) (maxOutputBytes : Int) (maxLineBytes : Option Int)
    (distinct : (ranges.map LineRange.key).Nodup) :
    ∀ range ∈ ranges, ∃ result,
      Dict.get?
          (readTextRangesBounded (.ok { bytes, failure := none }) path ranges maxOutputBytes
            maxLineBytes) range.key = some result ∧
        Dict.get?
          (readTextRangesBounded (.ok { bytes, failure := none }) path [range] maxOutputBytes
            maxLineBytes) range.key = some result := by
  intro range member
  have together := get?_readTextRangesBounded path bytes maxOutputBytes maxLineBytes distinct
    member
  have single : ([range].map LineRange.key).Nodup := List.nodup_singleton _
  have alone := get?_readTextRangesBounded path bytes maxOutputBytes maxLineBytes single
    (List.mem_singleton_self range)
  exact ⟨_, together, alone⟩

/-- The second of three ranges of a file that overlap, one of them without lines; the file
ends with a line that is no text. -/
theorem read_text_ranges_independent_overlapping :
    ∃ result,
      Dict.get?
          (readTextRangesBounded (.ok { bytes := [97, 10, 98, 10, 0], failure := none })
            "a.c"
            [{ key := 0, start := 1, stop := 2 }, { key := 1, start := 2, stop := 9 },
              { key := 2, start := 4, stop := 3 }] 100 (some 8)) 1 = some result ∧
        Dict.get?
          (readTextRangesBounded (.ok { bytes := [97, 10, 98, 10, 0], failure := none })
            "a.c" [{ key := 1, start := 2, stop := 9 }] 100 (some 8)) 1 = some result :=
  read_text_ranges_independent _ _ _ _ _ (by decide) { key := 1, start := 2, stop := 9 }
    (by decide)

end Ranges

end PeReview
