import Mathlib.Data.List.Basic
import PeReview.Repos.ChangedLines

/-!
# Diff chunks

`review/chunking.py` splits a git diff without dropping a character, at whole files
where they fit and at line feeds where they do not.
-/

namespace PeReview

structure DiffChunk where
  text : List Char
  paths : List String
  deriving DecidableEq, Repr

namespace Chunking

/-- The positions `(?m)^diff --git ` matches at. -/
def headerStarts : Bool → Nat → List Char → List Nat
  | _, _, [] => []
  | lineStart, offset, char :: rest =>
      let later := headerStarts (char = '\n') (offset + 1) rest
      if lineStart && startsWith "diff --git " (char :: rest) then offset :: later
      else later

/-- `[text[starts[i] : starts[i + 1]] for i in range(len(starts) - 1)]`. -/
def slices (text : List Char) : List Nat → List (List Char)
  | start :: stop :: rest =>
      (text.drop start).take (stop - start) :: slices text (stop :: rest)
  | _ => []

/-- `text.rfind("\n", low, high)`. -/
def rfindNewline (text : List Char) (low high : Nat) : Option Nat :=
  ((List.range high).filter fun position =>
    low ≤ position && text[position]? = some '\n').getLast?

def cutAt (maxChars : Nat) (text : List Char) : Nat :=
  let stop := min text.length maxChars
  if stop < text.length then
    match rfindNewline text (maxChars / 2) stop with
    | some newline => if 0 < newline then newline + 1 else stop
    | none => stop
  else stop

/-- The loop of `_split_text` on the text from the offset on, for at most so many
parts. -/
def splitFrom (maxChars : Nat) : Nat → List Char → List (List Char)
  | 0, _ => []
  | _ + 1, [] => []
  | parts + 1, char :: rest =>
      let text := char :: rest
      text.take (cutAt maxChars text) ::
        splitFrom maxChars parts (text.drop (cutAt maxChars text))

/-- `_split_text`: every part has a character, so there are no more parts than
characters. -/
def splitText (text : List Char) (maxChars : Nat) : List (List Char) :=
  splitFrom maxChars text.length text

/-- The paths `(?m)^\+\+\+ b/(.+)$` finds. -/
def newPaths (text : List Char) : List (List Char) :=
  (text.splitOn '\n').filterMap fun line =>
    (afterLiteral "+++ b/" line).filter fun path => path ≠ []

/-- The second group of `^diff --git a/(.+?) b/(.+)$`, from the first group on. -/
def secondPath : List Char → Option (List Char)
  | [] => none
  | _ :: rest =>
      match afterLiteral " b/" rest with
      | some (char :: path) => some (char :: path)
      | _ => secondPath rest

/-- `_paths`. -/
def paths (text : List Char) : List String :=
  let found :=
    ((newPaths text).map String.ofList).filter fun path => path ≠ "/dev/null"
  if found ≠ [] then found.eraseDups
  else
    let first := (splitlinesFrom [] text).headD []
    match (afterLiteral "diff --git a/" first).bind secondPath with
    | some path => [String.ofList path]
    | none => []

/-- The local variables of `chunk_diff`. -/
structure Packing where
  chunks : List DiffChunk := []
  pending : List Char := []
  pendingPaths : List String := []
  deriving DecidableEq, Repr

/-- `flush`. -/
def Packing.flush (packing : Packing) : Packing :=
  if packing.pending = [] then packing
  else
    { chunks :=
        packing.chunks ++
          [{ text := packing.pending, paths := packing.pendingPaths.eraseDups }] }

/-- The body of the loop over the sections of the diff. -/
def Packing.add (maxChars : Nat) (packing : Packing) (part : List Char) :
    Packing :=
  let partPaths := paths part
  if maxChars < part.length then
    let packing := packing.flush
    { packing with
      chunks :=
        packing.chunks ++
          (splitText part maxChars).map fun text => { text, paths := partPaths } }
  else
    let packing :=
      if packing.pending ≠ [] ∧ maxChars < packing.pending.length + part.length then
        packing.flush
      else packing
    { packing with
      pending := packing.pending ++ part
      pendingPaths := packing.pendingPaths ++ partPaths }

def boundaries (diff : List Char) (starts : List Nat) : List Nat :=
  (if starts.head? = some 0 then starts else 0 :: starts) ++ [diff.length]

/-- `chunk_diff`. -/
def chunkDiff (diff : List Char) (maxChars : Nat) : List DiffChunk :=
  if diff = [] then [{ text := [], paths := [] }]
  else if diff.length ≤ maxChars then [{ text := diff, paths := paths diff }]
  else
    match headerStarts true 0 diff with
    | [] =>
        (splitText diff maxChars).map fun text => { text, paths := [] }
    | start :: starts =>
        let sections := slices diff (boundaries diff (start :: starts))
        (sections.foldl (Packing.add maxChars) {}).flush.chunks

/-! ## Nothing is dropped -/

theorem rfindNewline_bounds {text : List Char} {low high newline : Nat}
    (found : rfindNewline text low high = some newline) :
    low ≤ newline ∧ newline < high := by
  have member := List.mem_of_getLast? found
  rw [List.mem_filter, List.mem_range] at member
  obtain ⟨below, matches_⟩ := member
  simp only [Bool.and_eq_true, decide_eq_true_eq] at matches_
  exact ⟨matches_.1, below⟩

theorem cutAt_le (maxChars : Nat) (text : List Char) :
    cutAt maxChars text ≤ maxChars := by
  unfold cutAt
  dsimp only
  split
  · split
    · rename_i newline found
      have bounds := rfindNewline_bounds found
      split
      · omega
      · omega
    · omega
  · omega

/-- A cut lies in the text. -/
theorem cutAt_le_length (maxChars : Nat) (text : List Char) :
    cutAt maxChars text ≤ text.length := by
  unfold cutAt
  dsimp only
  split
  · split
    · rename_i newline found
      have bounds := rfindNewline_bounds found
      split
      · omega
      · omega
    · omega
  · omega

/-- A cut advances. -/
theorem cutAt_pos {maxChars : Nat} {text : List Char} (room : 1 ≤ maxChars)
    (nonempty : text ≠ []) : 1 ≤ cutAt maxChars text := by
  have length := List.length_pos_of_ne_nil nonempty
  unfold cutAt
  dsimp only
  split
  · split
    · split
      · omega
      · omega
    · omega
  · omega

theorem splitFrom_flatten {maxChars : Nat} (room : 1 ≤ maxChars) {parts : Nat}
    {text : List Char} (enough : text.length ≤ parts) :
    (splitFrom maxChars parts text).flatten = text := by
  induction parts generalizing text with
  | zero =>
      rw [List.length_eq_zero_iff.mp (Nat.le_zero.mp enough)]
      rfl
  | succ parts inductionHypothesis =>
      cases text with
      | nil =>
          rfl
      | cons char rest =>
          have advance := cutAt_pos room (List.cons_ne_nil char rest)
          have left :
              ((char :: rest).drop (cutAt maxChars (char :: rest))).length ≤
                parts := by
            rw [List.length_drop]
            omega
          simp only [splitFrom, List.flatten_cons]
          rw [inductionHypothesis left]
          exact List.take_append_drop _ _

theorem splitText_flatten {maxChars : Nat} (room : 1 ≤ maxChars)
    (text : List Char) : (splitText text maxChars).flatten = text :=
  splitFrom_flatten room (Nat.le_refl _)

/-- A part has a character and fits. -/
theorem splitFrom_fits {maxChars : Nat} (room : 1 ≤ maxChars) {parts : Nat}
    {text : List Char} :
    ∀ part ∈ splitFrom maxChars parts text,
      part ≠ [] ∧ part.length ≤ maxChars := by
  induction parts generalizing text with
  | zero =>
      intro part member
      cases member
  | succ parts inductionHypothesis =>
      cases text with
      | nil =>
          intro part member
          cases member
      | cons char rest =>
          have advance := cutAt_pos room (List.cons_ne_nil char rest)
          have limit := cutAt_le maxChars (char :: rest)
          simp only [splitFrom]
          refine List.forall_mem_cons.mpr ⟨⟨?_, ?_⟩, inductionHypothesis⟩
          · intro empty
            rw [List.take_eq_nil_iff] at empty
            rcases empty with none_ | nothing
            · omega
            · cases nothing
          · rw [List.length_take]
            omega

/-- The positions of headers ascend and lie in the text. -/
theorem headerStarts_sorted (lineStart : Bool) (offset : Nat)
    (text : List Char) :
    (headerStarts lineStart offset text).Pairwise (· < ·) ∧
      ∀ start ∈ headerStarts lineStart offset text,
        offset ≤ start ∧ start < offset + text.length := by
  induction text generalizing lineStart offset with
  | nil =>
      exact ⟨List.Pairwise.nil, fun start member => by cases member⟩
  | cons char rest inductionHypothesis =>
      obtain ⟨sorted, inside⟩ := inductionHypothesis (char = '\n') (offset + 1)
      have within : ∀ start ∈ headerStarts (char = '\n') (offset + 1) rest,
          offset < start ∧ start < offset + (char :: rest).length := by
        intro start member
        have bounds := inside start member
        simp only [List.length_cons]
        omega
      simp only [headerStarts]
      split
      · refine ⟨List.pairwise_cons.mpr ⟨?_, sorted⟩, ?_⟩
        · exact fun start member => (within start member).1
        · refine List.forall_mem_cons.mpr ⟨?_, ?_⟩
          · simp only [List.length_cons]
            omega
          · intro start member
            have bounds := within start member
            omega
      · refine ⟨sorted, fun start member => ?_⟩
        have bounds := within start member
        omega

/-- Consecutive slices put together again. -/
theorem slices_flatten (text : List Char) {first last : Nat} {rest : List Nat}
    (sorted : (first :: rest).Pairwise (· < ·))
    (ends : (first :: rest).getLast? = some last) :
    (slices text (first :: rest)).flatten =
      (text.drop first).take (last - first) := by
  induction rest generalizing first with
  | nil =>
      cases ends
      simp [slices]
  | cons second rest inductionHypothesis =>
      obtain ⟨below, sortedRest⟩ := List.pairwise_cons.mp sorted
      rw [List.getLast?_cons_cons] at ends
      have later := inductionHypothesis sortedRest ends
      have firstSecond := below second List.mem_cons_self
      have firstLast := below last (List.mem_of_getLast? ends)
      have secondLast : second ≤ last := by
        rcases List.mem_cons.mp (List.mem_of_getLast? ends) with same | after
        · exact Nat.le_of_eq same.symm
        · exact Nat.le_of_lt ((List.pairwise_cons.mp sortedRest).1 last after)
      rw [slices, List.flatten_cons, later]
      have split :
          last - first = (second - first) + (last - second) := by
        omega
      rw [split, List.take_add, List.drop_drop]
      congr 3
      omega

namespace Packing

/-- What has been packed so far. -/
def text (packing : Packing) : List Char :=
  packing.chunks.flatMap DiffChunk.text ++ packing.pending

/-- The chunks fit, and so does what is still to become one. -/
structure Fits (maxChars : Nat) (packing : Packing) : Prop where
  chunks : ∀ chunk ∈ packing.chunks,
    chunk.text ≠ [] ∧ chunk.text.length ≤ maxChars
  pending : packing.pending.length ≤ maxChars

theorem flush_pending (packing : Packing) : packing.flush.pending = [] := by
  unfold flush
  split
  · assumption
  · rfl

theorem flush_text (packing : Packing) : packing.flush.text = packing.text := by
  unfold flush
  split
  · rfl
  · simp [text]

theorem Fits.flush {maxChars : Nat} {packing : Packing}
    (fits : Fits maxChars packing) : Fits maxChars packing.flush := by
  unfold Packing.flush
  split
  · exact fits
  · rename_i some_
    refine ⟨?_, Nat.zero_le _⟩
    intro chunk member
    rcases List.mem_append.mp member with old | new
    · exact fits.chunks chunk old
    · rw [List.mem_singleton.mp new]
      exact ⟨some_, fits.pending⟩

theorem add_text {maxChars : Nat} (room : 1 ≤ maxChars) (packing : Packing)
    (part : List Char) :
    (packing.add maxChars part).text = packing.text ++ part := by
  unfold add
  dsimp only
  split
  · have flushed := packing.flush_text
    simp only [text, packing.flush_pending, List.append_nil] at flushed ⊢
    rw [List.flatMap_append, flushed, List.flatMap_map, List.flatMap_id',
      splitText_flatten room]
  · split
    · have flushed := packing.flush_text
      simp only [text] at flushed ⊢
      rw [← List.append_assoc, flushed]
    · simp only [text, List.append_assoc]

theorem Fits.add {maxChars : Nat} (room : 1 ≤ maxChars) {packing : Packing}
    (fits : Fits maxChars packing) (part : List Char) :
    Fits maxChars (packing.add maxChars part) := by
  unfold Packing.add
  dsimp only
  split
  · have flushed := fits.flush
    refine ⟨?_, flushed.pending⟩
    intro chunk member
    rcases List.mem_append.mp member with old | new
    · exact flushed.chunks chunk old
    · obtain ⟨piece, isPiece, rfl⟩ := List.mem_map.mp new
      exact splitFrom_fits room piece isPiece
  · rename_i small
    split
    · refine ⟨fits.flush.chunks, ?_⟩
      rw [packing.flush_pending, List.nil_append]
      exact Nat.not_lt.mp small
    · rename_i together
      refine ⟨fits.chunks, ?_⟩
      rw [List.length_append]
      by_cases nothing : packing.pending = []
      · simp only [nothing, List.length_nil]
        omega
      · have fit : ¬maxChars < packing.pending.length + part.length :=
          fun isOver => together ⟨nothing, isOver⟩
        omega

theorem foldl_text {maxChars : Nat} (room : 1 ≤ maxChars)
    (parts : List (List Char)) (packing : Packing) :
    (parts.foldl (Packing.add maxChars) packing).text =
      packing.text ++ parts.flatten := by
  induction parts generalizing packing with
  | nil =>
      simp
  | cons part rest inductionHypothesis =>
      rw [List.foldl_cons, inductionHypothesis, add_text room,
        List.flatten_cons, List.append_assoc]

theorem Fits.foldl {maxChars : Nat} (room : 1 ≤ maxChars)
    (parts : List (List Char)) {packing : Packing}
    (fits : Fits maxChars packing) :
    Fits maxChars (parts.foldl (Packing.add maxChars) packing) := by
  induction parts generalizing packing with
  | nil =>
      exact fits
  | cons part rest inductionHypothesis =>
      exact inductionHypothesis (fits.add room part)

end Packing

/-- The boundaries begin at the start of the diff, end at its end, and ascend. -/
theorem boundaries_spec {diff : List Char} (nonempty : diff ≠ []) :
    ∃ rest,
      boundaries diff (headerStarts true 0 diff) = 0 :: rest ∧
        (0 :: rest).Pairwise (· < ·) ∧
        (0 :: rest).getLast? = some diff.length := by
  have length := List.length_pos_of_ne_nil nonempty
  obtain ⟨sorted, inside⟩ := headerStarts_sorted true 0 diff
  have ending : ∀ starts : List Nat, starts.Pairwise (· < ·) →
      (∀ start ∈ starts, start < diff.length) →
      (starts ++ [diff.length]).Pairwise (· < ·) := by
    intro starts ascending below
    refine List.pairwise_append.mpr ⟨ascending, List.pairwise_singleton _ _, ?_⟩
    intro start member last isLast
    rw [List.mem_singleton.mp isLast]
    exact below start member
  have below : ∀ start ∈ headerStarts true 0 diff, start < diff.length := by
    intro start member
    have bounds := inside start member
    omega
  unfold boundaries
  generalize headerStarts true 0 diff = starts at sorted below
  split
  · rename_i begins
    cases starts with
    | nil =>
        cases begins
    | cons start rest =>
        cases begins
        refine ⟨rest ++ [diff.length], rfl, ?_, ?_⟩
        · exact ending (0 :: rest) sorted below
        · rw [← List.cons_append]
          exact List.getLast?_concat
  · rename_i later
    refine ⟨starts ++ [diff.length], rfl, ?_, ?_⟩
    · refine ending (0 :: starts) (List.pairwise_cons.mpr ⟨?_, sorted⟩) ?_
      · intro start member
        rcases Nat.eq_zero_or_pos start with zero | positive
        · -- The first position is the least, and it is not zero.
          cases starts with
          | nil =>
              cases member
          | cons first rest =>
              rcases List.mem_cons.mp member with same | after
              · rw [← same, zero] at later
                exact absurd rfl later
              · have least := (List.pairwise_cons.mp sorted).1 start after
                omega
        · exact positive
      · exact List.forall_mem_cons.mpr ⟨length, below⟩
    · rw [← List.cons_append]
      exact List.getLast?_concat

/-- The texts of the chunks are the diff, every chunk fits, and no chunk of a
nonempty diff is empty. -/
theorem chunkDiff_spec (diff : List Char) {maxChars : Nat} (room : 1 ≤ maxChars) :
    (chunkDiff diff maxChars).flatMap DiffChunk.text = diff ∧
      ∀ chunk ∈ chunkDiff diff maxChars,
        chunk.text.length ≤ maxChars ∧ (diff ≠ [] → chunk.text ≠ []) := by
  unfold chunkDiff
  split
  · rename_i empty
    subst empty
    simp
  · rename_i nonempty
    split
    · rename_i fits
      simp [fits]
    · split
      · rw [List.flatMap_map, List.flatMap_id']
        refine ⟨splitText_flatten room diff, ?_⟩
        intro chunk member
        obtain ⟨piece, isPiece, rfl⟩ := List.mem_map.mp member
        obtain ⟨some_, fits⟩ := splitFrom_fits room piece isPiece
        exact ⟨fits, fun _ => some_⟩
      · rename_i start starts found
        dsimp only
        rw [← found]
        obtain ⟨rest, begins, sorted, ends⟩ := boundaries_spec nonempty
        rw [begins]
        have whole : (slices diff (0 :: rest)).flatten = diff := by
          rw [slices_flatten diff sorted ends]
          simp
        have initial : Packing.Fits maxChars {} := by
          refine ⟨?_, Nat.zero_le _⟩
          intro chunk member
          cases member
        have packed :=
          Packing.foldl_text room (slices diff (0 :: rest)) {}
        have fits :=
          (Packing.Fits.foldl room (slices diff (0 :: rest)) initial).flush
        rw [whole, ← Packing.flush_text] at packed
        simp only [Packing.text, Packing.flush_pending, List.append_nil]
          at packed
        refine ⟨packed, fun chunk member => ?_⟩
        obtain ⟨some_, small⟩ := fits.chunks chunk member
        exact ⟨small, fun _ => some_⟩

/-- The texts of the chunks are the diff, a chunk fits, and no chunk of a nonempty diff is
empty; each cut advances within the text, and the parts of a text are the text. -/
theorem chunk_diff_lossless (diff : List Char) {maxChars : Nat} (room : 1 ≤ maxChars) :
    (chunkDiff diff maxChars).flatMap DiffChunk.text = diff ∧
      (∀ chunk ∈ chunkDiff diff maxChars, chunk.text.length ≤ maxChars) ∧
      (diff ≠ [] → ∀ chunk ∈ chunkDiff diff maxChars, chunk.text ≠ []) ∧
      ∀ text : List Char,
        (splitText text maxChars).flatten = text ∧
          (text ≠ [] →
            1 ≤ cutAt maxChars text ∧ cutAt maxChars text ≤ text.length) := by
  obtain ⟨whole, chunks⟩ := chunkDiff_spec diff room
  refine ⟨whole, ?_, ?_, ?_⟩
  · intro chunk member
    exact (chunks chunk member).1
  · intro nonempty chunk member
    exact (chunks chunk member).2 nonempty
  · intro text
    refine ⟨splitText_flatten room text, ?_⟩
    intro nonempty
    exact ⟨cutAt_pos room nonempty, cutAt_le_length maxChars text⟩

/-- One character at a time. -/
theorem chunk_diff_lossless_single :
    (chunkDiff ['a', '\n', 'b'] 1).flatMap DiffChunk.text = ['a', '\n', 'b'] ∧
      ∀ chunk ∈ chunkDiff ['a', '\n', 'b'] 1, chunk.text.length ≤ 1 := by
  have lossless := chunk_diff_lossless ['a', '\n', 'b'] (Nat.le_refl 1)
  exact ⟨lossless.1, lossless.2.1⟩

end Chunking

end PeReview
