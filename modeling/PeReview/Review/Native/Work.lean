import PeReview.Review.Chunking
import PeReview.Review.Scheduling.Termination

/-!
# The work items of a review

How the engine of `review/native.py` cuts a diff and a list of candidates into work
items, and how it divides an item that the model cannot take in one piece.
-/

namespace PeReview.Native

open PeReview.Data PeReview.Scheduling

/-- The text that identifies the place of a work item. -/
inductive WorkIdentity
  /-- `initial:{index}`. -/
  | initial (index : Nat)
  /-- `verification:{index}`. -/
  | verification (index : Nat)
  /-- `{parent.key}:split:{index}`. -/
  | split (parent : String) (index : Nat)
  deriving DecidableEq, Repr

/-- What the key of a work item is hashed from. -/
inductive WorkContent
  /-- The bytes of `_chunk_key`. -/
  | chunk (identity : WorkIdentity) (paths : List String) (text : List Char)
  /-- The bytes of `_verification_item`. -/
  | batch (identity : WorkIdentity) (findings : List Finding)
  deriving DecidableEq, Repr

def WorkContent.identity : WorkContent → WorkIdentity
  | .chunk identity _ _ => identity
  | .batch identity _ => identity

/-- `hashlib.sha256(content).hexdigest()`. -/
abbrev WorkHash : Type :=
  WorkContent → String

/-- No two items at different places get one key, nor do a chunk and a batch. -/
structure CollisionFree (hash : WorkHash) : Prop where
  identity : ∀ first second : WorkContent, hash first = hash second →
    first.identity = second.identity
  kind : ∀ first paths text second findings,
    hash (.chunk first paths text) ≠ hash (.batch second findings)

/-- `WorkItem(key=_chunk_key(identity, chunk), ...)`. -/
def chunkItem (hash : WorkHash) (identity : WorkIdentity) (parent : Option String)
    (chunk : DiffChunk) : WorkItem DiffChunk :=
  { key := hash (.chunk identity chunk.paths chunk.text)
    payload := chunk
    paths := chunk.paths
    parentKey := parent }

/-- `_verification_item`. -/
def verificationItem (hash : WorkHash) (findings : List Finding)
    (identity : WorkIdentity) (parent : Option String := none) :
    WorkItem (List Finding) :=
  { key := hash (.batch identity findings)
    payload := findings
    paths := (findings.map fun finding => finding.location.path).eraseDups
    parentKey := parent }

def candidateWork (hash : WorkHash) (chunks : List DiffChunk) :
    List (WorkItem DiffChunk) :=
  chunks.mapIdx fun index chunk => chunkItem hash (.initial (index + 1)) none chunk

/-- `_split_context_limited_chunk`. -/
def splitContextLimitedChunk (chunk : DiffChunk) :
    Except PyError (List DiffChunk) :=
  if chunk.text.length ≤ 4000 then
    .error <| .permanent <|
      "LLM context limit was exceeded by a <=4k-character diff chunk; " ++
      "reduce repository policy/context or increase model context capacity"
  else
    -- `int(length * 0.60)` is exact for the lengths a string can have.
    let target := max 4000 (3 * chunk.text.length / 5)
    let pieces := Chunking.chunkDiff chunk.text target
    if pieces.length < 2 then
      .error (.permanent "unable to reduce an LLM context-limited diff chunk")
    else
      .ok <| pieces.map fun piece =>
        { piece with
          paths := if piece.paths = [] then chunk.paths else piece.paths }

/-- `_split_candidate_work`. -/
def splitCandidateWork (hash : WorkHash) (parent : WorkItem DiffChunk) :
    Except PyError (List (WorkItem DiffChunk)) := do
  let pieces ← splitContextLimitedChunk parent.payload
  .ok <| pieces.mapIdx fun index piece =>
    chunkItem hash (.split parent.key (index + 1)) (some parent.key) piece

/-- The loop of `_verification_work`, with the batch that is being filled and its
size. -/
def fillBatches (jsonLength : Finding → Nat) :
    List Finding → List Finding → Nat → List (List Finding)
  | [], current, _ => if current = [] then [] else [current]
  | finding :: rest, current, size =>
      let length := jsonLength finding
      if current ≠ [] ∧ (8 ≤ current.length ∨ 32000 < size + length) then
        current :: fillBatches jsonLength rest [finding] length
      else fillBatches jsonLength rest (current ++ [finding]) (size + length)

/-- `_verification_work`; `jsonLength` is `len(finding.model_dump_json())`. -/
def verificationWork (hash : WorkHash) (jsonLength : Finding → Nat)
    (findings : List Finding) : List (WorkItem (List Finding)) :=
  (fillBatches jsonLength findings [] 0).mapIdx fun index batch =>
    verificationItem hash batch (.verification index)

/-- `_split_verification_work`. -/
def splitVerificationWork (hash : WorkHash) (parent : WorkItem (List Finding)) :
    Except PyError (List (WorkItem (List Finding))) :=
  if parent.payload.length ≤ 1 then
    .error <| .permanent
      "LLM context limit was exceeded while verifying a single finding"
  else
    let midpoint := parent.payload.length / 2
    .ok <| [parent.payload.take midpoint, parent.payload.drop midpoint].mapIdx
      fun index batch =>
        verificationItem hash batch (.split parent.key index) (some parent.key)

/-! ## Division -/

theorem flatMap_mapIdx_payload {Value Payload Content : Type}
    (values : List Value) (item : Nat → Value → WorkItem Payload)
    (content : Payload → List Content) (content_ : Value → List Content)
    (same : ∀ index value, content (item index value).payload = content_ value) :
    ((values.mapIdx item).flatMap fun entry => content entry.payload) =
      values.flatMap content_ := by
  induction values generalizing item with
  | nil =>
      rfl
  | cons value rest inductionHypothesis =>
      rw [List.mapIdx_cons, List.flatMap_cons, List.flatMap_cons, same,
        inductionHypothesis _ fun index => same (index + 1)]

theorem splitContextLimitedChunk_spec {chunk : DiffChunk} {pieces : List DiffChunk}
    (splits : splitContextLimitedChunk chunk = .ok pieces) :
    2 ≤ pieces.length ∧ pieces.flatMap DiffChunk.text = chunk.text ∧
      ∀ piece ∈ pieces, piece.text ≠ [] := by
  unfold splitContextLimitedChunk at splits
  split at splits
  · cases splits
  · rename_i long
    dsimp only at splits
    split at splits
    · cases splits
    · rename_i several
      have room : 1 ≤ max 4000 (3 * chunk.text.length / 5) := by
        omega
      have nonempty : chunk.text ≠ [] := by
        intro empty
        rw [empty] at long
        exact long (Nat.zero_le _)
      obtain ⟨whole, parts⟩ := Chunking.chunkDiff_spec chunk.text room
      cases splits
      refine ⟨?_, ?_, ?_⟩
      · rw [List.length_map]
        omega
      · rw [List.flatMap_map]
        exact whole
      · intro piece member
        obtain ⟨original, isPiece, rfl⟩ := List.mem_map.mp member
        exact (parts original isPiece).2 nonempty

theorem divides_splitCandidateWork (hash : WorkHash) :
    Divides DiffChunk.text (splitCandidateWork hash) := by
  have pieces_of : ∀ item children,
      splitCandidateWork hash item = .ok children →
      ∃ pieces, splitContextLimitedChunk item.payload = .ok pieces ∧
        children = pieces.mapIdx fun index piece =>
          chunkItem hash (.split item.key (index + 1)) (some item.key) piece := by
    intro item children splits
    unfold splitCandidateWork at splits
    cases pieces : splitContextLimitedChunk item.payload with
    | error error =>
        rw [pieces] at splits
        cases splits
    | ok found =>
        rw [pieces] at splits
        cases splits
        exact ⟨found, rfl, rfl⟩
  refine ⟨?_, ?_, ?_⟩
  · intro item children splits
    obtain ⟨pieces, found, rfl⟩ := pieces_of item children splits
    rw [List.length_mapIdx]
    exact (splitContextLimitedChunk_spec found).1
  · intro item children splits
    obtain ⟨pieces, found, rfl⟩ := pieces_of item children splits
    rw [flatMap_mapIdx_payload pieces _ DiffChunk.text DiffChunk.text fun _ _ => rfl]
    exact (splitContextLimitedChunk_spec found).2.1
  · intro item children splits child member
    obtain ⟨pieces, found, rfl⟩ := pieces_of item children splits
    obtain ⟨index, inside, rfl⟩ := List.mem_mapIdx.mp member
    exact (splitContextLimitedChunk_spec found).2.2 _ (List.getElem_mem inside)

theorem divides_splitVerificationWork (hash : WorkHash) :
    Divides (fun findings : List Finding => findings)
      (splitVerificationWork hash) := by
  have halves_of : ∀ item children,
      splitVerificationWork hash item = .ok children →
      2 ≤ item.payload.length ∧
        children.map WorkItem.payload =
          [item.payload.take (item.payload.length / 2),
            item.payload.drop (item.payload.length / 2)] := by
    intro item children splits
    unfold splitVerificationWork at splits
    split at splits
    · cases splits
    · rename_i several
      cases splits
      exact ⟨by omega, rfl⟩
  refine ⟨?_, ?_, ?_⟩
  · intro item children splits
    have length := congrArg List.length (halves_of item children splits).2
    rw [List.length_map] at length
    exact Nat.le_of_eq length.symm
  · intro item children splits
    change children.flatMap WorkItem.payload = item.payload
    rw [List.flatMap_def, (halves_of item children splits).2]
    simp
  · intro item children splits child member empty
    obtain ⟨several, halves⟩ := halves_of item children splits
    have payload := List.mem_map_of_mem (f := WorkItem.payload) member
    rw [halves, empty] at payload
    simp only [List.mem_cons, List.not_mem_nil, or_false] at payload
    rcases payload with first | second
    · have length := congrArg List.length first
      rw [List.length_nil, List.length_take] at length
      omega
    · have length := congrArg List.length second
      rw [List.length_nil, List.length_drop] at length
      omega

/-! ## The work lists cover the diff and the candidates -/

theorem candidateWork_text (hash : WorkHash) (chunks : List DiffChunk) :
    ((candidateWork hash chunks).flatMap fun item => item.payload.text) =
      chunks.flatMap DiffChunk.text :=
  flatMap_mapIdx_payload chunks _ DiffChunk.text DiffChunk.text fun _ _ => rfl

theorem fillBatches_flatten (jsonLength : Finding → Nat)
    (findings current : List Finding) (size : Nat) :
    (fillBatches jsonLength findings current size).flatten =
      current ++ findings := by
  induction findings generalizing current size with
  | nil =>
      unfold fillBatches
      split
      · rename_i empty
        simp [empty]
      · simp
  | cons finding rest inductionHypothesis =>
      unfold fillBatches
      dsimp only
      split
      · rw [List.flatten_cons, inductionHypothesis]
        rfl
      · rw [inductionHypothesis, List.append_assoc]
        rfl

theorem verificationWork_findings (hash : WorkHash) (jsonLength : Finding → Nat)
    (findings : List Finding) :
    ((verificationWork hash jsonLength findings).flatMap fun item => item.payload) =
      findings := by
  have grouped :=
    flatMap_mapIdx_payload (fillBatches jsonLength findings [] 0)
      (fun index batch => verificationItem hash batch (.verification index))
      (fun findings => findings) (fun findings => findings) fun _ _ => rfl
  rw [List.flatMap_id'] at grouped
  exact grouped.trans (fillBatches_flatten jsonLength findings [] 0)

/-! ## The keys tell the places of the forests apart -/

/-- A forest whose keys are hashed from the places of its items. -/
structure KeyedBy {Payload : Type} (hash : WorkHash) (forest : Forest (WorkItem Payload) String)
    (root : Nat → WorkIdentity) (part : Nat → Nat) : Prop where
  key : ∀ item, forest.key item = item.key
  roots : ∀ position item, forest.roots[position]? = some item →
    ∃ content, item.key = hash content ∧ content.identity = root position
  parts : ∀ parent items position item, forest.parts parent = some items →
    items[position]? = some item →
    ∃ content, item.key = hash content ∧
      content.identity = .split parent.key (part position)
  rootInjective : Function.Injective root
  rootWhole : ∀ position parent index, root position ≠ .split parent index
  partInjective : Function.Injective part

theorem KeyedBy.distinct {Payload : Type} {hash : WorkHash}
    {forest : Forest (WorkItem Payload) String} {root : Nat → WorkIdentity}
    {part : Nat → Nat} (free : CollisionFree hash)
    (keyed : KeyedBy hash forest root part) : forest.Distinct := by
  have identities : ∀ {left right : WorkItem Payload} {first second : WorkContent},
      forest.key left = forest.key right → left.key = hash first →
      right.key = hash second → first.identity = second.identity := by
    intro left right first second same leftKey rightKey
    rw [keyed.key, keyed.key, leftKey, rightKey] at same
    exact free.identity first second same
  intro first second left right atFirst atSecond same
  induction atFirst generalizing second right with
  | root found =>
      obtain ⟨content, key, identity⟩ := keyed.roots _ _ found
      cases atSecond with
      | root other =>
          obtain ⟨otherContent, otherKey, otherIdentity⟩ := keyed.roots _ _ other
          have places := identities same key otherKey
          rw [identity, otherIdentity] at places
          rw [keyed.rootInjective places]
      | part above divides other =>
          obtain ⟨otherContent, otherKey, otherIdentity⟩ :=
            keyed.parts _ _ _ _ divides other
          have places := identities same key otherKey
          rw [identity, otherIdentity] at places
          exact absurd places (keyed.rootWhole _ _ _)
  | part above divides found inductionHypothesis =>
      obtain ⟨content, key, identity⟩ := keyed.parts _ _ _ _ divides found
      cases atSecond with
      | root other =>
          obtain ⟨otherContent, otherKey, otherIdentity⟩ := keyed.roots _ _ other
          have places := identities same key otherKey
          rw [identity, otherIdentity] at places
          exact absurd places.symm (keyed.rootWhole _ _ _)
      | part otherAbove otherDivides other =>
          obtain ⟨otherContent, otherKey, otherIdentity⟩ :=
            keyed.parts _ _ _ _ otherDivides other
          have places := identities same key otherKey
          rw [identity, otherIdentity] at places
          injection places with parents positions
          rw [← keyed.key, ← keyed.key] at parents
          rw [inductionHypothesis otherAbove parents,
            keyed.partInjective positions]

variable {hash : WorkHash}

theorem chunk_of_split {parent : WorkItem DiffChunk}
    {children : List (WorkItem DiffChunk)} {position : Nat}
    {item : WorkItem DiffChunk}
    (splits : splitCandidateWork hash parent = .ok children)
    (found : children[position]? = some item) :
    item.key =
      hash
        (.chunk (.split parent.key (position + 1)) item.payload.paths
          item.payload.text) := by
  unfold splitCandidateWork at splits
  cases pieces : splitContextLimitedChunk parent.payload with
  | error error =>
      rw [pieces] at splits
      cases splits
  | ok parts =>
      rw [pieces] at splits
      cases splits
      rw [List.getElem?_mapIdx, Option.map_eq_some_iff] at found
      obtain ⟨piece, _, rfl⟩ := found
      rfl

theorem batch_of_split {parent : WorkItem (List Finding)}
    {children : List (WorkItem (List Finding))} {position : Nat}
    {item : WorkItem (List Finding)}
    (splits : splitVerificationWork hash parent = .ok children)
    (found : children[position]? = some item) :
    item.key =
      hash (.batch (.split parent.key position) item.payload) := by
  unfold splitVerificationWork at splits
  split at splits
  · cases splits
  · cases splits
    rw [List.getElem?_mapIdx, Option.map_eq_some_iff] at found
    obtain ⟨batch, _, rfl⟩ := found
    rfl

theorem parts_eq_some {Payload : Type} {run : PhaseRun Payload}
    {work : List (WorkItem Payload)} {parent : WorkItem Payload}
    {items : List (WorkItem Payload)}
    (divides : (workForest run work).parts parent = some items) :
    run.split parent = .ok items := by
  simp only [workForest] at divides
  cases splits : run.split parent with
  | error error =>
      rw [splits] at divides
      cases divides
  | ok children =>
      rw [splits] at divides
      cases divides
      rfl

theorem distinct_candidateWork (free : CollisionFree hash)
    {run : PhaseRun DiffChunk} (split : run.split = splitCandidateWork hash)
    (chunks : List DiffChunk) :
    (workForest run (candidateWork hash chunks)).Distinct := by
  refine
    @KeyedBy.distinct _ _ _ (fun position => .initial (position + 1))
      (fun position => position + 1) free ?_
  refine
    { key := fun item => rfl
      roots := ?_
      parts := ?_
      rootInjective := ?_
      rootWhole := fun _ _ _ same => by cases same
      partInjective := fun _ _ same => Nat.succ.inj same }
  · intro position item found
    simp only [workForest, candidateWork, List.getElem?_mapIdx,
      Option.map_eq_some_iff] at found
    obtain ⟨chunk, _, rfl⟩ := found
    exact ⟨_, rfl, rfl⟩
  · intro parent items position item divides found
    have splits := parts_eq_some divides
    rw [split] at splits
    exact ⟨_, chunk_of_split splits found, rfl⟩
  · intro first second same
    injection same with positions
    exact Nat.succ.inj positions

theorem distinct_verificationWork (free : CollisionFree hash)
    {run : PhaseRun (List Finding)} (split : run.split = splitVerificationWork hash)
    (jsonLength : Finding → Nat) (findings : List Finding) :
    (workForest run (verificationWork hash jsonLength findings)).Distinct := by
  refine
    @KeyedBy.distinct _ _ _ (fun position => .verification position)
      (fun position => position) free ?_
  refine
    { key := fun item => rfl
      roots := ?_
      parts := ?_
      rootInjective := ?_
      rootWhole := fun _ _ _ same => by cases same
      partInjective := Function.injective_id }
  · intro position item found
    simp only [workForest, verificationWork, List.getElem?_mapIdx,
      Option.map_eq_some_iff] at found
    obtain ⟨batch, _, rfl⟩ := found
    exact ⟨_, rfl, rfl⟩
  · intro parent items position item divides found
    have splits := parts_eq_some divides
    rw [split] at splits
    exact ⟨_, batch_of_split splits found, rfl⟩
  · intro first second same
    injection same

/-- The key of an item of the candidate phase is that of a chunk. -/
theorem chunk_of_node {run : PhaseRun DiffChunk}
    (split : run.split = splitCandidateWork hash) {chunks : List DiffChunk}
    {path : List Nat} {item : WorkItem DiffChunk}
    (node : (workForest run (candidateWork hash chunks)).Node path item) :
    ∃ identity paths text, item.key = hash (.chunk identity paths text) := by
  cases node with
  | root found =>
      simp only [workForest, candidateWork, List.getElem?_mapIdx,
        Option.map_eq_some_iff] at found
      obtain ⟨chunk, _, rfl⟩ := found
      exact ⟨_, _, _, rfl⟩
  | part above divides found =>
      have splits := parts_eq_some divides
      rw [split] at splits
      exact ⟨_, _, _, chunk_of_split splits found⟩

/-- The key of an item of the verification phase is that of a batch. -/
theorem batch_of_node {run : PhaseRun (List Finding)}
    (split : run.split = splitVerificationWork hash) {jsonLength : Finding → Nat}
    {findings : List Finding} {path : List Nat} {item : WorkItem (List Finding)}
    (node :
      (workForest run (verificationWork hash jsonLength findings)).Node path item) :
    ∃ identity batch, item.key = hash (.batch identity batch) := by
  cases node with
  | root found =>
      simp only [workForest, verificationWork, List.getElem?_mapIdx,
        Option.map_eq_some_iff] at found
      obtain ⟨batch, _, rfl⟩ := found
      exact ⟨_, _, rfl⟩
  | part above divides found =>
      have splits := parts_eq_some divides
      rw [split] at splits
      exact ⟨_, _, batch_of_split splits found⟩

end PeReview.Native
