import Mathlib.Tactic.Common
import PeReview.Jobs.Models
import PeReview.Jobs.StateMachine

/-!
# The lifecycle of a job row

An abstract model of the job table that keeps of each row only what the review
and publication protocol depends on: the change it belongs to, its state, its
lease, whether it has a review result, and the status and payload of its
publication.  `RowAction` lists what one worker transaction can do to a row;
`Enqueued`, `Skipped`, `Requeued` and `Claimed` list what the transactions of
others can do.
-/

namespace PeReview

structure Row where
  project : String
  changeNumber : Int
  patchsetNumber : Int
  state : JobState
  retryState : Option JobState := none
  leaseOwner : Option WorkerId := none
  leaseExpiresAt : Option Time := none
  hasResult : Bool := false
  publication : Option (PublicationStatus × ReviewInput) := none
  deriving DecidableEq, Repr

namespace Row

/-- The row is leased by a worker whose lease has not expired. -/
def live (worker : WorkerId) (now : Time) (row : Row) : Bool :=
  row.leaseOwner = some worker &&
    match row.leaseExpiresAt with
    | none => false
    | some expires => now < expires

/-- Nobody holds an unexpired lease. -/
def idle (now : Time) (row : Row) : Bool :=
  match row.leaseExpiresAt with
  | none => true
  | some expires => expires ≤ now

/-- The state work continues in: a waiting row stands for its retry state. -/
def phase (row : Row) : JobState :=
  if row.state = .retryWait then row.retryState.getD .retryWait else row.state

def recovering (row : Row) : Bool :=
  row.state = .publishing ||
    (row.state = .retryWait && row.retryState = some .publishing)

/-- The lease columns set to `NULL`. -/
def release (row : Row) : Row :=
  { row with leaseOwner := none, leaseExpiresAt := none }

def sameChange (row other : Row) : Prop :=
  row.project = other.project ∧ row.changeNumber = other.changeNumber

/-- A row of the same change with a smaller patch-set number. -/
def olderThan (row other : Row) : Prop :=
  row.sameChange other ∧ row.patchsetNumber < other.patchsetNumber

theorem recovering_iff {row : Row} :
    row.recovering = true ↔
      row.state = .publishing ∨
        row.state = .retryWait ∧ row.retryState = some .publishing := by
  simp [recovering]

theorem live_iff {worker : WorkerId} {now : Time} {row : Row} :
    row.live worker now = true ↔
      row.leaseOwner = some worker ∧
        ∃ expires, row.leaseExpiresAt = some expires ∧ now < expires := by
  unfold live
  cases row.leaseExpiresAt <;> simp

/-- A live lease has one owner. -/
theorem eq_of_live {worker other : WorkerId} {now : Time} {row : Row}
    (left : row.live worker now) (right : row.live other now) :
    worker = other := by
  have owned := (live_iff.mp left).1
  have alsoOwned := (live_iff.mp right).1
  rw [owned] at alsoOwned
  exact Option.some.inj alsoOwned

theorem not_idle_of_live {worker : WorkerId} {now : Time} {row : Row}
    (live : row.live worker now) :
    row.idle now = false := by
  obtain ⟨_, expires, known, ahead⟩ := live_iff.mp live
  simp [idle, known, ahead]

/-- A lease that is live now was live before. -/
theorem live_of_le {worker : WorkerId} {earlier later : Time} {row : Row}
    (live : row.live worker later) (ordered : earlier ≤ later) :
    row.live worker earlier := by
  obtain ⟨owned, expires, known, ahead⟩ := live_iff.mp live
  exact live_iff.mpr ⟨owned, expires, known, Nat.lt_of_le_of_lt ordered ahead⟩

/-- What holds of every row the service writes. -/
structure Valid (row : Row) : Prop where
  /-- Terminal and waiting rows are not leased. -/
  unleased : row.state.isTerminal ∨ row.state = .retryWait →
    row.leaseOwner = none ∧ row.leaseExpiresAt = none
  /-- A waiting row knows where to resume. -/
  resumes : row.state = .retryWait →
    ∃ state, row.retryState = some state ∧ validRetryTarget state
  /-- No transaction writes `FAILED_TRANSIENT`. -/
  known : row.state ≠ .failedTransient
  /-- Publishing starts from a durable review result. -/
  reviewed : row.phase = .readyToPublish ∨ row.phase = .publishing ∨
    row.publication.isSome → row.hasResult
  /-- A publication belongs to a row in publication recovery or a closed one. -/
  published : row.publication.isSome → row.recovering ∨ row.state.isTerminal

theorem not_isTerminal_of_live {worker : WorkerId} {now : Time} {row : Row}
    (valid : row.Valid) (live : row.live worker now) :
    row.state.isTerminal = false ∧ row.state ≠ .retryWait := by
  have owned := (live_iff.mp live).1
  constructor
  · by_contra closed
    have terminal : row.state.isTerminal := by simpa using closed
    rw [(valid.unleased (.inl terminal)).1] at owned
    cases owned
  · intro waiting
    rw [(valid.unleased (.inr waiting)).1] at owned
    cases owned

end Row

/-- What one transaction of a worker can do to a row. -/
inductive RowAction
  /-- A heartbeat or a granted publish guard. -/
  | extend
  | move (target : JobState) (release : Bool)
  | park (resume : JobState)
  /-- `mark_failed_permanent` and `mark_superseded`. -/
  | close (target : JobState)
  | save
  | begin (payload : ReviewInput)
  | mark (status : PublicationStatus)
  /-- `complete_publication_and_mark_done`. -/
  | post (defer : Bool)
  /-- The end of a vote. -/
  | finish
  deriving DecidableEq, Repr

namespace RowAction

/-- What the transaction checks before it writes. -/
def guard (worker : WorkerId) (now : Time) : RowAction → Row → Prop
  | .extend, row => row.live worker now ∧ row.state.isTerminal = false
  | .move target _, row => row.live worker now ∧ mayMove row.state target
  | .park resume, row =>
      row.live worker now ∧ validRetryTarget resume ∧
        mayMove row.state .retryWait
  | .close target, row =>
      row.live worker now ∧ mayMove row.state target ∧ target.isTerminal ∧
        target ≠ .done
  | .save, row =>
      row.live worker now ∧ mayMove row.state .readyToPublish
  | .begin _, row =>
      row.live worker now ∧ row.state = .publishing ∧ row.publication = none
  | .mark _, row => row.publication.isSome
  | .post defer, row =>
      row.publication.isSome ∧
        (row.state = .publishing ∧
            (row.leaseOwner = none ∨ row.leaseOwner = some worker) ∧
            (defer → row.live worker now) ∨
          row.state = .superseded ∧ defer = false)
  | .finish, row =>
      row.live worker now ∧ row.state = .publishing ∧
        row.publication.map Prod.fst = some .posted

def withStatus (status : PublicationStatus) (row : Row) : Row :=
  { row with
    publication := row.publication.map fun entry : PublicationStatus × ReviewInput =>
      (status, entry.2) }

def apply (now lease : Time) : RowAction → Row → Row
  | .extend, row => { row with leaseExpiresAt := some (now + lease) }
  | .move target release, row =>
      let row := { row with state := target, retryState := none }
      if release || target.isTerminal then row.release else row
  | .park resume, row =>
      { row.release with state := .retryWait, retryState := some resume }
  | .close target, row =>
      { row.release with state := target, retryState := none }
  | .save, row =>
      { row.release with
        state := .readyToPublish, retryState := none, hasResult := true }
  | .begin payload, row =>
      { row with publication := some (.pending, payload) }
  | .mark status, row => withStatus status row
  | .post defer, row =>
      let row := { withStatus .posted row with retryState := none }
      if defer then { row with state := .publishing }
      else { row.release with state := .done }
  | .finish, row =>
      { row.release with state := .done, retryState := none }

@[simp]
theorem withStatus_isSome (status : PublicationStatus) (row : Row) :
    (withStatus status row).publication.isSome = row.publication.isSome := by
  simp [withStatus]

/-- The order in which `ReviewWorker` moves a job. -/
def Orderly : RowAction → Row → Prop
  | .move target release, row =>
      release = false ∧
        (row.state = .received ∧ target = .fetching ∨
          row.state = .fetching ∧ target = .reviewing ∨
          row.state = .reviewing ∧ target = .validating ∨
          row.state = .readyToPublish ∧ target = .publishing)
  | .park resume, row => resume = row.state
  | .save, row => row.state = .validating
  | _, _ => True

instance (action : RowAction) (row : Row) : Decidable (action.Orderly row) := by
  cases action <;> unfold Orderly <;> infer_instance

end RowAction

namespace Row

/-- An orderly action of a worker keeps a row valid. -/
theorem Valid.apply {row : Row} {worker : WorkerId} {now lease : Time}
    {action : RowAction} (valid : row.Valid)
    (guarded : action.guard worker now row) (orderly : action.Orderly row) :
    (action.apply now lease row).Valid := by
  cases action with
  | extend =>
      obtain ⟨live, _⟩ := guarded
      obtain ⟨opened, running⟩ := not_isTerminal_of_live valid live
      exact
        { unleased := by simp [RowAction.apply, opened, running]
          resumes := valid.resumes
          known := valid.known
          reviewed := valid.reviewed
          published := valid.published }
  | move target release =>
      obtain ⟨live, _⟩ := guarded
      obtain ⟨rfl, moved⟩ := orderly
      have unpublished : row.state ≠ .publishing → row.publication = none := by
        intro elsewhere
        by_contra present
        have running := not_isTerminal_of_live valid live
        have recovers :=
          valid.published (Option.isSome_iff_ne_none.mpr present)
        simp [recovering, elsewhere, running] at recovers
      rcases moved with ⟨source, rfl⟩ | ⟨source, rfl⟩ | ⟨source, rfl⟩ |
        ⟨source, rfl⟩
      · have absent := unpublished (by simp [source])
        constructor <;> simp [RowAction.apply, JobState.isTerminal, phase, absent]
      · have absent := unpublished (by simp [source])
        constructor <;> simp [RowAction.apply, JobState.isTerminal, phase, absent]
      · have absent := unpublished (by simp [source])
        constructor <;> simp [RowAction.apply, JobState.isTerminal, phase, absent]
      · have absent := unpublished (by simp [source])
        have result : row.hasResult :=
          valid.reviewed (.inl (by simp [phase, source]))
        constructor <;>
          simp [RowAction.apply, JobState.isTerminal, phase, absent, result]
  | park resume =>
      obtain ⟨live, resumable, _⟩ := guarded
      obtain rfl : resume = row.state := orderly
      obtain ⟨opened, running⟩ := not_isTerminal_of_live valid live
      have phaseKept : row.phase = row.state := by simp [phase, running]
      have published := valid.published
      have reviewed := valid.reviewed
      rw [phaseKept] at reviewed
      simp only [recovering, running, opened] at published
      constructor
      · simp [RowAction.apply, Row.release]
      · intro _
        exact ⟨row.state, rfl, resumable⟩
      · simp [RowAction.apply]
      · simpa [RowAction.apply, Row.release, phase] using reviewed
      · intro present
        left
        simpa [RowAction.apply, Row.release, recovering] using published present
  | close target =>
      obtain ⟨live, _, terminal, _⟩ := guarded
      have reviewed := valid.reviewed
      constructor
      · simp [RowAction.apply, Row.release]
      · rintro rfl
        simp [JobState.isTerminal] at terminal
      · rintro rfl
        simp [JobState.isTerminal] at terminal
      · rintro (ready | publishing | present)
        · cases target <;>
            simp_all [RowAction.apply, Row.release, phase, JobState.isTerminal]
        · cases target <;>
            simp_all [RowAction.apply, Row.release, phase, JobState.isTerminal]
        · exact reviewed (.inr (.inr present))
      · intro _
        exact .inr terminal
  | save =>
      obtain ⟨live, _⟩ := guarded
      have validating : row.state = .validating := orderly
      have absent : row.publication = none := by
        by_contra present
        have recovers :=
          valid.published (Option.isSome_iff_ne_none.mpr present)
        simp [recovering, validating, JobState.isTerminal] at recovers
      constructor <;>
        simp [RowAction.apply, Row.release, JobState.isTerminal, phase, absent]
  | begin payload =>
      obtain ⟨live, publishing, absent⟩ := guarded
      have result : row.hasResult :=
        valid.reviewed (.inr (.inl (by simp [phase, publishing])))
      constructor <;>
        simp [RowAction.apply, publishing, JobState.isTerminal, recovering, result]
  | mark status =>
      exact
        { unleased := valid.unleased
          resumes := valid.resumes
          known := valid.known
          reviewed := by
            intro reached
            have reachedBefore :
                row.phase = .readyToPublish ∨ row.phase = .publishing ∨
                  (RowAction.withStatus status row).publication.isSome :=
              reached
            rw [RowAction.withStatus_isSome] at reachedBefore
            exact valid.reviewed reachedBefore
          published := by
            intro present
            have presentBefore :
                (RowAction.withStatus status row).publication.isSome :=
              present
            rw [RowAction.withStatus_isSome] at presentBefore
            exact valid.published presentBefore }
  | post defer =>
      obtain ⟨present, observed⟩ := guarded
      have result : row.hasResult := valid.reviewed (.inr (.inr present))
      cases defer with
      | false =>
          constructor <;>
            simp [RowAction.apply, RowAction.withStatus, Row.release,
              JobState.isTerminal, phase, recovering, result]
      | true =>
          rcases observed with ⟨publishing, _, _⟩ | ⟨_, impossible⟩
          · constructor <;>
              simp [RowAction.apply, RowAction.withStatus, JobState.isTerminal,
                phase, recovering, result]
          · cases impossible
  | finish =>
      obtain ⟨live, publishing, _⟩ := guarded
      have result : row.hasResult :=
        valid.reviewed (.inr (.inl (by simp [phase, publishing])))
      constructor <;>
        simp [RowAction.apply, Row.release, JobState.isTerminal, phase, result]

end Row

end PeReview
