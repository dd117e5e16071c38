import Mathlib.Data.Finset.Defs
import Mathlib.Data.List.Sort
import Mathlib.Data.Prod.Lex
import Mathlib.Data.String.Basic
import PeReview.Data.Sql
import PeReview.Jobs.Models

/-!
# The attention list of the dashboard

`admin/operations.py` selects the jobs that need attention in SQL and classifies the
selected rows in Python.  Instants and durations are in microseconds; an instant may
lie before the epoch.
-/

namespace PeReview

open PeReview.Data

/-- A row of `review_jobs`, with the columns `_job_summary` and the classifier read. -/
structure JobRow where
  id : JobId
  project : String
  changeNumber : Int
  patchsetNumber : Int
  revisionSha : String
  reviewPolicyVersion : String
  state : JobState
  retryState : Option JobState := none
  attemptCount : Nat := 0
  nextAttemptAt : Int
  leaseOwner : Option String := none
  leaseExpiresAt : Option Int := none
  claimedAt : Option Int := none
  lastErrorClass : Option String := none
  lastError : Option String := none
  createdAt : Int
  updatedAt : Int
  deriving DecidableEq, Repr

/-- A row of `review_publications`, as far as the dashboard reads it. -/
structure PublicationRow where
  jobId : JobId
  status : PublicationStatus
  updatedAt : Int
  deriving DecidableEq, Repr

/-- `_job_summary`. -/
structure JobSummary where
  id : String
  project : String
  changeNumber : Int
  patchsetNumber : Int
  revisionSha : String
  policyVersion : String
  state : String
  retryState : Option String
  attemptCount : Nat
  nextAttemptAt : Int
  leaseOwner : Option String
  leaseExpiresAt : Option Int
  claimedAt : Option Int
  lastErrorClass : Option String
  lastError : Option String
  createdAt : Int
  updatedAt : Int
  deriving DecidableEq, Repr

def jobSummary (job : JobRow) : JobSummary :=
  { id := toString job.id
    project := job.project
    changeNumber := job.changeNumber
    patchsetNumber := job.patchsetNumber
    revisionSha := job.revisionSha
    policyVersion := job.reviewPolicyVersion
    state := job.state.value
    retryState := job.retryState.map JobState.value
    attemptCount := job.attemptCount
    nextAttemptAt := job.nextAttemptAt
    leaseOwner := job.leaseOwner
    leaseExpiresAt := job.leaseExpiresAt
    claimedAt := job.claimedAt
    lastErrorClass := job.lastErrorClass
    lastError := job.lastError
    createdAt := job.createdAt
    updatedAt := job.updatedAt }

structure ServiceItem where
  severity : String
  kind : String
  title : String
  detail : String
  href : String
  action : String
  deriving DecidableEq, Repr

/-- An entry of the attention list; one about a job carries its summary and age. -/
structure AttentionItem extends ServiceItem where
  job : Option (JobSummary × String) := none
  deriving DecidableEq, Repr

def AttentionItem.isJob (item : AttentionItem) : Bool :=
  item.job.isSome

def minute : Int := 60 * 1000000

def retryOverdueGrace : Int := 2 * minute
def leaseExpiredGrace : Int := 1 * minute
def unclaimedActiveGrace : Int := 5 * minute
def receivedQueueGrace : Int := 15 * minute

/-- `_format_duration`. -/
def formatDuration (delta : Int) : String :=
  let seconds := (delta / 1000000).toNat
  if seconds < 60 then toString seconds ++ "s"
  else
    let minutes := seconds / 60
    if minutes < 60 then toString minutes ++ "m"
    else
      let hours := minutes / 60
      let minutes := minutes % 60
      if hours < 24 then toString hours ++ "h " ++ toString minutes ++ "m"
      else toString (hours / 24) ++ "d " ++ toString (hours % 24) ++ "h"

/-- The states a worker holds a job in under a lease. -/
def leaseRequired : List JobState :=
  [.fetching, .reviewing, .validating, .publishing]

/-- `_job_attention_condition`, evaluated on a row of the outer join. -/
def jobAttentionCondition (now : Int) (serviceEnabled : Bool)
    (enabledProjects : List String) (job : JobRow)
    (publication : Option PublicationRow) : Sql.Truth :=
  let permanentFailure := Sql.eq (some job.state) .failedPermanent
  let ambiguousPublication :=
    Sql.and (Sql.eq (publication.map PublicationRow.status) .ambiguous)
      (Sql.le (publication.map PublicationRow.updatedAt) (now - 10 * minute))
  if !serviceEnabled || enabledProjects.isEmpty then
    Sql.or permanentFailure ambiguousPublication
  else
    let expectedWork :=
      Sql.and (Sql.isIn (some job.project) enabledProjects)
        (Sql.or
          (Sql.and (Sql.eq (some job.state) .retryWait)
            (Sql.le (some job.nextAttemptAt) (now - retryOverdueGrace)))
          (Sql.or
            (Sql.and (Sql.eq (some job.state) .received)
              (Sql.le (some job.updatedAt) (now - receivedQueueGrace)))
            (Sql.or
              (Sql.and (Sql.eq (some job.state) .readyToPublish)
                (Sql.le (some job.updatedAt) (now - unclaimedActiveGrace)))
              (Sql.and (Sql.isIn (some job.state) leaseRequired)
                (Sql.or
                  (Sql.le job.leaseExpiresAt (now - leaseExpiredGrace))
                  (Sql.le (some job.updatedAt) (now - unclaimedActiveGrace)))))))
    Sql.or permanentFailure (Sql.or ambiguousPublication expectedWork)

/-- Python's `value or fallback`, of a text. -/
def textOr (value : Option String) (fallback : String) : String :=
  match value with
  | none | some "" => fallback
  | some text => text

def jobItem (job : JobRow) (now : Int) (severity kind title detail : String) :
    AttentionItem :=
  { severity, kind, title, detail
    href := "/jobs/" ++ toString job.id
    action := "Open audit"
    job := some (jobSummary job, formatDuration (now - job.updatedAt)) }

/-- `_job_attention`, from the publication on. -/
def expectedAttention (job : JobRow) (now : Int) : Option AttentionItem :=
  let number := toString job.changeNumber
  let age := now - job.updatedAt
  match job.state with
  | .retryWait =>
      let overdue := now - job.nextAttemptAt
      if retryOverdueGrace ≤ overdue then
        some <| jobItem job now "warning" "overdue-retry"
          ("Retry is overdue for " ++ job.project ++ " #" ++ number)
          ("The " ++ textOr (job.retryState.map JobState.value) "unknown" ++
            " retry was due " ++ formatDuration overdue ++ " ago.")
      else none
  | .received =>
      if receivedQueueGrace ≤ age then
        some <| jobItem job now "warning" "aged-queue"
          ("Job #" ++ number ++ " has not been claimed")
          ("It has remained in RECEIVED for " ++ formatDuration age ++ ".")
      else none
  | .readyToPublish =>
      if unclaimedActiveGrace ≤ age then
        some <| jobItem job now "warning" "publish-queue"
          ("Reviewed job #" ++ number ++ " is waiting to publish")
          ("READY_TO_PUBLISH has not been claimed for " ++ formatDuration age ++ ".")
      else none
  | .fetching | .reviewing | .validating | .publishing =>
      let state := job.state.value
      match job.leaseExpiresAt.filter fun expires =>
          decide (expires ≤ now - leaseExpiredGrace) with
      | some expires =>
          some <| jobItem job now "danger" "expired-lease"
            (state ++ " lease expired for #" ++ number)
            ("Worker lease expired " ++ formatDuration (now - expires) ++
              " ago and the job has not been reclaimed.")
      | none =>
          if (job.leaseOwner.isNone || job.leaseExpiresAt.isNone) &&
              decide (unclaimedActiveGrace ≤ age) then
            some <| jobItem job now "warning" "missing-lease"
              (state ++ " job #" ++ number ++ " has no live owner")
              ("The state has remained unowned for " ++ formatDuration age ++ ".")
          else if unclaimedActiveGrace ≤ age then
            some <| jobItem job now "warning" "stale-active"
              (state ++ " job #" ++ number ++ " stopped heartbeating")
              ("The job still has a lease but updated_at has not advanced for " ++
                formatDuration age ++ ".")
          else none
  | _ => none

/-- `_job_attention`. -/
def jobAttention (job : JobRow) (publicationStatus : Option PublicationStatus)
    (now : Int) (publicationUpdatedAt : Option Int := none)
    (workExpected : Bool := true) : Option AttentionItem :=
  let number := toString job.changeNumber
  if job.state = .failedPermanent then
    let error := textOr job.lastErrorClass "Permanent failure"
    let message := textOr job.lastError "No failure detail was recorded."
    let message := (message.replace "\n" " ").take 220
    some <| jobItem job now "danger" "failed-job"
      (job.project ++ " #" ++ number ++ " failed permanently")
      (error ++ ": " ++ message.toString)
  else
    let publicationAge := now - publicationUpdatedAt.getD job.updatedAt
    if publicationStatus = some .ambiguous ∧ 10 * minute ≤ publicationAge then
      some <| jobItem job now "danger" "ambiguous-publication"
        ("Gerrit publication is unresolved for #" ++ number)
        ("The external POST outcome has remained ambiguous for " ++
          formatDuration publicationAge ++ ".")
    else if !workExpected then none
    else expectedAttention job now

/-! ## The filter and the classifier -/

section Agreement

variable {job : JobRow} {now : Int}

def LeaseOverdue (job : JobRow) (now : Int) : Prop :=
  ∃ expires, job.leaseExpiresAt = some expires ∧ expires ≤ now - leaseExpiredGrace

theorem holds_le_lease (job : JobRow) (now : Int) :
    Sql.holds (Sql.le job.leaseExpiresAt (now - leaseExpiredGrace)) = true ↔
      LeaseOverdue job now := by
  unfold LeaseOverdue
  cases job.leaseExpiresAt with
  | none => simp
  | some expires => simp

/-- The instants at which a job in hand is late. -/
theorem heldAttention_isSome (held : job.state ∈ leaseRequired) :
    (expectedAttention job now).isSome = true ↔
      LeaseOverdue job now ∨ job.updatedAt ≤ now - unclaimedActiveGrace := by
  have late :
      unclaimedActiveGrace ≤ now - job.updatedAt ↔
        job.updatedAt ≤ now - unclaimedActiveGrace := by
    omega
  have classified :
      (expectedAttention job now).isSome = true ↔
        (job.leaseExpiresAt.filter fun expires =>
            decide (expires ≤ now - leaseExpiredGrace)).isSome = true ∨
          unclaimedActiveGrace ≤ now - job.updatedAt := by
    unfold expectedAttention
    generalize job.state = state at held
    cases state with
    | fetching | reviewing | validating | publishing =>
        dsimp only
        split
        · rename_i found
          simp [found]
        · rename_i notFound
          rw [notFound]
          by_cases aged : unclaimedActiveGrace ≤ now - job.updatedAt
          · cases job.leaseOwner.isNone || job.leaseExpiresAt.isNone <;>
              simp [aged]
          · simp [aged]
    | received | readyToPublish | retryWait | failedTransient | failedPermanent
    | superseded | skippedScope | done =>
        simp [leaseRequired] at held
  rw [classified, late]
  apply or_congr_left
  unfold LeaseOverdue
  cases job.leaseExpiresAt with
  | none => simp
  | some expires => simp [Option.filter]

/-- What the SQL condition asks of a job whose work is expected, and what the
classifier asks. -/
theorem expectedAttention_isSome :
    (expectedAttention job now).isSome = true ↔
      job.state = .retryWait ∧ job.nextAttemptAt ≤ now - retryOverdueGrace ∨
        job.state = .received ∧ job.updatedAt ≤ now - receivedQueueGrace ∨
          job.state = .readyToPublish ∧
              job.updatedAt ≤ now - unclaimedActiveGrace ∨
            job.state ∈ leaseRequired ∧
              (LeaseOverdue job now ∨
                job.updatedAt ≤ now - unclaimedActiveGrace) := by
  by_cases held : job.state ∈ leaseRequired
  · rw [heldAttention_isSome held]
    simp only [leaseRequired, List.mem_cons, List.not_mem_nil, or_false] at held
    rcases held with stands | stands | stands | stands <;>
      simp [stands, leaseRequired]
  · have unheld :
        ¬(job.state ∈ leaseRequired ∧
          (LeaseOverdue job now ∨ job.updatedAt ≤ now - unclaimedActiveGrace)) :=
      fun both => held both.1
    simp only [unheld, or_false]
    unfold expectedAttention
    generalize job.state = state at held
    cases state with
    | retryWait =>
        have due :
            retryOverdueGrace ≤ now - job.nextAttemptAt ↔
              job.nextAttemptAt ≤ now - retryOverdueGrace := by
          omega
        simp [due]
    | received =>
        have aged :
            receivedQueueGrace ≤ now - job.updatedAt ↔
              job.updatedAt ≤ now - receivedQueueGrace := by
          omega
        simp [aged]
    | readyToPublish =>
        have aged :
            unclaimedActiveGrace ≤ now - job.updatedAt ↔
              job.updatedAt ≤ now - unclaimedActiveGrace := by
          omega
        simp [aged]
    | failedTransient | failedPermanent | superseded | skippedScope | done =>
        simp
    | fetching | reviewing | validating | publishing =>
        simp [leaseRequired] at held

/-- The publication is unresolved for long enough, as the SQL condition has it. -/
theorem holds_ambiguous (job : JobRow) {publication : Option PublicationRow} :
    Sql.holds
        (Sql.and (Sql.eq (publication.map PublicationRow.status) .ambiguous)
          (Sql.le (publication.map PublicationRow.updatedAt)
            (now - 10 * minute))) = true ↔
      publication.map PublicationRow.status = some .ambiguous ∧
        10 * minute ≤
          now - (publication.map PublicationRow.updatedAt).getD job.updatedAt := by
  cases publication with
  | none =>
      simp
  | some row =>
      have aged :
          row.updatedAt ≤ now - 10 * minute ↔ 10 * minute ≤ now - row.updatedAt := by
        omega
      simp [aged]

theorem jobAttention_isSome {status : Option PublicationStatus}
    {updatedAt : Option Int} {expected : Bool} :
    (jobAttention job status now updatedAt expected).isSome = true ↔
      job.state = .failedPermanent ∨
        (status = some .ambiguous ∧
            10 * minute ≤ now - updatedAt.getD job.updatedAt) ∨
          expected = true ∧ (expectedAttention job now).isSome = true := by
  unfold jobAttention
  by_cases failed : job.state = .failedPermanent
  · simp [failed]
  · by_cases ambiguous :
      status = some .ambiguous ∧ 10 * minute ≤ now - updatedAt.getD job.updatedAt
    · simp [failed, ambiguous]
    · cases expected with
      | false => simp [failed, ambiguous]
      | true => simp [failed, ambiguous]

/-- A row is selected exactly when it would be shown. -/
theorem holds_jobAttentionCondition {serviceEnabled : Bool}
    {enabledProjects : List String} {publication : Option PublicationRow} :
    Sql.holds
        (jobAttentionCondition now serviceEnabled enabledProjects job publication) =
      (jobAttention job (publication.map PublicationRow.status) now
        (publication.map PublicationRow.updatedAt)
        (serviceEnabled && decide (job.project ∈ enabledProjects))).isSome := by
  rw [Bool.eq_iff_iff, jobAttention_isSome, expectedAttention_isSome,
    ← holds_ambiguous job]
  unfold jobAttentionCondition
  by_cases closed : (!serviceEnabled || enabledProjects.isEmpty) = true
  · have unexpected :
        (serviceEnabled && decide (job.project ∈ enabledProjects)) = false := by
      rcases Bool.or_eq_true_iff.mp closed with disabled | empty
      · have off : serviceEnabled = false := by simpa using disabled
        simp [off]
      · simp [List.isEmpty_iff.mp empty]
    simp only [closed, if_true, unexpected, Sql.holds_or, Sql.holds_eq,
      Bool.or_eq_true, decide_eq_true_eq, Option.some.injEq, Bool.false_eq_true,
      false_and, or_false]
  · have expected :
        (serviceEnabled && decide (job.project ∈ enabledProjects)) = true ↔
          job.project ∈ enabledProjects := by
      simp only [Bool.or_eq_true, Bool.not_eq_true', not_or] at closed
      have on : serviceEnabled = true := by simpa using closed.1
      simp [on]
    rw [expected]
    have lease := holds_le_lease job now
    simp [closed, lease]

end Agreement

/-! ## The dashboard -/

/-- The two tables the dashboard joins; `uq_review_publications_job` allows a job one
publication. -/
structure DashboardTables where
  jobs : List JobRow
  publications : List PublicationRow
  unique : (publications.map PublicationRow.jobId).Nodup

structure DashboardRequest where
  now : Int
  serviceEnabled : Bool
  enabledProjects : List String

def DashboardTables.publication (tables : DashboardTables) (job : JobRow) :
    Option PublicationRow :=
  tables.publications.find? fun publication => decide (publication.jobId = job.id)

def attentionRows (tables : DashboardTables) (request : DashboardRequest) :
    List (JobRow × Option PublicationRow) :=
  (Sql.leftJoin (fun job publication => decide (publication.jobId = job.id))
      tables.jobs tables.publications).filter fun row =>
    Sql.holds
      (jobAttentionCondition request.now request.serviceEnabled
        request.enabledProjects row.1 row.2)

def shownAttention (request : DashboardRequest)
    (row : JobRow × Option PublicationRow) : Option AttentionItem :=
  jobAttention row.1 (row.2.map PublicationRow.status) request.now
    (row.2.map PublicationRow.updatedAt)
    (request.serviceEnabled && decide (row.1.project ∈ request.enabledProjects))

/-- The warning that nothing can be admitted. -/
def noProjectsItem : AttentionItem :=
  { severity := "warning"
    kind := "projects"
    title := "Review service is enabled with no enabled projects"
    detail := "No Gerrit Patch Set can be admitted until a project is enabled."
    href := "/projects"
    action := "Open projects" }

/-- `_attention_sort_key`. -/
def attentionSortKey (item : AttentionItem) : ℕ ×ₗ String ×ₗ String :=
  let severity :=
    if item.severity = "danger" then 0 else if item.severity = "warning" then 1 else 2
  toLex (severity, toLex (item.kind, item.title))

structure DashboardAttention where
  attention : List AttentionItem
  attentionCount : Nat
  attentionTruncated : Bool
  deriving DecidableEq, Repr

def ServiceItem.item (item : ServiceItem) : AttentionItem :=
  { toServiceItem := item }

/-- The attention part of `dashboard_snapshot`, after the items about the service. -/
def dashboardAttention (tables : DashboardTables) (request : DashboardRequest)
    (service : List ServiceItem) : DashboardAttention :=
  let jobAttentionCount := (attentionRows tables request).length
  let rows :=
    ((attentionRows tables request).insertionSort fun first second =>
      first.1.updatedAt ≤ second.1.updatedAt).take 200
  let attention :=
    service.map ServiceItem.item ++ rows.filterMap (shownAttention request) ++
      if request.serviceEnabled && request.enabledProjects.isEmpty then
        [noProjectsItem]
      else []
  let attention :=
    attention.insertionSort fun first second =>
      attentionSortKey first ≤ attentionSortKey second
  let rendered := attention.countP AttentionItem.isJob
  { attention
    attentionCount := jobAttentionCount + (attention.length - rendered)
    attentionTruncated := decide (rendered < jobAttentionCount) }

section Counts

variable {tables : DashboardTables} {request : DashboardRequest}

def shownJobs (tables : DashboardTables) (request : DashboardRequest) :
    List JobRow :=
  tables.jobs.filter fun job =>
    (shownAttention request (job, tables.publication job)).isSome

/-- The rows selected are the jobs shown, each with its publication. -/
theorem attentionRows_eq :
    attentionRows tables request =
      (shownJobs tables request).map fun job => (job, tables.publication job) := by
  have unique :
      ∀ job : JobRow, tables.publications.Pairwise fun first second =>
        decide (first.jobId = job.id) → decide (second.jobId = job.id) → False := by
    intro job
    have distinct := List.pairwise_map.mp tables.unique
    apply distinct.imp
    intro first second different ofFirst ofSecond
    apply different
    rw [of_decide_eq_true ofFirst, of_decide_eq_true ofSecond]
  unfold attentionRows shownJobs
  rw [Sql.leftJoin_of_unique unique, List.filter_map]
  congr 1
  apply List.filter_congr
  intro job member
  exact holds_jobAttentionCondition

theorem expectedAttention_job {job : JobRow} {now : Int} {item : AttentionItem}
    (shown : expectedAttention job now = some item) : item.isJob = true := by
  unfold expectedAttention at shown
  dsimp only at shown
  split at shown
  · split at shown <;> cases shown
    rfl
  · split at shown <;> cases shown
    rfl
  · split at shown <;> cases shown
    rfl
  iterate 4
    · split at shown
      · cases shown
        rfl
      · split at shown
        · cases shown
          rfl
        · split at shown <;> cases shown
          rfl
  · cases shown

/-- An item of the classifier is about a job. -/
theorem shownAttention_job {row : JobRow × Option PublicationRow}
    {item : AttentionItem} (shown : shownAttention request row = some item) :
    item.isJob = true := by
  unfold shownAttention jobAttention at shown
  dsimp only at shown
  split at shown
  · cases shown
    rfl
  · split at shown
    · cases shown
      rfl
    · split at shown
      · cases shown
      · exact expectedAttention_job shown

/-- Every row of the selection gives one item. -/
theorem countP_shown {rows : List (JobRow × Option PublicationRow)}
    (shown : ∀ row ∈ rows, (shownAttention request row).isSome = true) :
    (rows.filterMap (shownAttention request)).countP AttentionItem.isJob =
        rows.length ∧
      (rows.filterMap (shownAttention request)).length = rows.length := by
  induction rows with
  | nil =>
      exact ⟨rfl, rfl⟩
  | cons row rest inductionHypothesis =>
      rw [List.forall_mem_cons] at shown
      obtain ⟨item, found⟩ := Option.isSome_iff_exists.mp shown.1
      obtain ⟨counted, length⟩ := inductionHypothesis shown.2
      have isJob := shownAttention_job found
      rw [List.filterMap_cons_some found, List.countP_cons_of_pos isJob,
        List.length_cons, List.length_cons, counted, length]
      exact ⟨rfl, rfl⟩

theorem countP_service (service : List ServiceItem) :
    (service.map ServiceItem.item).countP AttentionItem.isJob = 0 := by
  rw [List.countP_map, List.countP_eq_zero]
  intro item member
  exact Bool.false_ne_true

/-- The items of a snapshot that are not about a job. -/
def serviceItems (request : DashboardRequest) (service : List ServiceItem) : Nat :=
  service.length +
    if request.serviceEnabled && request.enabledProjects.isEmpty then 1 else 0

/-- Every row read for the list is shown. -/
theorem shown_of_attentionRows {row : JobRow × Option PublicationRow}
    (selected : row ∈ attentionRows tables request) :
    (shownAttention request row).isSome = true := by
  rw [attentionRows_eq] at selected
  obtain ⟨job, member, rfl⟩ := List.mem_map.mp selected
  exact (List.mem_filter.mp member).2

/-- The count is that of the jobs the classifier would show, whether or not the list
is cut, and it is cut exactly beyond 200 of them. -/
theorem dashboardAttention_count (service : List ServiceItem) :
    (dashboardAttention tables request service).attentionCount =
        (shownJobs tables request).length + serviceItems request service ∧
      (dashboardAttention tables request service).attentionTruncated =
        decide (200 < (shownJobs tables request).length) := by
  have selected :
      (attentionRows tables request).length = (shownJobs tables request).length := by
    rw [attentionRows_eq, List.length_map]
  let rows :=
    ((attentionRows tables request).insertionSort fun first second =>
      first.1.updatedAt ≤ second.1.updatedAt).take 200
  have shown : ∀ row ∈ rows, (shownAttention request row).isSome = true := by
    intro row member
    have sorted := List.mem_of_mem_take member
    exact shown_of_attentionRows ((List.perm_insertionSort _ _).mem_iff.mp sorted)
  have read : rows.length = min 200 (shownJobs tables request).length := by
    rw [List.length_take, List.length_insertionSort, selected]
  obtain ⟨counted, length⟩ := countP_shown shown
  have rendered :=
    (List.perm_insertionSort
      (fun first second => attentionSortKey first ≤ attentionSortKey second)
      (service.map ServiceItem.item ++ rows.filterMap (shownAttention request) ++
        if request.serviceEnabled && request.enabledProjects.isEmpty then
          [noProjectsItem]
        else [])).countP_eq AttentionItem.isJob
  unfold dashboardAttention serviceItems
  dsimp only
  rw [rendered, List.length_insertionSort, selected]
  simp only [List.countP_append, countP_service, List.length_append, List.length_map]
  change
    _ + (_ + (rows.filterMap (shownAttention request)).length + _ -
        (0 + (rows.filterMap (shownAttention request)).countP AttentionItem.isJob +
          _)) = _ ∧
      decide
        (0 + (rows.filterMap (shownAttention request)).countP AttentionItem.isJob +
          _ < _) = _
  rw [counted, length, read]
  split
  · have warned : [noProjectsItem].countP AttentionItem.isJob = 0 := rfl
    rw [warned, List.length_singleton]
    constructor
    · omega
    · rw [decide_eq_decide]
      omega
  · rw [List.countP_nil, List.length_nil]
    constructor
    · omega
    · rw [decide_eq_decide]
      omega

end Counts

/-- The SQL filter and the Python classifier agree on every row, so the exact count
is the number of the jobs the classifier would show. -/
theorem attention_filter_agrees :
    (∀ now serviceEnabled enabledProjects job publication,
      Sql.holds
          (jobAttentionCondition now serviceEnabled enabledProjects job
            publication) =
        (jobAttention job (publication.map PublicationRow.status) now
          (publication.map PublicationRow.updatedAt)
          (serviceEnabled && decide (job.project ∈ enabledProjects))).isSome) ∧
      ∀ tables request service,
        (dashboardAttention tables request service).attentionCount =
          (shownJobs tables request).length + serviceItems request service := by
  constructor
  · intro now serviceEnabled enabledProjects job publication
    exact holds_jobAttentionCondition
  · intro tables request service
    exact (dashboardAttention_count service).1

end PeReview
