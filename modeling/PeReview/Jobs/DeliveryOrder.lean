import PeReview.Jobs.Arrivals
import PeReview.Jobs.TerminalStates

/-!
# Independence of the delivery order

The rows of the store follow the states of the arriving patch sets, so the events of
a change leave the same jobs in every order exactly when the events are ranked.
-/

namespace PeReview

open PeReview.Data

namespace Job

/-- The columns that tell patch sets apart; no enqueue changes them. -/
def key (job : Job) : String × Int × Int × String × String :=
  (job.project, job.changeNumber, job.patchsetNumber, job.revisionSha,
    job.reviewPolicyVersion)

theorem hasIdentity_iff {job : Job} {event : GerritPatchsetEvent}
    {policyVersion : String} :
    job.hasIdentity event policyVersion ↔
      job.project = event.project ∧ job.changeNumber = event.changeNumber ∧
        job.revisionSha = event.revisionSha ∧
        job.reviewPolicyVersion = policyVersion := by
  simp [hasIdentity, and_assoc]

theorem hasIdentity_congr {job changed : Job} (same : changed.key = job.key)
    (event : GerritPatchsetEvent) (policyVersion : String) :
    changed.hasIdentity event policyVersion = job.hasIdentity event policyVersion := by
  simp only [key, Prod.mk.injEq] at same
  simp [hasIdentity, same]

end Job

namespace Store

variable {store : Store} {id : JobId} {job : Job}

theorem markOlder_key (older : Job) : (markOlder id job older).key = older.key := by
  unfold markOlder
  split
  · rfl
  · rfl

theorem supersedeOlder_key (older : Job) :
    (supersedeOlder id job older).key = older.key := by
  unfold supersedeOlder
  split
  · rfl
  · rfl

theorem orderedRow_key (older : Job) : (orderedRow id job older).key = older.key := by
  rw [orderedRow, supersedeOlder_key, markOlder_key]

/-- The bulk updates close the received rows that are older. -/
theorem orderedRow_state {older : Job}
    (queued : older.state = .received ∨ older.state.isTerminal) :
    (orderedRow id job older).state =
      if older.sameChange job ∧ older.patchsetNumber < job.patchsetNumber ∧
          older.state = .received then
        .superseded
      else older.state := by
  rcases queued with received | terminal
  · by_cases before : older.sameChange job ∧ older.patchsetNumber < job.patchsetNumber
    · have opened : job.openOlder older := by
        simp [Job.openOlder, before, received, JobState.isTerminal]
      have settled : Sql.holds (Sql.not older.recoveryCondition) = true := by
        simp [Job.recoveryCondition, received, Sql.or, Sql.and, Sql.not]
      have quiet : Sql.holds older.recoveryCondition = false := by
        simp [Job.recoveryCondition, received]
      simp [orderedRow, supersedeOlder, markOlder, opened, settled, quiet, before,
        received]
    · have closed : job.openOlder older = false := by
        rw [Bool.eq_false_iff]
        intro opened
        simp only [Job.openOlder, Bool.and_eq_true, decide_eq_true_eq] at opened
        exact before opened.1
      rw [if_neg (fun all => before ⟨all.1, all.2.1⟩)]
      simp [orderedRow, supersedeOlder, markOlder, closed]
  · rw [orderedRow_of_isTerminal terminal, if_neg]
    intro all
    rw [all.2.2] at terminal
    cases terminal

theorem newerJob_eq_none_iff :
    store.newerJob job = none ↔
      ∀ other ∈ store.jobs, other.sameChange job →
        other.patchsetNumber ≤ job.patchsetNumber := by
  simp only [newerJob, Option.map_eq_none_iff, firstBy_eq_none,
    List.eq_nil_iff_forall_not_mem, Prod.forall, mem_rowsWhere, not_and,
    Bool.and_eq_true, decide_eq_true_eq]
  constructor
  · intro nowhere other member same
    obtain ⟨otherId, found⟩ := List.getElem?_of_mem member
    exact Int.not_lt.mp (nowhere other otherId found same)
  · intro behind other otherId found same
    exact Int.not_lt.mpr (behind other (List.mem_of_getElem? found) same)

theorem setJob_self (found : store.jobs[id]? = some job) :
    store.setJob id job = store := by
  obtain ⟨inside, same⟩ := List.getElem?_eq_some_iff.mp found
  rw [setJob, ← same, List.set_getElem_self]

theorem length_applyPatchsetOrdering :
    (store.applyPatchsetOrdering id job).jobs.length = store.jobs.length := by
  unfold applyPatchsetOrdering
  split
  · rfl
  · split
    · split
      · simp [setJob]
      · simp [setJob]
    · simp

theorem projects_applyPatchsetOrdering :
    (store.applyPatchsetOrdering id job).projects = store.projects := by
  unfold applyPatchsetOrdering
  split
  · rfl
  · split
    · split
      · rfl
      · rfl
    · rfl

/-- No column of the key changes when patch sets are ordered. -/
theorem keys_applyPatchsetOrdering (found : store.jobs[id]? = some job) :
    (store.applyPatchsetOrdering id job).jobs.map Job.key = store.jobs.map Job.key := by
  have rewritten : ∀ written : Job, written.key = job.key →
      (store.setJob id written).jobs.map Job.key = store.jobs.map Job.key := by
    intro written same
    obtain ⟨inside, known⟩ := List.getElem?_eq_some_iff.mp found
    rw [setJob, List.map_set, same, ← known]
    have keyed : (store.jobs.map Job.key)[id]? = some store.jobs[id].key := by
      rw [List.getElem?_map, List.getElem?_eq_getElem inside]
      rfl
    obtain ⟨keyInside, keySame⟩ := List.getElem?_eq_some_iff.mp keyed
    rw [← keySame, List.set_getElem_self]
  unfold applyPatchsetOrdering
  split
  · rfl
  · split
    · split
      · exact rewritten _ rfl
      · exact rewritten _ rfl
    · dsimp only
      rw [List.map_map, List.map_map]
      apply List.map_congr_left
      intro older _
      exact orderedRow_key older

/-- A received job behind a newer one is superseded. -/
theorem jobs_of_newer {newer : JobId} (received : job.state = .received)
    (known : store.newerJob job = some newer) :
    (store.applyPatchsetOrdering id job).jobs =
      store.jobs.set id
        { job with
          state := .superseded
          supersededByJobId := some newer
          leaseOwner := none
          leaseExpiresAt := none } := by
  have inScope : ¬job.state = .skippedScope := by
    simp [received]
  have opened : job.state.isTerminal = false := by
    rw [received]
    rfl
  have settled : job.needsPublishRecovery = false := by
    simp [Job.needsPublishRecovery, received]
  simp [applyPatchsetOrdering, inScope, known, opened, settled, setJob]

/-- Any other job supersedes the older ones. -/
theorem jobs_of_latest (inScope : job.state ≠ .skippedScope)
    (latest : job.state.isTerminal ∨ store.newerJob job = none) :
    (store.applyPatchsetOrdering id job).jobs = store.jobs.map (orderedRow id job) := by
  rw [applyPatchsetOrdering, if_neg inScope]
  split
  · rename_i newer _ known opened
    rcases latest with terminal | absent
    · rw [opened] at terminal
      cases terminal
    · rw [known] at absent
      cases absent
  · rw [List.map_map]
    rfl

/-- The end of an enqueue does not fail on a row that is there. -/
theorem orderAndRead_ok (found : store.jobs[id]? = some job) (created : Bool) :
    ∃ answer, store.orderAndRead id job created =
      .ok (store.applyPatchsetOrdering id job, answer) := by
  have inside : id < (store.applyPatchsetOrdering id job).jobs.length := by
    rw [length_applyPatchsetOrdering]
    exact (List.getElem?_eq_some_iff.mp found).1
  have present := List.getElem?_eq_getElem inside
  simp [orderAndRead, get, present]

def stateOf (store : Store) (policyVersion : String) (event : GerritPatchsetEvent) :
    Option JobState :=
  (store.jobs.find? fun job => job.hasIdentity event policyVersion).map Job.state

def deliver (policyVersion : String) :
    List (Time × GerritPatchsetEvent) → Store → Except PyError Store
  | [], store => .ok store
  | (now, event) :: rest, store => do
      let (store, _) ← store.enqueue now event policyVersion
      deliver policyVersion rest store

end Store

/-- The events of one change, at most one for each revision. -/
structure ChangeEvents (project : String) (changeNumber : Int)
    (events : List GerritPatchsetEvent) : Prop where
  about : ∀ event ∈ events,
    event.project = project ∧ event.changeNumber = changeNumber
  single : ∀ first ∈ events, ∀ second ∈ events,
    first.revisionSha = second.revisionSha → first = second

namespace Arrivals

variable {project policyVersion : String} {changeNumber : Int}
  {events : List GerritPatchsetEvent} {states : Arrivals} {store : Store}
  {event : GerritPatchsetEvent} {id : JobId} {job : Job}

/-- The rows of a store are those of the events that have a job. -/
structure Follows (policyVersion : String) (events : List GerritPatchsetEvent)
    (states : Arrivals) (store : Store) : Prop where
  row : ∀ (id : JobId) (job : Job), store.jobs[id]? = some job →
    ∃ event ∈ events, job.hasIdentity event policyVersion ∧
      job.patchsetNumber = event.patchsetNumber ∧ states event = some job.state
  found : ∀ event ∈ events, states event ≠ none →
    ∃ (id : JobId) (job : Job), store.jobs[id]? = some job ∧
      job.hasIdentity event policyVersion
  unique : ∀ (id other : JobId) (job twin : Job), store.jobs[id]? = some job →
    store.jobs[other]? = some twin → job.revisionSha = twin.revisionSha → id = other

section Rows

variable (change : ChangeEvents project changeNumber events)
include change

/-- The job of an event is in the state of the event. -/
theorem Follows.state (follows : Follows policyVersion events states store)
    (member : event ∈ events) (found : store.jobs[id]? = some job)
    (identity : job.hasIdentity event policyVersion) :
    job.patchsetNumber = event.patchsetNumber ∧ states event = some job.state := by
  obtain ⟨other, otherMember, otherIdentity, number, state⟩ := follows.row id job found
  have sameRevision : other.revisionSha = event.revisionSha := by
    rw [← (Job.hasIdentity_iff.mp otherIdentity).2.2.1,
      (Job.hasIdentity_iff.mp identity).2.2.1]
  obtain rfl := change.single other otherMember event member sameRevision
  exact ⟨number, state⟩

/-- All rows are of one change. -/
theorem Follows.sameChange (follows : Follows policyVersion events states store)
    {other : JobId} {twin : Job} (found : store.jobs[id]? = some job)
    (foundTwin : store.jobs[other]? = some twin) :
    twin.sameChange job := by
  obtain ⟨first, firstMember, firstIdentity, _⟩ := follows.row id job found
  obtain ⟨second, secondMember, secondIdentity, _⟩ := follows.row other twin foundTwin
  obtain ⟨project, number, _⟩ := Job.hasIdentity_iff.mp firstIdentity
  obtain ⟨projectToo, numberToo, _⟩ := Job.hasIdentity_iff.mp secondIdentity
  have here := change.about first firstMember
  have there := change.about second secondMember
  simp [Job.sameChange, project, number, projectToo, numberToo, here, there]

omit change in
/-- Rewriting rows and states alike. -/
theorem Follows.rewrite (follows : Follows policyVersion events states store)
    {target : Store} {after : Arrivals}
    (length : target.jobs.length = store.jobs.length)
    (rewritten : ∀ (id : JobId) (job : Job), store.jobs[id]? = some job →
      ∃ changed : Job, target.jobs[id]? = some changed ∧ changed.key = job.key ∧
        ∀ event ∈ events, job.hasIdentity event policyVersion →
          after event = some changed.state)
    (only : ∀ event, after event = none ↔ states event = none) :
    Follows policyVersion events after target := by
  have before : ∀ (id : JobId) (changed : Job), target.jobs[id]? = some changed →
      ∃ job : Job, store.jobs[id]? = some job ∧ changed.key = job.key ∧
        ∀ event ∈ events, job.hasIdentity event policyVersion →
          after event = some changed.state := by
    intro id changed present
    have inside : id < store.jobs.length := by
      rw [← length]
      exact (List.getElem?_eq_some_iff.mp present).1
    have found := List.getElem?_eq_getElem inside
    obtain ⟨again, presentAgain, same, known⟩ := rewritten id _ found
    rw [present] at presentAgain
    cases presentAgain
    exact ⟨_, found, same, known⟩
  constructor
  · intro id changed present
    obtain ⟨job, found, same, known⟩ := before id changed present
    obtain ⟨event, member, identity, number, _⟩ := follows.row id job found
    refine ⟨event, member, ?_, ?_, known event member identity⟩
    · rw [Job.hasIdentity_congr same]
      exact identity
    · simp only [Job.key, Prod.mk.injEq] at same
      rw [same.2.2.1, number]
  · intro event member present
    obtain ⟨id, job, found, identity⟩ :=
      follows.found event member (mt (only event).mpr present)
    obtain ⟨changed, presentNow, same, _⟩ := rewritten id job found
    exact ⟨id, changed, presentNow, by rw [Job.hasIdentity_congr same, identity]⟩
  · intro id other changed twin present presentTwin sameRevision
    obtain ⟨job, found, same, _⟩ := before id changed present
    obtain ⟨twinJob, foundTwin, sameTwin, _⟩ := before other twin presentTwin
    simp only [Job.key, Prod.mk.injEq] at same sameTwin
    rw [same.2.2.2.1, sameTwin.2.2.2.1] at sameRevision
    exact follows.unique id other job twinJob found foundTwin sameRevision

/-- The newest row decides whether an event is outdated. -/
theorem Follows.newerJob_eq_none (follows : Follows policyVersion events states store)
    (found : store.jobs[id]? = some job) (number : job.patchsetNumber = event.patchsetNumber) :
    store.newerJob job = none ↔ ¬Outdated events states event := by
  rw [Store.newerJob_eq_none_iff]
  constructor
  · intro latest outdated
    obtain ⟨newer, member, present, greater⟩ := outdated
    obtain ⟨newerId, newerJob, foundNewer, identity⟩ :=
      follows.found newer member present
    have sameNumber := (follows.state change member foundNewer identity).1
    have bound := latest newerJob (List.mem_of_getElem? foundNewer)
      (follows.sameChange change found foundNewer)
    omega
  · intro current other member _
    by_contra greater
    rw [Int.not_le] at greater
    obtain ⟨otherId, foundOther⟩ := List.getElem?_of_mem member
    obtain ⟨newer, newerMember, identity, sameNumber, state⟩ :=
      follows.row otherId other foundOther
    exact current ⟨newer, newerMember, by simp [state], by omega⟩

variable {skips : GerritPatchsetEvent → Bool}

omit change in
/-- Deliveries leave a job received or terminal. -/
theorem Follows.queued (follows : Follows policyVersion events states store)
    (proper : Proper skips states) (found : store.jobs[id]? = some job) :
    job.state = .received ∨ job.state.isTerminal := by
  obtain ⟨event, _, _, _, state⟩ := follows.row id job found
  have allowed := proper event job.state state
  split at allowed
  · right
    rw [allowed]
    rfl
  · rcases allowed with received | superseded
    · exact .inl received
    · right
      rw [superseded]
      rfl

/-- `_apply_patchset_ordering` orders the states. -/
theorem Follows.order (follows : Follows policyVersion events states store)
    (proper : Proper skips states) (member : event ∈ events)
    (found : store.jobs[id]? = some job)
    (identity : job.hasIdentity event policyVersion) :
    Follows policyVersion events (order events states event)
      (store.applyPatchsetOrdering id job) := by
  obtain ⟨number, state⟩ := follows.state change member found identity
  have length : (store.applyPatchsetOrdering id job).jobs.length = store.jobs.length :=
    Store.length_applyPatchsetOrdering
  by_cases skipped : job.state = .skippedScope
  · have same : Arrivals.order events states event = states := by
      rw [Arrivals.order, if_pos (by rw [state, skipped])]
    rw [same, Store.applyPatchsetOrdering, if_pos skipped]
    exact follows
  · have inScope : ¬states event = some .skippedScope := by
      rw [state, Option.some.injEq]
      exact skipped
    refine follows.rewrite length ?_ fun _ => order_eq_none
    rw [Arrivals.order, if_neg inScope]
    have newest := follows.newerJob_eq_none change found number
    by_cases outdated : states event = some .received ∧ Outdated events states event
    · have received : job.state = .received := by
        rw [state, Option.some.injEq] at outdated
        exact outdated.1
      obtain ⟨newer, known⟩ :=
        Option.ne_none_iff_exists'.mp fun absent => newest.mp absent outdated.2
      rw [if_pos outdated, Store.jobs_of_newer received known]
      intro other row present
      have inside : other < store.jobs.length :=
        (List.getElem?_eq_some_iff.mp present).1
      by_cases about : other = id
      · subst about
        rw [found] at present
        cases present
        refine ⟨_, List.getElem?_set_self inside, rfl, ?_⟩
        intro tested testedMember testedIdentity
        have sameRevision : tested.revisionSha = event.revisionSha := by
          rw [← (Job.hasIdentity_iff.mp testedIdentity).2.2.1,
            (Job.hasIdentity_iff.mp identity).2.2.1]
        obtain rfl := change.single tested testedMember event member sameRevision
        exact Function.update_self _ _ _
      · refine ⟨row, ?_, rfl, ?_⟩
        · rw [List.getElem?_set_ne (Ne.symm about), present]
        · intro tested testedMember testedIdentity
          have different : tested ≠ event := by
            intro same
            apply about
            apply follows.unique other id row job present found
            rw [(Job.hasIdentity_iff.mp testedIdentity).2.2.1,
              (Job.hasIdentity_iff.mp identity).2.2.1, same]
          rw [Function.update_of_ne different]
          exact (follows.state change testedMember present testedIdentity).2
    · have latest : job.state.isTerminal ∨ store.newerJob job = none := by
        rcases follows.queued proper found with received | terminal
        · right
          rw [newest]
          intro isOutdated
          exact outdated ⟨by rw [state, received], isOutdated⟩
        · exact .inl terminal
      rw [if_neg outdated, Store.jobs_of_latest skipped latest]
      intro other row present
      rw [List.getElem?_map, present]
      refine ⟨_, rfl, Store.orderedRow_key row, ?_⟩
      intro tested testedMember testedIdentity
      obtain ⟨testedNumber, testedState⟩ :=
        follows.state change testedMember present testedIdentity
      have sameChange := follows.sameChange change found present
      rw [Store.orderedRow_state (follows.queued proper present), ← testedNumber,
        ← number, testedState]
      simp only [sameChange, true_and, Option.some.injEq]
      split
      · rfl
      · rfl

end Rows

abbrev scopeSkips (store : Store) (project : String) : GerritPatchsetEvent → Bool :=
  Store.predatesCutoff (store.managedProject project)

section Enqueueing

variable (change : ChangeEvents project changeNumber events)
include change

/-- No row has the revision of an event that has no job. -/
theorem Follows.revision_ne (follows : Follows policyVersion events states store)
    (member : event ∈ events) (absent : states event = none)
    (found : store.jobs[id]? = some job) :
    job.revisionSha ≠ event.revisionSha := by
  intro same
  obtain ⟨other, otherMember, identity, _, state⟩ := follows.row id job found
  have sameRevision : other.revisionSha = event.revisionSha := by
    rw [← (Job.hasIdentity_iff.mp identity).2.2.1, same]
  obtain rfl := change.single other otherMember event member sameRevision
  rw [absent] at state
  cases state

/-- An event that has no job gets one. -/
theorem Follows.insert (follows : Follows policyVersion events states store)
    (member : event ∈ events) (absent : states event = none) {inserted : Job}
    (identity : inserted.hasIdentity event policyVersion)
    (number : inserted.patchsetNumber = event.patchsetNumber)
    (skips : GerritPatchsetEvent → Bool)
    (state : inserted.state = if skips event then .skippedScope else .received) :
    Follows policyVersion events (receive skips states event)
      { store with jobs := store.jobs ++ [inserted] } := by
  have revision : inserted.revisionSha = event.revisionSha :=
    (Job.hasIdentity_iff.mp identity).2.2.1
  have rows : ∀ (id : JobId) (job : Job), (store.jobs ++ [inserted])[id]? = some job →
      store.jobs[id]? = some job ∨ (id = store.jobs.length ∧ job = inserted) := by
    intro id job present
    by_cases inside : id < store.jobs.length
    · rw [List.getElem?_append_left inside] at present
      exact .inl present
    · rw [List.getElem?_append_right (Nat.le_of_not_lt inside)] at present
      obtain ⟨last, same⟩ := List.getElem?_eq_some_iff.mp present
      have here : id - store.jobs.length = 0 := Nat.lt_one_iff.mp last
      simp only [here, List.getElem_cons_zero] at same
      have last : id = store.jobs.length :=
        Nat.le_antisymm (Nat.sub_eq_zero_iff_le.mp here) (Nat.le_of_not_lt inside)
      exact .inr ⟨last, same.symm⟩
  constructor
  · intro id job present
    rcases rows id job present with found | ⟨_, rfl⟩
    · obtain ⟨tested, testedMember, testedIdentity, testedNumber, testedState⟩ :=
        follows.row id job found
      have different : tested ≠ event := by
        intro same
        rw [same, absent] at testedState
        cases testedState
      refine ⟨tested, testedMember, testedIdentity, testedNumber, ?_⟩
      rw [receive_of_ne different, testedState]
    · refine ⟨event, member, identity, number, ?_⟩
      rw [receive, if_pos absent, Function.update_self, state]
  · intro tested testedMember present
    by_cases same : tested = event
    · subst same
      exact ⟨store.jobs.length, inserted, by simp, identity⟩
    · rw [receive_of_ne same] at present
      obtain ⟨id, job, found, testedIdentity⟩ :=
        follows.found tested testedMember present
      have inside : id < store.jobs.length := (List.getElem?_eq_some_iff.mp found).1
      exact
        ⟨id, job, by rw [List.getElem?_append_left inside, found], testedIdentity⟩
  · intro id other job twin present presentTwin same
    rcases rows id job present with found | ⟨last, rfl⟩
    · rcases rows other twin presentTwin with foundTwin | ⟨_, rfl⟩
      · exact follows.unique id other job twin found foundTwin same
      · rw [revision] at same
        exact absurd same (follows.revision_ne change member absent found)
    · rcases rows other twin presentTwin with foundTwin | ⟨lastToo, _⟩
      · rw [revision] at same
        exact absurd same.symm (follows.revision_ne change member absent foundTwin)
      · rw [last, lastToo]

omit change in
/-- A job that is skipped here is not revived. -/
theorem not_revives {scope : Option ManagedProject}
    (follows : Follows policyVersion events states store)
    (proper : Proper (Store.predatesCutoff scope) states)
    (found : store.jobs[id]? = some job) :
    Store.revives scope job = false := by
  by_contra revived
  rw [Bool.not_eq_false] at revived
  have skipped := Store.revives_skipped revived
  obtain ⟨event, _, _, _, state⟩ := follows.row id job found
  have allowed := proper event job.state state
  rw [skipped] at allowed
  have predates : Store.predatesCutoff scope event := by
    by_contra inScope
    simp [inScope] at allowed
  cases scope with
  | none =>
      cases predates
  | some managed =>
      simp only [Store.predatesCutoff, Bool.and_eq_true, decide_eq_true_eq] at predates
      simp [Store.revives, predates.1] at revived

/-- An enqueue delivers its event. -/
theorem Follows.enqueue (follows : Follows policyVersion events states store)
    (proper : Proper (scopeSkips store project) states) (member : event ∈ events)
    (now : Time) :
    ∃ target answer,
      store.enqueue now event policyVersion = .ok (target, answer) ∧
        Follows policyVersion events (arrive (scopeSkips store project) events states event)
          target ∧
        target.projects = store.projects := by
  have scope : store.managedProject event.project = store.managedProject project := by
    rw [(change.about event member).1]
  have properNow : Proper (scopeSkips store project)
      (receive (scopeSkips store project) states event) := proper.receive
  simp only [Store.enqueue, scope]
  cases identified : store.identified event policyVersion with
  | none =>
      have absent : states event = none := by
        by_contra present
        obtain ⟨id, job, found, identity⟩ := follows.found event member present
        have nowhere := List.findIdx?_eq_none_iff.mp identified job
          (List.mem_of_getElem? found)
        rw [identity] at nowhere
        cases nowhere
      let inserted :=
        Store.insertedJob now event policyVersion (scopeSkips store project event)
      have identity : inserted.hasIdentity event policyVersion :=
        Job.hasIdentity_iff.mpr ⟨rfl, rfl, rfl, rfl⟩
      have followsNow :=
        follows.insert change member absent identity rfl (scopeSkips store project) rfl
      have present : (store.jobs ++ [inserted])[store.jobs.length]? = some inserted := by
        simp
      obtain ⟨answer, ran⟩ :=
        @Store.orderAndRead_ok { store with jobs := store.jobs ++ [inserted] }
          store.jobs.length inserted present true
      exact
        ⟨_, answer, ran, followsNow.order change properNow member present identity,
          Store.projects_applyPatchsetOrdering⟩
  | some id =>
      obtain ⟨inside, matching, _⟩ := List.findIdx?_eq_some_iff_getElem.mp identified
      have found := List.getElem?_eq_getElem inside
      have known := (follows.state change member found matching).2
      have same : receive (scopeSkips store project) states event = states := by
        rw [receive, if_neg (by simp [known])]
      have still := not_revives follows proper found
      obtain ⟨answer, ran⟩ := Store.orderAndRead_ok found false
      refine
        ⟨store.applyPatchsetOrdering id store.jobs[id], answer, ?_, ?_,
          Store.projects_applyPatchsetOrdering⟩
      · simp only [found, still, Bool.false_eq_true, if_false, Store.setJob_self found]
        exact ran
      · rw [arrive, same]
        exact follows.order change proper member found matching

/-- Deliveries of the events of a change never fail. -/
theorem Follows.deliver {skips : GerritPatchsetEvent → Bool}
    {deliveries : List (Time × GerritPatchsetEvent)}
    (follows : Follows policyVersion events states store) (proper : Proper skips states)
    (scope : scopeSkips store project = skips)
    (within : ∀ delivery ∈ deliveries, delivery.2 ∈ events) :
    ∃ target, store.deliver policyVersion deliveries = .ok target ∧
      Follows policyVersion events
        ((deliveries.map Prod.snd).foldl (arrive skips events) states) target := by
  induction deliveries generalizing store states with
  | nil =>
      exact ⟨store, rfl, follows⟩
  | cons delivery rest inductionHypothesis =>
      obtain ⟨now, event⟩ := delivery
      have properHere : Proper (scopeSkips store project) states := by
        rw [scope]
        exact proper
      obtain ⟨target, answer, ran, followsNext, projects⟩ :=
        follows.enqueue change properHere (within (now, event) List.mem_cons_self) now
      have sameScope : scopeSkips target project = skips := by
        rw [← scope, scopeSkips, scopeSkips, Store.managedProject, projects]
        rfl
      rw [scope] at followsNext
      obtain ⟨final, delivered, followsFinal⟩ :=
        inductionHypothesis followsNext proper.arrive sameScope
          (fun later laterMember => within later (List.mem_cons_of_mem _ laterMember))
      refine ⟨final, ?_, followsFinal⟩
      rw [Store.deliver, ran, Except.ok_bind]
      exact delivered

/-- The state of the job of an event is the state of the event. -/
theorem Follows.stateOf (follows : Follows policyVersion events states store)
    (member : event ∈ events) :
    store.stateOf policyVersion event = states event := by
  unfold Store.stateOf
  cases known : store.jobs.find? fun job => job.hasIdentity event policyVersion with
  | none =>
      by_contra present
      obtain ⟨id, job, found, identity⟩ :=
        follows.found event member (Ne.symm present)
      have nowhere := List.find?_eq_none.mp known job (List.mem_of_getElem? found)
      exact nowhere identity
  | some job =>
      have identity : job.hasIdentity event policyVersion := by
        simpa using List.find?_some known
      obtain ⟨id, found⟩ := List.getElem?_of_mem (List.mem_of_find?_eq_some known)
      exact ((follows.state change member found identity).2).symm

/-- Events delivered to an empty queue. -/
theorem deliver_empty (empty : store.jobs = [])
    {deliveries : List (Time × GerritPatchsetEvent)}
    (within : ∀ delivery ∈ deliveries, delivery.2 ∈ events) :
    ∃ target, store.deliver policyVersion deliveries = .ok target ∧
      ∀ event ∈ events, target.stateOf policyVersion event =
        after (scopeSkips store project) events (deliveries.map Prod.snd) event := by
  have start : Follows policyVersion events (fun _ => none) store := by
    constructor
    · intro id job present
      simp [empty] at present
    · intro event member present
      exact absurd rfl present
    · intro id other job twin present
      simp [empty] at present
  have proper : Proper (scopeSkips store project) fun _ => none :=
    fun _ _ known => nomatch known
  obtain ⟨target, delivered, follows⟩ := start.deliver change proper rfl within
  exact ⟨target, delivered, fun event member => follows.stateOf change member⟩

end Enqueueing

end Arrivals

/-- Exactly some events are delivered, in any order and any number of times. -/
def Delivers (events : List GerritPatchsetEvent)
    (deliveries : List (Time × GerritPatchsetEvent)) : Prop :=
  ∀ event, event ∈ deliveries.map Prod.snd ↔ event ∈ events

/-- The events of a change leave the job of every revision in the same state in any
order of delivery exactly when a skipped event is newer than one in scope only if
some event in scope is newer, too. -/
theorem enqueue_order_independent_iff (policyVersion : String) {store : Store}
    (empty : store.jobs = []) {project : String} {changeNumber : Int}
    {events : List GerritPatchsetEvent}
    (change : ChangeEvents project changeNumber events) :
    (∀ first second, Delivers events first → Delivers events second →
      ∃ firstStore secondStore,
        store.deliver policyVersion first = .ok firstStore ∧
          store.deliver policyVersion second = .ok secondStore ∧
          ∀ event ∈ events, ∃ state,
            firstStore.stateOf policyVersion event = some state ∧
              secondStore.stateOf policyVersion event = some state) ↔
      ∀ older ∈ events, ∀ newer ∈ events,
        Store.predatesCutoff (store.managedProject project) older = false →
          Store.predatesCutoff (store.managedProject project) newer = true →
            older.patchsetNumber < newer.patchsetNumber →
              ∃ latest ∈ events,
                Store.predatesCutoff (store.managedProject project) latest = false ∧
                  older.patchsetNumber < latest.patchsetNumber := by
  have delivered : ∀ deliveries, Delivers events deliveries →
      ∃ target, store.deliver policyVersion deliveries = .ok target ∧
        ∀ event ∈ events, target.stateOf policyVersion event =
          Arrivals.after (Arrivals.scopeSkips store project) events
            (deliveries.map Prod.snd) event := by
    intro deliveries delivers
    apply Arrivals.deliver_empty change empty
    intro delivery member
    exact (delivers delivery.2).mp (List.mem_map_of_mem member)
  rw [← Arrivals.Ranked, ← Arrivals.after_independent_iff]
  constructor
  · intro independent first second covers coversToo event member
    let timed := fun deliveries : List GerritPatchsetEvent =>
      deliveries.map fun event => ((0 : Time), event)
    have untimed : ∀ deliveries, (timed deliveries).map Prod.snd = deliveries := by
      intro deliveries
      simp [timed, Function.comp_def]
    have delivers : ∀ deliveries : List GerritPatchsetEvent,
        (∀ event, event ∈ deliveries ↔ event ∈ events) →
          Delivers events (timed deliveries) := by
      intro deliveries all tested
      rw [untimed]
      exact all tested
    obtain ⟨firstStore, secondStore, ran, ranToo, same⟩ :=
      independent _ _ (delivers first covers) (delivers second coversToo)
    obtain ⟨firstTarget, firstRan, firstStates⟩ := delivered _ (delivers first covers)
    obtain ⟨secondTarget, secondRan, secondStates⟩ :=
      delivered _ (delivers second coversToo)
    rw [ran] at firstRan
    rw [ranToo] at secondRan
    cases firstRan
    cases secondRan
    obtain ⟨state, known, knownToo⟩ := same event member
    rw [firstStates event member, untimed] at known
    rw [secondStates event member, untimed] at knownToo
    rw [known, knownToo]
  · intro independent first second delivers deliversToo
    obtain ⟨firstTarget, firstRan, firstStates⟩ := delivered first delivers
    obtain ⟨secondTarget, secondRan, secondStates⟩ := delivered second deliversToo
    refine ⟨firstTarget, secondTarget, firstRan, secondRan, ?_⟩
    intro event member
    have present : Arrivals.after (Arrivals.scopeSkips store project) events
        (first.map Prod.snd) event ≠ none := by
      intro absent
      exact Arrivals.after_eq_none.mp absent ((delivers event).mpr member)
    obtain ⟨state, known⟩ := Option.ne_none_iff_exists'.mp present
    refine ⟨state, ?_, ?_⟩
    · rw [firstStates event member, known]
    · rw [secondStates event member,
        ← independent (first.map Prod.snd) (second.map Prod.snd) delivers deliversToo
          event member, known]

def fromNowStore : Store where
  projects :=
    [{ project := "p", reviewStartMode := .fromNow, reviewStartAt := some 100
       createdAt := 0, updatedAt := 0 }]

def datedEvent (number : Int) (revisionSha : String) (occurredAt : Option Time) :
    GerritPatchsetEvent where
  project := "p"
  changeNumber := 1
  patchsetNumber := number
  revisionSha
  occurredAt

theorem enqueue_order_independent_iff_ranked :
    ChangeEvents "p" 1 [datedEvent 1 "a" (some 50), datedEvent 2 "b" (some 150)] ∧
      ∀ first second,
        Delivers [datedEvent 1 "a" (some 50), datedEvent 2 "b" (some 150)] first →
        Delivers [datedEvent 1 "a" (some 50), datedEvent 2 "b" (some 150)] second →
        ∃ firstStore secondStore,
          fromNowStore.deliver "v" first = .ok firstStore ∧
            fromNowStore.deliver "v" second = .ok secondStore ∧
            ∀ event ∈ [datedEvent 1 "a" (some 50), datedEvent 2 "b" (some 150)],
              ∃ state, firstStore.stateOf "v" event = some state ∧
                secondStore.stateOf "v" event = some state := by
  have change :
      ChangeEvents "p" 1 [datedEvent 1 "a" (some 50), datedEvent 2 "b" (some 150)] :=
    ⟨by decide, by decide⟩
  refine ⟨change, ?_⟩
  apply (enqueue_order_independent_iff "v" rfl change).mpr
  decide

/-- A patch set without a time, before one from before the cutoff: in one order the
older is left open, in the other it is superseded. -/
theorem enqueue_order_dependent :
    (fromNowStore.deliver "v"
        [(0, datedEvent 1 "a" none), (0, datedEvent 2 "b" (some 50))]).map
          (fun store => store.stateOf "v" (datedEvent 1 "a" none)) =
        .ok (some .received) ∧
      (fromNowStore.deliver "v"
        [(0, datedEvent 2 "b" (some 50)), (0, datedEvent 1 "a" none)]).map
          (fun store => store.stateOf "v" (datedEvent 1 "a" none)) =
        .ok (some .superseded) := by
  decide

end PeReview
