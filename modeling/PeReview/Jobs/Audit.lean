import PeReview.Jobs.Records
import PeReview.Jobs.System

/-!
# The histories of all jobs

Every step of the system, by whichever caller, adds to the history of one job or of none:
histories account for themselves, and nothing of them is ever taken back.
-/

namespace PeReview

open PeReview.Data PeReview.Process

def Store.histories (store : Store) : List History :=
  store.jobs.map Job.history

namespace History

structure Blank (history : History) : Prop where
  policy : history.policy = none
  attemptCount : history.attemptCount = 0
  retryEpoch : history.retryEpochStartAttempt = 0
  attempts : history.attempts = []
  result : history.result = none
  publication : history.publication = none
  vote : history.vote = none
  progress : history.progress = []
  invocations : history.invocations = []

/-- A requeued job starts a new retry epoch, and a failed publication is prepared again. -/
def requeued (history : History) : History :=
  { history with
    retryEpochStartAttempt := history.attemptCount
    publication := history.publication.map Store.requeuedPublication }

def invocationIds (history : History) : List String :=
  history.invocations.map fun row => row.invocation.id

/-- The history of a job accounts for itself: every attempt is counted, the retry epoch has
begun, the events of the vote account for its counts, and every call of the audit has its own
identifier and belongs to an attempt of the job. -/
structure Audited (id : JobId) (history : History) : Prop where
  attemptCount : history.attemptCount = history.attempts.length
  retryEpoch : history.retryEpochStartAttempt ≤ history.attemptCount
  vote : ∀ vote, history.vote = some vote → vote.Accounted
  own : ∀ row ∈ history.invocations,
    row.attempt.job = id ∧ row.attempt.number < history.attempts.length
  distinct : history.invocationIds.Nodup

end History

/-- What one step of the system does to the histories. -/
inductive Recording (store : Store) (label : SystemLabel) : List History → Prop
  | nothing : Recording store label store.histories
  | work (id : JobId) (worker : WorkerId) (call : StoreCall) (history written : History)
      (requested : label = .work worker call) (about : call.job = id)
      (present : store.histories[id]? = some history)
      (records : Records call store id history written) :
      Recording store label (store.histories.set id written)
  | enqueue (history : History) (blank : history.Blank) :
      Recording store label (store.histories ++ [history])
  | requeue (id : JobId) (history : History) (requested : label = .requeue id)
      (present : store.histories[id]? = some history) :
      Recording store label (store.histories.set id history.requeued)
  | prune (retentionDays : Nat) (progress : JobId → Dict String ReviewProgressRow)
      (requested : label = .prune retentionDays) :
      Recording store label
        (store.histories.mapIdx fun id history => { history with progress := progress id })

namespace Store

section Histories

variable {store target : Store} {id : JobId} {job written : Job} {now lease : Time}
  {label : SystemLabel}

theorem histories_setJob :
    (store.setJob id written).histories = store.histories.set id written.history := by
  unfold histories setJob
  rw [List.map_set]

theorem getElem?_histories (found : store.jobs[id]? = some job) :
    store.histories[id]? = some job.history := by
  unfold histories
  rw [List.getElem?_map, found]
  rfl

theorem of_getElem?_histories {history : History}
    (present : store.histories[id]? = some history) :
    ∃ job, store.jobs[id]? = some job ∧ job.history = history := by
  unfold histories at present
  rw [List.getElem?_map] at present
  exact Option.map_eq_some_iff.mp present

/-- A write of the protocol state of one job. -/
theorem histories_setJob_of_same (found : store.jobs[id]? = some job)
    (same : written.history = job.history) :
    (store.setJob id written).histories = store.histories := by
  have present := getElem?_histories found
  have inside := (List.getElem?_eq_some_iff.mp present).1
  rw [histories_setJob, same]
  have value : store.histories[id] = job.history :=
    (List.getElem?_eq_some_iff.mp present).2
  rw [← value, List.set_getElem_self]

/-- A write of the protocol state of all jobs. -/
theorem histories_map {change : Job → Job}
    (same : ∀ job, (change job).history = job.history) :
    (store.jobs.map change).map Job.history = store.histories := by
  unfold histories
  rw [List.map_map]
  apply List.map_congr_left
  intro job _
  exact same job

theorem histories_applyPatchsetOrdering (found : store.jobs[id]? = some job) :
    (store.applyPatchsetOrdering id job).histories = store.histories := by
  unfold applyPatchsetOrdering
  split
  · rfl
  · split
    · split
      · exact histories_setJob_of_same found rfl
      · exact histories_setJob_of_same found rfl
    · have kept : ∀ older,
          (supersedeOlder id job (markOlder id job older)).history = older.history := by
        intro older
        unfold supersedeOlder markOlder
        split <;> split <;> rfl
      have mapped := @histories_map store _ kept
      unfold histories
      rw [List.map_map, List.map_map]
      rw [List.map_map] at mapped
      exact mapped

theorem enqueue_recording {event : GerritPatchsetEvent} {policyVersion : String}
    {record : JobRecord} {created : Bool}
    (ran : store.enqueue now event policyVersion = .ok (target, (record, created))) :
    Recording store label target.histories := by
  simp only [enqueue] at ran
  split at ran
  · obtain ⟨rfl, _, _⟩ := orderAndRead_eq_ok ran
    rw [histories_applyPatchsetOrdering (by simp)]
    unfold histories
    rw [List.map_append]
    exact .enqueue _ ⟨rfl, rfl, rfl, rfl, rfl, rfl, rfl, rfl, rfl⟩
  · rename_i number _
    split at ran
    · cases ran
    · rename_i job found
      obtain ⟨rfl, _, _⟩ := orderAndRead_eq_ok ran
      have inside := (List.getElem?_eq_some_iff.mp found).1
      rw [histories_applyPatchsetOrdering (by simp [setJob, inside]),
        histories_setJob_of_same found]
      · exact .nothing
      · split <;> rfl

theorem histories_claimNext {worker : WorkerId} {locked : List JobId} :
    (store.claimNext now lease worker locked).1.histories = store.histories := by
  unfold claimNext
  split
  · rfl
  · rename_i job number selected
    have member := List.mem_of_mem_filter (firstBy_mem selected)
    obtain ⟨found, _⟩ := mem_rowsWhere.mp member
    dsimp only
    split
    · split
      · exact histories_setJob_of_same found rfl
      · exact histories_setJob_of_same found rfl
    · exact histories_setJob_of_same found rfl

theorem requeueFailed_recording {record : JobRecord}
    (ran : store.requeueFailed now id = .ok (target, record)) :
    Recording store (.requeue id) target.histories := by
  obtain ⟨job, written, found, returned, rfl⟩ := onJob_eq_ok.mp ran
  simp only [Except.bind_eq_ok] at returned
  obtain ⟨_, _, _, _, finished⟩ := returned
  cases finished
  rw [histories_setJob]
  exact .requeue id job.history rfl (getElem?_histories found)

theorem histories_skipPreCutoffJobs {project : String} {cutoff : Time} :
    (store.skipPreCutoffJobs now project cutoff).histories = store.histories := by
  apply histories_map
  intro job
  split <;> rfl

theorem histories_skipBefore {project : String} {cutoff : Option Time} :
    (store.skipBefore now project cutoff).histories = store.histories := by
  cases cutoff with
  | none => rfl
  | some cutoff => exact histories_skipPreCutoffJobs

theorem histories_upsertProject {project : String} {enabled : Bool}
    {mode : ProjectReviewStartMode} {language : Option String} {vote : Option Bool}
    {row : ManagedProject}
    (ran : store.upsertProject now project enabled mode language vote = .ok (target, row)) :
    target.histories = store.histories := by
  unfold upsertProject at ran
  simp only [Except.bind_eq_ok] at ran
  obtain ⟨_, _, _, _, _, _, finished⟩ := ran
  cases finished
  rw [histories_skipBefore]
  split <;> rfl

theorem histories_setProjectEnabled {project : String} {enabled : Bool}
    {row : ManagedProject}
    (ran : store.setProjectEnabled now project enabled = .ok (target, row)) :
    target.histories = store.histories := by
  unfold setProjectEnabled at ran
  split at ran
  · cases ran
  · split at ran
    · cases ran
      exact histories_skipPreCutoffJobs
    · cases ran
      rfl

theorem histories_setProjectReviewStartMode {project : String}
    {mode : ProjectReviewStartMode} {row : ManagedProject}
    (ran : store.setProjectReviewStartMode now project mode = .ok (target, row)) :
    target.histories = store.histories := by
  unfold setProjectReviewStartMode at ran
  split at ran
  · cases ran
  · cases ran
    exact histories_skipBefore

/-- The clean-up writes nothing but the progress of jobs. -/
theorem histories_pruneReviewRecoveryCache {retentionDays : Nat} :
    (store.pruneReviewRecoveryCache now retentionDays).1.histories =
      store.histories.mapIdx fun id history =>
        { history with
          progress :=
            match store.jobs[id]? with
            | none => []
            | some job => (job.pruned now retentionDays).progress } := by
  unfold pruneReviewRecoveryCache histories
  apply List.ext_getElem?
  intro id
  rw [List.getElem?_mapIdx, List.getElem?_map, List.getElem?_map, List.getElem?_map]
  cases store.jobs[id]? with
  | none => rfl
  | some job =>
      have same : (job.pruned now retentionDays).history =
          { job.history with progress := (job.pruned now retentionDays).progress } := by
        unfold Job.pruned
        dsimp only
        split <;> rfl
      exact congrArg some same

theorem Recorded.recording {worker : WorkerId} {call : StoreCall}
    (recorded : Store.Recorded call call.job store target) :
    Recording store (.work worker call) target.histories := by
  rcases recorded with rfl | ⟨job, written, found, rfl, records⟩
  · exact .nothing
  · rw [histories_setJob]
    exact .work call.job worker call job.history written.history rfl rfl
      (getElem?_histories found) records

theorem foreign_of_histories {invocation : String} {other : JobId} {history : History}
    (foreign : store.foreignInvocation id invocation = false) (different : other ≠ id)
    (present : store.histories[other]? = some history) :
    invocation ∉ history.invocationIds := by
  obtain ⟨job, found, rfl⟩ := of_getElem?_histories present
  intro member
  obtain ⟨row, inside, same⟩ := List.mem_map.mp member
  unfold foreignInvocation at foreign
  rw [List.any_eq_false] at foreign
  apply foreign (job, other)
  · exact List.mem_zipIdx_iff_getElem?.mpr found
  · rw [Bool.and_eq_true, List.any_eq_true]
    exact ⟨decide_eq_true different, row, inside, decide_eq_true same⟩

end Histories

end Store

section Records

variable {call : StoreCall} {store : Store} {id : JobId} {history written : History}

theorem invocationIds_settle (rows : List ReviewInvocationRow) (invocation : Invocation) :
    ((Store.updateInvocation rows invocation).map fun row => row.invocation.id) =
      rows.map fun row => row.invocation.id := by
  unfold Store.updateInvocation
  rw [List.map_map]
  apply List.map_congr_left
  intro row _
  dsimp only [Function.comp]
  split <;> rfl

/-- A transaction records at most one new call, under an identifier no job has. -/
theorem Records.invocationIds (records : Records call store id history written) :
    written.invocationIds = history.invocationIds ∨
      ∃ invocation, written.invocationIds = history.invocationIds ++ [invocation] ∧
        invocation ∉ history.invocationIds ∧
        store.foreignInvocation id invocation = false := by
  cases records with
  | invoke row own known fresh foreign =>
      refine Or.inr ⟨row.invocation.id, ?_, ?_, foreign⟩
      · unfold History.invocationIds
        rw [List.map_append]
        rfl
      · intro member
        obtain ⟨other, inside, same⟩ := List.mem_map.mp member
        exact fresh other inside same
  | settle row invocation present same running =>
      exact Or.inl (invocationIds_settle history.invocations invocation)
  | _ => exact Or.inl rfl

/-- The calls a settlement changes are the running one. -/
theorem continues_settle {row : ReviewInvocationRow} {invocation : Invocation}
    (distinct : history.invocationIds.Nodup) (present : row ∈ history.invocations)
    (same : row.invocation.id = invocation.id) (running : row.invocation.status = .started) :
    KeptAt ReviewInvocationRow.Continues history.invocations
      (Store.updateInvocation history.invocations invocation) := by
  apply keptAt_map
  intro other member
  by_cases isSame : other.invocation.id = invocation.id
  · have equal : other = row :=
      List.inj_on_of_nodup_map distinct member present (isSame.trans same.symm)
    rw [if_pos isSame, equal]
    refine ⟨rfl, rfl, rfl, rfl, rfl, rfl, ?_⟩
    intro finished
    exact absurd running finished
  · rw [if_neg isSame]
    exact growth_invocation.refl other

/-- What a transaction records continues the history of its job. -/
theorem Records.continues (audited : history.Audited id)
    (records : Records call store id history written) : history.Continues written := by
  have whole := History.growth.refl history
  cases records with
  | nothing => exact whole
  | policy policy unbound =>
      refine { whole with policy := ?_ }
      intro column present
      refine ⟨.bound policy, rfl, ?_⟩
      intro bound same
      rw [same] at present
      exact absurd present (unbound bound)
  | start attempt =>
      exact
        { whole with
          attemptCount := Nat.le_succ _
          attempts := keptAt_append growth_attempt }
  | attempt number before after present continues =>
      exact { whole with attempts := keptAt_set growth_attempt present continues }
  | result row absent =>
      refine { whole with result := ?_ }
      rw [absent]
      exact kept_none
  | publish row absent =>
      refine { whole with publication := ?_ }
      rw [absent]
      exact kept_none
  | publication before after present continues =>
      refine { whole with publication := ?_ }
      rw [present]
      exact kept_some continues
  | decide row _ absent accounted =>
      refine { whole with vote := ?_ }
      rw [absent]
      exact kept_none
  | vote before after _ present continues accounted =>
      refine { whole with vote := ?_ }
      rw [present]
      exact kept_some continues
  | save inputKey row advances => exact { whole with }
  | invoke row own known fresh foreign =>
      exact { whole with invocations := keptAt_append growth_invocation }
  | settle row invocation present same running =>
      exact
        { whole with
          invocations := continues_settle audited.distinct present same running }

/-- A transaction takes the progress of its job forward. -/
theorem Records.progress (records : Records call store id history written) :
    KeptKeys ReviewProgressRow.Continues history.progress written.progress := by
  cases records with
  | save inputKey row advances => exact keptKeys_set growth_progress advances
  | _ => exact growth_progress.keptKeys.refl history.progress

/-- A history that accounts for itself still does after a transaction. -/
theorem Records.audited (audited : history.Audited id)
    (records : Records call store id history written) : written.Audited id := by
  have distinct : written.invocationIds.Nodup := by
    rcases records.invocationIds with same | ⟨invocation, same, fresh, _⟩
    · rw [same]
      exact audited.distinct
    · rw [same, ← List.concat_eq_append, List.nodup_concat]
      exact ⟨fresh, audited.distinct⟩
  cases records with
  | start attempt =>
      refine { audited with
        attemptCount := ?_, retryEpoch := Nat.le_succ_of_le audited.retryEpoch, own := ?_ }
      · rw [audited.attemptCount, List.length_append]
        rfl
      · intro row member
        obtain ⟨own, known⟩ := audited.own row member
        refine ⟨own, ?_⟩
        rw [List.length_append]
        exact Nat.lt_succ_of_lt known
  | attempt number before after present continues =>
      refine { audited with attemptCount := ?_, own := ?_ }
      · rw [audited.attemptCount, List.length_set]
      · intro row member
        rw [List.length_set]
        exact audited.own row member
  | decide row _ absent accounted =>
      refine { audited with vote := ?_ }
      rintro vote ⟨⟩
      exact accounted
  | vote before after _ present continues accounted =>
      refine { audited with vote := ?_ }
      rintro vote ⟨⟩
      exact accounted (audited.vote before present)
  | invoke row own known fresh foreign =>
      refine { audited with own := ?_, distinct }
      intro other member
      rcases List.mem_append.mp member with before | new
      · exact audited.own other before
      · rw [List.mem_singleton.mp new]
        exact ⟨own, known⟩
  | settle row invocation present same running =>
      refine { audited with own := ?_, distinct }
      intro changed member
      unfold Store.updateInvocation at member
      obtain ⟨other, inside, isChanged⟩ := List.mem_map.mp member
      have kept := audited.own other inside
      split at isChanged
      · rw [← isChanged]
        exact kept
      · rw [← isChanged]
        exact kept
  | nothing => exact audited
  | policy policy unbound => exact { audited with }
  | result row absent => exact { audited with }
  | publish row absent => exact { audited with }
  | publication before after present continues => exact { audited with }
  | save inputKey row advances => exact { audited with }

end Records

/-- Every step of the system is one of the recordings. -/
theorem System.next_recording (hashes : Hashes) (lease : Time) (system : System)
    (label : SystemLabel) :
    Recording system.store label (system.next hashes lease label).store.histories := by
  have kept : ∀ {target : Store} {label : SystemLabel},
      target.histories = system.store.histories →
        Recording system.store label target.histories := by
    intro target label same
    rw [same]
    exact .nothing
  cases label with
  | tick elapsed => exact .nothing
  | claim worker locked => exact kept Store.histories_claimNext
  | work worker call =>
      rcases commit_store system (call.run hashes system.now lease worker system.store)
        with same | ⟨target, value, ran, same⟩
      · exact kept (by rw [next, same])
      · rw [next, same]
        exact (StoreCall.run_recorded ran).recording
  | enqueue event policyVersion =>
      rcases commitEnqueue_store system
          (system.store.enqueue system.now event policyVersion)
        with ⟨same, _⟩ | ⟨target, value, ran, same, _⟩
      · exact kept (by rw [next, same])
      · rw [next, same]
        exact Store.enqueue_recording ran
  | requeue id =>
      rcases commit_store system (system.store.requeueFailed system.now id)
        with same | ⟨target, value, ran, same⟩
      · exact kept (by rw [next, same])
      · rw [next, same]
        exact Store.requeueFailed_recording ran
  | upsertProject project enabled mode language vote =>
      rcases commit_store system
          (system.store.upsertProject system.now project enabled mode language vote)
        with same | ⟨target, value, ran, same⟩
      · exact kept (by rw [next, same])
      · rw [next, same]
        exact kept (Store.histories_upsertProject ran)
  | setProjectEnabled project enabled =>
      rcases commit_store system
          (system.store.setProjectEnabled system.now project enabled)
        with same | ⟨target, value, ran, same⟩
      · exact kept (by rw [next, same])
      · rw [next, same]
        exact kept (Store.histories_setProjectEnabled ran)
  | setProjectReviewStartMode project mode =>
      rcases commit_store system
          (system.store.setProjectReviewStartMode system.now project mode)
        with same | ⟨target, value, ran, same⟩
      · exact kept (by rw [next, same])
      · rw [next, same]
        exact kept (Store.histories_setProjectReviewStartMode ran)
  | setProjectReviewPolicy project language vote generation =>
      rcases commit_store system
          (system.store.setProjectReviewPolicy system.now project language vote generation)
        with same | ⟨target, value, ran, same⟩
      · exact kept (by rw [next, same])
      · rw [next, same]
        exact kept (congrArg (List.map Job.history) (Store.jobs_setProjectReviewPolicy ran))
  | prune retentionDays =>
      rw [next, Store.histories_pruneReviewRecoveryCache]
      exact .prune retentionDays _ rfl

/-! ## Every run -/

/-- Every history accounts for itself, and no two jobs share the identifier of a call. -/
structure Store.Audited (store : Store) : Prop where
  each : ∀ (id : JobId) (history : History), store.histories[id]? = some history →
    history.Audited id
  apart : ∀ (first second : JobId) (history other : History) (invocation : String),
    store.histories[first]? = some history → store.histories[second]? = some other →
      invocation ∈ history.invocationIds → invocation ∈ other.invocationIds →
        first = second

section Runs

variable {store target : Store} {hashes : Hashes} {lease : Time} {label : SystemLabel}

theorem History.Audited.of_blank {id : JobId} {history : History} (blank : history.Blank) :
    history.Audited id where
  attemptCount := by rw [blank.attemptCount, blank.attempts]; rfl
  retryEpoch := by rw [blank.retryEpoch]; exact Nat.zero_le _
  vote := by
    intro vote present
    cases blank.vote.symm.trans present
  own := by
    intro row member
    rw [blank.invocations] at member
    cases member
  distinct := by
    unfold History.invocationIds
    rw [blank.invocations]
    exact List.nodup_nil

theorem History.Audited.requeued {id : JobId} {history : History}
    (audited : history.Audited id) : history.requeued.Audited id where
  attemptCount := audited.attemptCount
  retryEpoch := Nat.le_refl _
  vote := audited.vote
  own := audited.own
  distinct := audited.distinct

theorem History.continues_requeued {id : JobId} {history : History}
    (audited : history.Audited id) : history.Continues history.requeued := by
  have whole := History.growth.refl history
  refine { whole with retryEpoch := audited.retryEpoch, publication := ?_ }
  intro publication present
  refine ⟨Store.requeuedPublication publication, ?_, ?_⟩
  · unfold History.requeued
    dsimp only
    rw [present]
    rfl
  · unfold Store.requeuedPublication
    split
    · exact ⟨rfl, rfl, rfl⟩
    · exact growth_publication.refl publication

/-- What a step records continues every history. -/
theorem Recording.continues (audited : store.Audited)
    (recording : Recording store label target.histories) :
    KeptAt History.Continues store.histories target.histories := by
  generalize target.histories = histories at recording
  cases recording with
  | nothing => exact History.growth.keptAt.refl _
  | work id _ _ history written _ _ present records =>
      exact keptAt_set History.growth present
        (records.continues (audited.each id history present))
  | enqueue history blank => exact keptAt_append History.growth
  | requeue id history requested present =>
      exact keptAt_set History.growth present
        (History.continues_requeued (audited.each id history present))
  | prune retentionDays progress requested =>
      intro id history present
      rw [List.getElem?_mapIdx, present]
      exact ⟨_, rfl, { History.growth.refl history with }⟩

/-- A step that is not the clean-up takes the progress of every job forward. -/
theorem Recording.progress (recording : Recording store label target.histories)
    {id : JobId} (elsewhere : ∀ retentionDays, label ≠ .prune retentionDays)
    {history later : History} (before : store.histories[id]? = some history)
    (after : target.histories[id]? = some later) :
    KeptKeys ReviewProgressRow.Continues history.progress later.progress := by
  have inside := (List.getElem?_eq_some_iff.mp before).1
  have kept : ∀ progress : Dict String ReviewProgressRow,
      KeptKeys ReviewProgressRow.Continues progress progress :=
    growth_progress.keptKeys.refl
  generalize target.histories = histories at recording after
  cases recording with
  | nothing =>
      cases before.symm.trans after
      exact kept _
  | work other _ _ known written _ _ present records =>
      by_cases same : other = id
      · rw [same] at present after
        rw [List.getElem?_set_self inside] at after
        cases before.symm.trans present
        cases after
        exact records.progress
      · rw [List.getElem?_set_ne same, before] at after
        cases after
        exact kept _
  | enqueue written blank =>
      rw [List.getElem?_append_left inside, before] at after
      cases after
      exact kept _
  | requeue other known requested present =>
      by_cases same : other = id
      · rw [same] at present after
        rw [List.getElem?_set_self inside] at after
        cases before.symm.trans present
        cases after
        exact kept _
      · rw [List.getElem?_set_ne same, before] at after
        cases after
        exact kept _
  | prune retentionDays progress requested =>
      exact absurd requested (elsewhere retentionDays)

/-- Only a requeue starts a retry epoch. -/
theorem Recording.retryEpoch (recording : Recording store label target.histories)
    {id : JobId} (elsewhere : label ≠ .requeue id) {history later : History}
    (before : store.histories[id]? = some history)
    (after : target.histories[id]? = some later) :
    later.retryEpochStartAttempt = history.retryEpochStartAttempt := by
  have inside := (List.getElem?_eq_some_iff.mp before).1
  generalize target.histories = histories at recording after
  cases recording with
  | nothing =>
      cases before.symm.trans after
      rfl
  | work other _ _ known written _ _ present records =>
      by_cases same : other = id
      · rw [same] at present after
        rw [List.getElem?_set_self inside] at after
        cases before.symm.trans present
        cases after
        cases records <;> rfl
      · rw [List.getElem?_set_ne same, before] at after
        cases after
        rfl
  | enqueue written blank =>
      rw [List.getElem?_append_left inside, before] at after
      cases after
      rfl
  | requeue other known requested present =>
      by_cases same : other = id
      · rw [same] at requested
        exact absurd requested elsewhere
      · rw [List.getElem?_set_ne same, before] at after
        cases after
        rfl
  | prune retentionDays progress requested =>
      rw [List.getElem?_mapIdx, before] at after
      cases after
      rfl

/-- One history is replaced by one that accounts for itself, whose calls are known ones of
the job or new ones. -/
theorem audited_set {id : JobId} {history written : History} (audited : store.Audited)
    (present : store.histories[id]? = some history) (accounts : written.Audited id)
    (calls : ∀ invocation ∈ written.invocationIds, invocation ∈ history.invocationIds ∨
      store.foreignInvocation id invocation = false)
    (same : target.histories = store.histories.set id written) : target.Audited := by
  have inside := (List.getElem?_eq_some_iff.mp present).1
  have known : ∀ {other : JobId} {found : History}, target.histories[other]? = some found →
      other = id ∧ found = written ∨ other ≠ id ∧ store.histories[other]? = some found := by
    intro other found reached
    rw [same] at reached
    by_cases equal : id = other
    · rw [← equal, List.getElem?_set_self inside] at reached
      exact Or.inl ⟨equal.symm, (Option.some.inj reached).symm⟩
    · rw [List.getElem?_set_ne equal] at reached
      exact Or.inr ⟨Ne.symm equal, reached⟩
  -- A call of another job is none of the written history.
  have foreign : ∀ {other : JobId} {found : History} {invocation : String}, other ≠ id →
      store.histories[other]? = some found → invocation ∈ written.invocationIds →
        invocation ∉ found.invocationIds := by
    intro other found invocation different reached member shared
    rcases calls invocation member with before | new
    · exact different (audited.apart other id found history invocation reached present
        shared before)
    · exact Store.foreign_of_histories new different reached shared
  constructor
  · intro other found reached
    rcases known reached with ⟨equal, isWritten⟩ | ⟨_, before⟩
    · rw [equal, isWritten]
      exact accounts
    · exact audited.each other found before
  · intro first second one other invocation isFirst isSecond member shared
    rcases known isFirst with ⟨equal, isWritten⟩ | ⟨different, before⟩
    · rcases known isSecond with ⟨again, _⟩ | ⟨apart, after⟩
      · rw [equal, again]
      · rw [isWritten] at member
        exact absurd shared (foreign apart after member)
    · rcases known isSecond with ⟨_, isWritten⟩ | ⟨_, after⟩
      · rw [isWritten] at shared
        exact absurd member (foreign different before shared)
      · exact audited.apart first second one other invocation before after member shared

theorem Recording.audited (audited : store.Audited)
    (recording : Recording store label target.histories) : target.Audited := by
  generalize same : target.histories = histories at recording
  cases recording with
  | nothing => exact ⟨by rw [same]; exact audited.each, by rw [same]; exact audited.apart⟩
  | work id _ _ history written _ _ present records =>
      have accounts := records.audited (audited.each id history present)
      apply audited_set audited present accounts _ same
      intro invocation member
      rcases records.invocationIds with kept | ⟨new, kept, _, foreign⟩
      · rw [kept] at member
        exact Or.inl member
      · rw [kept] at member
        rcases List.mem_append.mp member with before | isNew
        · exact Or.inl before
        · rw [List.mem_singleton.mp isNew]
          exact Or.inr foreign
  | requeue id history requested present =>
      exact audited_set audited present (audited.each id history present).requeued
        (fun _ => Or.inl) same
  | enqueue history blank =>
      have known : ∀ {other : JobId} {found : History},
          target.histories[other]? = some found →
            store.histories[other]? = some found ∨ found.Blank := by
        intro other found reached
        rw [same, List.getElem?_append] at reached
        split at reached
        · exact Or.inl reached
        · rw [List.getElem?_singleton] at reached
          split at reached
          · cases reached
            exact Or.inr blank
          · cases reached
      have silent : ∀ {found : History} {invocation : String}, found.Blank →
          invocation ∉ found.invocationIds := by
        intro found invocation isBlank member
        unfold History.invocationIds at member
        rw [isBlank.invocations] at member
        cases member
      constructor
      · intro other found reached
        rcases known reached with before | isBlank
        · exact audited.each other found before
        · exact History.Audited.of_blank isBlank
      · intro first second one other invocation isFirst isSecond member shared
        rcases known isFirst with before | isBlank
        · rcases known isSecond with after | isBlank
          · exact audited.apart first second one other invocation before after member shared
          · exact absurd shared (silent isBlank)
        · exact absurd member (silent isBlank)
  | prune retentionDays progress requested =>
      have known : ∀ {other : JobId} {found : History},
          target.histories[other]? = some found →
            ∃ history, store.histories[other]? = some history ∧
              found = { history with progress := progress other } := by
        intro other found reached
        rw [same, List.getElem?_mapIdx] at reached
        obtain ⟨history, present, isFound⟩ := Option.map_eq_some_iff.mp reached
        exact ⟨history, present, isFound.symm⟩
      constructor
      · intro other found reached
        obtain ⟨history, present, rfl⟩ := known reached
        exact { audited.each other history present with }
      · intro first second one other invocation isFirst isSecond member shared
        obtain ⟨history, present, rfl⟩ := known isFirst
        obtain ⟨another, found, rfl⟩ := known isSecond
        exact audited.apart first second history another invocation present found member shared

namespace System

variable {source final : System} {labels : List SystemLabel}

/-- In every reachable system the histories account for themselves. -/
theorem audited_of_reachable (reached : Reachable (step hashes lease) Initial source) :
    source.store.Audited := by
  apply @Reachable.invariant System SystemLabel (step hashes lease) Initial
    (fun system => system.store.Audited) _ _ source reached
  · intro first initial
    have none_ : first.store.histories = [] := by
      unfold Store.histories
      rw [initial.1]
      rfl
    constructor
    · intro id history present
      rw [none_] at present
      cases present
    · intro one other history _ _ present
      rw [none_] at present
      cases present
  · intro label before after audited stepped
    cases stepped
    exact (next_recording hashes lease before label).audited audited

/-- Along every run every history is continued. -/
theorem histories_continue (reached : Reachable (step hashes lease) Initial source)
    (ran : run (step hashes lease) labels source = some final) :
    KeptAt History.Continues source.store.histories final.store.histories := by
  have both := @run_preserves System SystemLabel (step hashes lease)
    (fun system => system.store.Audited ∧
      KeptAt History.Continues source.store.histories system.store.histories) labels
    (by
      intro label _ before after kept stepped
      cases stepped
      have recording := next_recording hashes lease before label
      exact ⟨recording.audited kept.1,
        History.growth.keptAt.trans kept.2 (recording.continues kept.1)⟩)
    source final
  exact (both ⟨audited_of_reachable reached, History.growth.keptAt.refl _⟩ ran).2

/-- Without a requeue the retry epoch stays. -/
theorem retryEpoch_of_run (reached : Reachable (step hashes lease) Initial source)
    (ran : run (step hashes lease) labels source = some final) {id : JobId}
    (elsewhere : SystemLabel.requeue id ∉ labels) {history later : History}
    (before : source.store.histories[id]? = some history)
    (after : final.store.histories[id]? = some later) :
    later.retryEpochStartAttempt = history.retryEpochStartAttempt := by
  have both := @run_preserves System SystemLabel (step hashes lease)
    (fun system => system.store.Audited ∧ ∃ known, system.store.histories[id]? = some known ∧
      known.retryEpochStartAttempt = history.retryEpochStartAttempt) labels
    (by
      intro label member before after kept stepped
      cases stepped
      have recording := next_recording hashes lease before label
      obtain ⟨audited, known, present, same⟩ := kept
      obtain ⟨next_, reached, _⟩ := recording.continues audited id known present
      refine ⟨recording.audited audited, next_, reached, ?_⟩
      rw [recording.retryEpoch _ present reached, same]
      intro requested
      rw [requested] at member
      exact elsewhere member)
    source final
  obtain ⟨_, known, present, same⟩ :=
    both ⟨audited_of_reachable reached, history, before, rfl⟩ ran
  cases after.symm.trans present
  exact same

/-- A job and what has become of it. -/
theorem job_continues (reached : Reachable (step hashes lease) Initial source)
    (ran : run (step hashes lease) labels source = some final) {id : JobId} {job : Job}
    (found : source.store.jobs[id]? = some job) :
    ∃ later, final.store.jobs[id]? = some later ∧
      job.history.Continues later.history ∧ later.history.Audited id := by
  obtain ⟨history, present, continues⟩ :=
    histories_continue reached ran id job.history (Store.getElem?_histories found)
  obtain ⟨later, isLater, rfl⟩ := Store.of_getElem?_histories present
  exact ⟨later, isLater, continues,
    (audited_of_reachable (reached.extend ran)).each id _ present⟩

end System

end Runs

end PeReview
