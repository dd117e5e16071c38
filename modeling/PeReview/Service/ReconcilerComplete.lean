import PeReview.Service.Reconciler

/-!
# The reconciler misses nothing

A pass reads its scopes, asks for the changes since the watermark of the passes
before it, and moves the watermark to the time it began at.  What an incremental
pass does not ask for is covered by the passes before it, unless a project has come
in since: a project with a cutoff only takes in what is newer, and one that includes
the open changes is dated after the last full sweep and so calls for the next.  The
second needs a commit that is dated after the sweeps that cannot have seen it.
-/

namespace PeReview

open PeReview.Data
open PeReview.Process

namespace Store

variable {store target : Store}

def HasJob (store : Store) (policyVersion : String) (change : OpenChange) : Prop :=
  ∃ job ∈ store.jobs, job.project = change.project ∧
    job.changeNumber = change.changeNumber ∧
      job.revisionSha = change.currentRevision ∧
        job.reviewPolicyVersion = policyVersion

/-- A transaction that keeps every key keeps every job. -/
theorem HasJob.keep {policyVersion : String} {change : OpenChange}
    (keys : ∀ key ∈ store.jobs.map Job.key, key ∈ target.jobs.map Job.key)
    (known : store.HasJob policyVersion change) :
    target.HasJob policyVersion change := by
  obtain ⟨job, member, project, number, revision, version⟩ := known
  obtain ⟨kept, keptMember, same⟩ :=
    List.mem_map.mp (keys job.key (List.mem_map_of_mem member))
  simp only [Job.key, Prod.mk.injEq] at same
  obtain ⟨sameProject, sameNumber, _, sameRevision, sameVersion⟩ := same
  exact
    ⟨kept, keptMember, sameProject.trans project, sameNumber.trans number,
      sameRevision.trans revision, sameVersion.trans version⟩

theorem keys_setJob {id : JobId} {job written : Job}
    (found : store.jobs[id]? = some job) (same : written.key = job.key) :
    (store.setJob id written).jobs.map Job.key = store.jobs.map Job.key := by
  obtain ⟨inside, known⟩ := List.getElem?_eq_some_iff.mp found
  have keyed : (store.jobs.map Job.key)[id]? = some job.key := by
    rw [List.getElem?_map, found]
    rfl
  obtain ⟨keyInside, keySame⟩ := List.getElem?_eq_some_iff.mp keyed
  rw [setJob, List.map_set, same, ← keySame, List.set_getElem_self]

/-- Ordering the patch sets keeps the job of an event. -/
theorem ordering_known {id : JobId} {job : Job} {event : GerritPatchsetEvent}
    {policyVersion : String} (found : store.jobs[id]? = some job)
    (identity : job.hasIdentity event policyVersion) :
    ∃ kept ∈ (store.applyPatchsetOrdering id job).jobs,
      kept.hasIdentity event policyVersion := by
  have keyed : job.key ∈ (store.applyPatchsetOrdering id job).jobs.map Job.key := by
    rw [keys_applyPatchsetOrdering found]
    exact List.mem_map_of_mem (List.mem_of_getElem? found)
  obtain ⟨kept, member, same⟩ := List.mem_map.mp keyed
  refine ⟨kept, member, ?_⟩
  rw [Job.hasIdentity_congr same]
  exact identity

/-- An enqueue keeps the keys and leaves a job for its event. -/
theorem enqueue_known {now : Time} {event : GerritPatchsetEvent}
    {policyVersion : String} {answer : JobRecord × Bool}
    (ran : store.enqueue now event policyVersion = .ok (target, answer)) :
    target.projects = store.projects ∧
      (∀ key ∈ store.jobs.map Job.key, key ∈ target.jobs.map Job.key) ∧
        ∃ job ∈ target.jobs, job.hasIdentity event policyVersion := by
  obtain ⟨record, created⟩ := answer
  simp only [enqueue] at ran
  split at ran
  · obtain ⟨rfl, _, _⟩ := orderAndRead_eq_ok ran
    let job := insertedJob now event policyVersion
      (predatesCutoff (store.managedProject event.project) event)
    have found : (store.jobs ++ [job])[store.jobs.length]? = some job :=
      List.getElem?_concat_length
    have identity : job.hasIdentity event policyVersion :=
      Job.hasIdentity_iff.mpr ⟨rfl, rfl, rfl, rfl⟩
    refine ⟨projects_applyPatchsetOrdering, ?_, ordering_known found identity⟩
    intro key member
    rw [keys_applyPatchsetOrdering found, List.map_append]
    exact List.mem_append_left _ member
  · rename_i id identified
    split at ran
    · cases ran
    · rename_i known found
      obtain ⟨rfl, _, _⟩ := orderAndRead_eq_ok ran
      let job :=
        if revives (store.managedProject event.project) known then revivedJob now known
        else known
      have same : job.key = known.key := by
        unfold job
        split
        · rfl
        · rfl
      have written : (store.setJob id job).jobs[id]? = some job :=
        List.getElem?_set_self (List.getElem?_eq_some_iff.mp found).1
      have identity : job.hasIdentity event policyVersion := by
        rw [Job.hasIdentity_congr same]
        exact identified_eq_some identified found
      refine ⟨projects_applyPatchsetOrdering, ?_, ordering_known written identity⟩
      intro key member
      rw [keys_applyPatchsetOrdering written, keys_setJob found same]
      exact member

/-- The jobs an admin transaction skips keep their keys. -/
theorem keys_skipBefore {now : Time} {project : String} {cutoff : Option Time} :
    (store.skipBefore now project cutoff).jobs.map Job.key =
      store.jobs.map Job.key := by
  cases cutoff with
  | none =>
      rfl
  | some cutoff =>
      simp only [skipBefore, skipPreCutoffJobs, List.map_map]
      apply List.map_congr_left
      intro job _
      simp only [Function.comp_apply]
      split
      · rfl
      · rfl

@[simp]
theorem projects_skipBefore {now : Time} {project : String} {cutoff : Option Time} :
    (store.skipBefore now project cutoff).projects = store.projects := by
  cases cutoff with
  | none =>
      rfl
  | some cutoff =>
      rfl

end Store

namespace AdminOperation

/-- An operation that leaves a project enabled sets its start, or keeps a cutoff. -/
inductive Opens (stamp : Time) (operation : AdminOperation) (store : Store)
    (row : ManagedProject) : Prop
  | sets (opens : operation.opens store = some row.reviewStartMode)
      (start : row.reviewStartMode = .fromNow → row.reviewStartAt = some stamp)
  | keeps (mode : row.reviewStartMode = .fromNow) (old : ManagedProject)
      (member : old ∈ store.projects) (enabled : old.enabled)
      (project : old.project = row.project) (oldMode : old.reviewStartMode = .fromNow)
      (start : old.reviewStartAt = row.reviewStartAt)

structure Wrote (stamp : Time) (operation : AdminOperation) (store target : Store)
    (row : ManagedProject) : Prop where
  keys : target.jobs.map Job.key = store.jobs.map Job.key
  distinct : (store.projects.map ManagedProject.project).Nodup →
    (target.projects.map ManagedProject.project).Nodup
  rows : ∀ other ∈ target.projects, other ∈ store.projects ∨ other = row
  updatedAt : row.updatedAt = stamp
  opens : row.enabled → operation.Opens stamp store row
  named : ∀ old ∈ operation.row store, old.project = row.project

variable {store target : Store} {stamp : Time} {row : ManagedProject}

/-- Writing the row of a project keeps the others. -/
theorem setProject_rows {other : ManagedProject}
    (member : other ∈ (store.setProject row).projects) :
    other ∈ store.projects ∨ other = row := by
  obtain ⟨old, oldMember, rfl⟩ := List.mem_map.mp member
  split
  · exact .inr rfl
  · exact .inl oldMember

theorem setProject_names :
    (store.setProject row).projects.map ManagedProject.project =
      store.projects.map ManagedProject.project := by
  simp only [Store.setProject, List.map_map]
  apply List.map_congr_left
  intro other _
  simp only [Function.comp_apply]
  split
  · rename_i same
    exact same.symm
  · rfl

/-- A transaction that writes the row of a project. -/
theorem Wrote.update {operation : AdminOperation} (cutoff : Option Time)
    (written : target = (store.setProject row).skipBefore stamp row.project cutoff)
    (updatedAt : row.updatedAt = stamp)
    (opens : row.enabled → operation.Opens stamp store row)
    (named : ∀ old ∈ operation.row store, old.project = row.project) :
    operation.Wrote stamp store target row where
  keys := by
    rw [written]
    exact Store.keys_skipBefore
  distinct distinct := by
    rw [written, Store.projects_skipBefore, setProject_names]
    exact distinct
  rows other member := by
    rw [written, Store.projects_skipBefore] at member
    exact setProject_rows member
  updatedAt := updatedAt
  opens := opens
  named := named

/-- A transaction that adds a project. -/
theorem Wrote.insert {operation : AdminOperation} (cutoff : Option Time)
    (absent : store.managedProject row.project = none)
    (updatedAt : row.updatedAt = stamp)
    (opens : row.enabled → operation.Opens stamp store row)
    (named : ∀ old ∈ operation.row store, old.project = row.project) :
    operation.Wrote stamp store
      (Store.skipBefore { store with projects := store.projects ++ [row] } stamp
        row.project cutoff) row where
  keys := Store.keys_skipBefore
  distinct distinct := by
    rw [Store.projects_skipBefore, List.map_append]
    apply List.Nodup.append distinct (List.nodup_singleton _)
    intro name known new
    obtain ⟨other, member, rfl⟩ := List.mem_map.mp known
    have named : other.project = row.project := by simpa using new
    exact List.find?_eq_none.mp absent other member (by simpa using named)
  rows other member := by
    rw [Store.projects_skipBefore, List.mem_append, List.mem_singleton] at member
    exact member
  updatedAt := updatedAt
  opens := opens
  named := named

theorem named_row {project : String} {old : ManagedProject}
    (known : old ∈ store.managedProject project) : old.project = project := by
  simpa using List.find?_some known

theorem mem_row {operation : AdminOperation} {old : ManagedProject}
    (known : old ∈ operation.row store) : old ∈ store.projects := by
  cases operation with
  | upsertProject | setProjectEnabled | setProjectReviewStartMode
  | setProjectReviewPolicy => exact List.mem_of_find?_eq_some known

theorem upsertProject_wrote {project : String} {language : Option String} {enabled : Bool}
    {vote : Option Bool} {mode : ProjectReviewStartMode}
    (ran : (upsertProject project enabled mode language vote).run stamp store =
      .ok (target, row)) :
    (upsertProject project enabled mode language vote).Wrote stamp store target row := by
  simp only [run, Store.upsertProject] at ran
  obtain ⟨_, _, ran⟩ := Except.bind_eq_ok.mp ran
  obtain ⟨_, _, ran⟩ := Except.bind_eq_ok.mp ran
  obtain ⟨_, _, ran⟩ := Except.bind_eq_ok.mp ran
  cases found : store.projects.find? fun row => row.project = pyStrip project with
  | none =>
      simp only [found, Option.isSome_none, Bool.false_eq_true, if_false] at ran
      cases ran
      apply Wrote.insert
      · exact found
      · rfl
      · intro opened
        refine .sets (if_pos opened) fun fromNow => ?_
        subst fromNow
        rfl
      · intro old known
        exact named_row known
  | some old =>
      have named : old.project = pyStrip project := by
        simpa using List.find?_some found
      simp only [found, Option.isSome_some, if_true] at ran
      rw [← named] at ran
      cases ran
      apply Wrote.update
      · rfl
      · rfl
      · intro opened
        refine .sets (if_pos opened) fun fromNow => ?_
        subst fromNow
        rfl
      · intro other known
        exact (named_row known).trans named.symm

/-- The row is dated when it is enabled in the mode that starts from now on. -/
theorem setProjectEnabled_wrote {project : String} {enabled : Bool}
    (ran : (setProjectEnabled project enabled).run stamp store = .ok (target, row)) :
    (setProjectEnabled project enabled).Wrote stamp store target row := by
  simp only [run, Store.setProjectEnabled] at ran
  split at ran
  · cases ran
  · rename_i old found
    have known : store.managedProject project = some old := found
    have same : ∀ other ∈ (setProjectEnabled project enabled).row store,
        other.project = old.project := by
      intro other before
      rw [AdminOperation.row, known] at before
      cases before
      rfl
    split at ran
    · cases ran
      apply Wrote.update (some stamp)
      · rfl
      · rfl
      · intro opened
        refine .sets ?_ fun _ => rfl
        rw [opens, known]
        exact if_pos opened
      · exact same
    · rename_i other
      cases ran
      apply Wrote.update none
      · rfl
      · rfl
      · intro opened
        refine .sets ?_ fun fromNow =>
          absurd (by simpa using ⟨opened, fromNow⟩) other
        rw [opens, known]
        exact if_pos opened
      · exact same

theorem setProjectReviewStartMode_wrote {project : String} {mode : ProjectReviewStartMode}
    (ran : (setProjectReviewStartMode project mode).run stamp store = .ok (target, row)) :
    (setProjectReviewStartMode project mode).Wrote stamp store target row := by
  simp only [run, Store.setProjectReviewStartMode] at ran
  split at ran
  · cases ran
  · rename_i old found
    have known : store.managedProject project = some old := found
    cases ran
    apply Wrote.update
    · rfl
    · rfl
    · intro opened
      have wasOpen : (store.managedProject project).any ManagedProject.enabled := by
        rw [known]
        exact opened
      refine .sets (if_pos wasOpen) fun fromNow => ?_
      subst fromNow
      rfl
    · intro other before
      rw [AdminOperation.row, known] at before
      cases before
      rfl

/-- A policy that changes nothing writes nothing; one that changes keeps a cutoff. -/
theorem setProjectReviewPolicy_wrote {project language : String} {vote : Bool}
    {generation : Nat}
    (ran : (setProjectReviewPolicy project language vote generation).run stamp store =
      .ok (target, row)) :
    target = store ∨
      (setProjectReviewPolicy project language vote generation).Wrote stamp store target
        row := by
  simp only [run, Store.setProjectReviewPolicy] at ran
  obtain ⟨_, _, ran⟩ := Except.bind_eq_ok.mp ran
  split at ran
  · cases ran
  · rename_i old found
    have known : store.managedProject project = some old := found
    split at ran
    · cases ran
    split at ran
    · cases ran
      exact .inl rfl
    · rename_i changed
      cases ran
      right
      apply Wrote.update none
      · rfl
      · rfl
      · intro opened
        cases mode : old.reviewStartMode with
        | includeOpen =>
            refine .sets ?_ nofun
            have enabled : old.enabled = true := opened
            rw [opens, known]
            simpa [enabled, mode] using changed
        | fromNow =>
            exact .keeps rfl old (List.mem_of_find?_eq_some found) opened rfl mode rfl
      · intro other before
        rw [AdminOperation.row, known] at before
        cases before
        rfl

theorem run_wrote {operation : AdminOperation}
    (ran : operation.run stamp store = .ok (target, row)) :
    target = store ∨ operation.Wrote stamp store target row := by
  cases operation with
  | upsertProject => exact .inr (upsertProject_wrote ran)
  | setProjectEnabled => exact .inr (setProjectEnabled_wrote ran)
  | setProjectReviewStartMode => exact .inr (setProjectReviewStartMode_wrote ran)
  | setProjectReviewPolicy => exact setProjectReviewPolicy_wrote ran

end AdminOperation

/-- A scope takes in the current revision of a change. -/
def ManagedProject.Admits (scope : ManagedProject) (change : OpenChange) : Prop :=
  scope.project = change.project ∧
    (scope.reviewStartMode = .fromNow → ∀ cutoff ∈ scope.reviewStartAt,
      ∃ created ∈ change.revisionCreated, cutoff ≤ created)

namespace Reconciler

section Invariants

variable (settings : ReconcilerSettings)

def Done (state : Reconciler) (change : OpenChange) : Prop :=
  state.store.HasJob settings.policyVersion change

/-- A project calls for a full sweep. -/
def Calls (lastFullSweep : Option Time) (row : ManagedProject) : Prop :=
  row.reviewStartMode = .includeOpen ∧ ∀ last ∈ lastFullSweep, last < row.updatedAt

/-- A project takes in nothing that was last updated so long before a time. -/
def Recent (row : ManagedProject) (time : Time) : Prop :=
  row.reviewStartMode = .fromNow ∧
    ∃ cutoff ∈ row.reviewStartAt, time ≤ cutoff + overlap settings

/-- How the row of an enabled project relates to the scopes a sweep has read. -/
inductive Follows (sweep : Sweep) (lastFullSweep : Option Time)
    (row : ManagedProject) : Prop
  | read (scope : ManagedProject) (member : scope ∈ sweep.scopes)
      (same : ∀ change, row.Admits change → scope.Admits change)
  | calls (calls : Calls lastFullSweep row)
      (later : sweep.full → sweep.started < row.updatedAt)
  | recent (recent : Recent settings row sweep.started)

structure Underway (sweep : Sweep) (state : Reconciler) : Prop where
  started : sweep.started ≤ state.now
  marked : ∀ mark ∈ state.watermark, mark ≤ sweep.started
  distinct : (sweep.scopes.map ManagedProject.project).Nodup
  follows : ∀ row ∈ state.store.projects, row.enabled →
    Follows settings sweep state.lastFullSweep row

/-- What the watermark stands for: older changes have a job. -/
def Covered (scopes : List ManagedProject) (state : Reconciler)
    (spared : ManagedProject → Prop) : Prop :=
  ∀ mark ∈ state.watermark, ∀ live ∈ state.changes, live.isOpen →
    ∀ scope ∈ scopes, scope.Admits live.change →
      live.updatedAt + overlap settings < mark →
        state.Done settings live.change ∨ spared scope

/-- The changes a query was answered with have a job, or an event that waits. -/
def Answered (sweep : Sweep) (seen : List LiveChange)
    (events : List GerritPatchsetEvent) (state : Reconciler) : Prop :=
  ∀ live ∈ seen, live.isOpen → ∀ scope ∈ sweep.scopes, scope.Admits live.change →
    state.Done settings live.change ∨
      reconciliationEvent settings.uploader live.change ∈ events

/-- What the query has not seen is newer than the sweep. -/
def Seen (sweep : Sweep) (seen : List LiveChange) (state : Reconciler) : Prop :=
  ∀ live ∈ state.changes, live.updatedAt < sweep.started → live ∈ seen

/-- What holds of the pass under way. -/
def PassInvariant (state : Reconciler) : Pass → Prop
  | .idle => True
  | .started began =>
      began ≤ state.now ∧ ∀ mark ∈ state.watermark, mark ≤ began
  | .querying sweep =>
      Underway settings sweep state ∧
        (sweep.full = false → Covered settings sweep.scopes state fun _ => False)
  | .enqueueing sweep seen events =>
      Underway settings sweep state ∧ Seen sweep seen state ∧
        Answered settings sweep seen events state
  | .advanced sweep seen =>
      Underway settings sweep state ∧ Seen sweep seen state ∧
        Answered settings sweep seen [] state ∧ sweep.full = true
  | .succeeded sweep seen => Answered settings sweep seen [] state

structure Invariant (state : Reconciler) : Prop where
  distinct : (state.store.projects.map ManagedProject.project).Nodup
  marked : ∀ mark ∈ state.watermark, mark ≤ state.now
  covered : Covered settings (state.store.projects.filter ManagedProject.enabled) state
    (Calls state.lastFullSweep)
  pass : PassInvariant settings state state.pass

end Invariants

variable {settings : ReconcilerSettings} {source target : Reconciler}

/-- A change a recent project takes in is recent. -/
theorem Recent.not_before {row : ManagedProject} {time : Time} {live : LiveChange}
    (recent : Recent settings row time) (admits : row.Admits live.change) :
    time ≤ live.updatedAt + overlap settings := by
  obtain ⟨mode, cutoff, start, bound⟩ := recent
  obtain ⟨created, known, since⟩ := admits.2 mode cutoff start
  have ordered : cutoff ≤ live.updatedAt :=
    Nat.le_trans since (live.ordered created known)
  exact Nat.le_trans bound (Nat.add_le_add_right ordered _)

/-- The rows take in the same changes, and call for a full sweep alike. -/
structure SameScope (old row : ManagedProject) : Prop where
  project : old.project = row.project
  mode : old.reviewStartMode = row.reviewStartMode
  start : old.reviewStartAt = row.reviewStartAt
  dated : row.reviewStartMode = .includeOpen → old.updatedAt = row.updatedAt

namespace SameScope

variable {old row : ManagedProject}

theorem refl (row : ManagedProject) : SameScope row row :=
  ⟨rfl, rfl, rfl, fun _ => rfl⟩

theorem admits (same : SameScope old row) {change : OpenChange}
    (admits : row.Admits change) : old.Admits change := by
  refine ⟨same.project.trans admits.1, fun mode => ?_⟩
  rw [same.start]
  exact admits.2 (same.mode.symm.trans mode)

theorem calls (same : SameScope old row) {lastFullSweep : Option Time}
    (calls : Calls lastFullSweep old) : Calls lastFullSweep row := by
  have mode := same.mode.symm.trans calls.1
  exact ⟨mode, fun last known => by rw [← same.dated mode]; exact calls.2 last known⟩

theorem follows (same : SameScope old row) {sweep : Sweep} {lastFullSweep : Option Time}
    (follows : Follows settings sweep lastFullSweep old) :
    Follows settings sweep lastFullSweep row := by
  cases follows with
  | read scope member admitted =>
      exact .read scope member fun change admits => admitted change (same.admits admits)
  | calls calls later =>
      refine .calls (same.calls calls) fun full => ?_
      rw [← same.dated (same.mode.symm.trans calls.1)]
      exact later full
  | recent recent =>
      refine .recent ⟨same.mode.symm.trans recent.1, ?_⟩
      rw [← same.start]
      exact recent.2

end SameScope

/-- How a row that is written stands to the marks: it calls for a full sweep, is newer, or
takes in no more than an enabled row whose call has been answered. -/
inductive Joins (settings : ReconcilerSettings) (state : Reconciler)
    (row : ManagedProject) : Prop
  | calls (calls : Calls state.lastFullSweep row)
  | recent (recent : ∀ mark ∈ state.watermark, Recent settings row mark)
  | swept (old : ManagedProject) (member : old ∈ state.store.projects)
      (enabled : old.enabled) (quiet : ¬Calls state.lastFullSweep old)
      (same : ∀ change, row.Admits change → old.Admits change)

/-- A step of the others: the pass and its marks stay, the jobs keep their keys, and
what is new is newer than the marks and the scopes that have been read. -/
structure Interferes (settings : ReconcilerSettings) (source target : Reconciler) :
    Prop where
  pass : target.pass = source.pass
  watermark : target.watermark = source.watermark
  lastFullSweep : target.lastFullSweep = source.lastFullSweep
  now : source.now ≤ target.now
  keys : ∀ key ∈ source.store.jobs.map Job.key, key ∈ target.store.jobs.map Job.key
  changes : ∀ live ∈ target.changes,
    live ∈ source.changes ∨ live.updatedAt = source.now
  distinct : (source.store.projects.map ManagedProject.project).Nodup →
    (target.store.projects.map ManagedProject.project).Nodup
  rows : ∀ row ∈ target.store.projects, row.enabled →
    (∃ old ∈ source.store.projects, old.enabled ∧ SameScope old row) ∨
      Joins settings source row ∧
        ∀ sweep ∈ source.pass.sweep?, Follows settings sweep source.lastFullSweep row

namespace Interferes

theorem done (interferes : Interferes settings source target) {change : OpenChange}
    (known : source.Done settings change) : target.Done settings change :=
  known.keep interferes.keys

theorem answered (interferes : Interferes settings source target) {sweep : Sweep}
    {seen : List LiveChange} {events : List GerritPatchsetEvent}
    (before : Answered settings sweep seen events source) :
    Answered settings sweep seen events target := by
  intro live member opened scope scopeMember admits
  rcases before live member opened scope scopeMember admits with known | waiting
  · exact .inl (interferes.done known)
  · exact .inr waiting

theorem seen (interferes : Interferes settings source target) {sweep : Sweep}
    {seen : List LiveChange} (started : sweep.started ≤ source.now)
    (before : Seen sweep seen source) : Seen sweep seen target := by
  intro live member older
  rcases interferes.changes live member with known | updated
  · exact before live known older
  · rw [updated] at older
    exact absurd older (Nat.not_lt.mpr started)

theorem underway (interferes : Interferes settings source target) {sweep : Sweep}
    (current : source.pass.sweep? = some sweep)
    (before : Underway settings sweep source) : Underway settings sweep target where
  started := Nat.le_trans before.started interferes.now
  marked := by
    rw [interferes.watermark]
    exact before.marked
  distinct := before.distinct
  follows row member opened := by
    rw [interferes.lastFullSweep]
    rcases interferes.rows row member opened with ⟨old, known, enabled, same⟩ | ⟨_, follows⟩
    · exact same.follows (before.follows old known enabled)
    · exact follows sweep current

/-- The older changes keep their jobs. -/
theorem covered (interferes : Interferes settings source target)
    (marked : ∀ mark ∈ source.watermark, mark ≤ source.now)
    {scopes : List ManagedProject} {spared : ManagedProject → Prop}
    (before : Covered settings scopes source spared) :
    Covered settings scopes target spared := by
  intro mark current live member opened scope scopeMember admits older
  rw [interferes.watermark] at current
  rcases interferes.changes live member with known | updated
  · rcases before mark current live known opened scope scopeMember admits older with
      done | spare
    · exact .inl (interferes.done done)
    · exact .inr spare
  · rw [updated] at older
    have bound : mark ≤ source.now + overlap settings :=
      Nat.le_trans (marked mark current) (Nat.le_add_right _ _)
    exact absurd older (Nat.not_lt.mpr bound)

theorem passInvariant (interferes : Interferes settings source target)
    (before : Invariant settings source) :
    PassInvariant settings target source.pass := by
  have holds := before.pass
  cases under : source.pass with
  | idle =>
      exact True.intro
  | started began =>
      rw [under] at holds
      refine ⟨Nat.le_trans holds.1 interferes.now, ?_⟩
      rw [interferes.watermark]
      exact holds.2
  | querying sweep =>
      rw [under] at holds
      refine ⟨interferes.underway (by rw [under]; rfl) holds.1, ?_⟩
      intro incremental
      exact interferes.covered before.marked (holds.2 incremental)
  | enqueueing sweep seen events =>
      rw [under] at holds
      obtain ⟨underway, current, answered⟩ := holds
      exact
        ⟨interferes.underway (by rw [under]; rfl) underway,
          interferes.seen underway.started current, interferes.answered answered⟩
  | advanced sweep seen =>
      rw [under] at holds
      obtain ⟨underway, current, answered, full⟩ := holds
      exact
        ⟨interferes.underway (by rw [under]; rfl) underway,
          interferes.seen underway.started current, interferes.answered answered, full⟩
  | succeeded sweep seen =>
      rw [under] at holds
      exact interferes.answered holds

theorem invariant (interferes : Interferes settings source target)
    (before : Invariant settings source) : Invariant settings target where
  distinct := interferes.distinct before.distinct
  marked mark current := by
    rw [interferes.watermark] at current
    exact Nat.le_trans (before.marked mark current) interferes.now
  covered := by
    intro mark current live member opened row rowMember admits older
    rw [interferes.lastFullSweep]
    obtain ⟨rowMember, enabled⟩ := List.mem_filter.mp rowMember
    rcases interferes.rows row rowMember enabled with
      ⟨old, known, wasEnabled, same⟩ | ⟨joins, _⟩
    · have covered := interferes.covered before.marked before.covered mark current live
        member opened old (List.mem_filter.mpr ⟨known, wasEnabled⟩) (same.admits admits) older
      exact covered.imp_right same.calls
    · cases joins with
      | calls calls => exact .inr calls
      | recent recent =>
          rw [interferes.watermark] at current
          have bound := (recent mark current).not_before admits
          exact absurd older (Nat.not_lt.mpr bound)
      | swept old known wasEnabled quiet same =>
          left
          have covered := interferes.covered before.marked before.covered mark current live
            member opened old (List.mem_filter.mpr ⟨known, wasEnabled⟩) (same _ admits) older
          exact covered.resolve_right quiet
  pass := by
    rw [interferes.pass]
    exact interferes.passInvariant before

/-- A transaction of the store that keeps the keys of the jobs and the projects. -/
theorem ofStore {store : Store} (projects : store.projects = source.store.projects)
    (keys : ∀ key ∈ source.store.jobs.map Job.key, key ∈ store.jobs.map Job.key) :
    Interferes settings source { source with store } where
  pass := rfl
  watermark := rfl
  lastFullSweep := rfl
  now := Nat.le_refl _
  keys := keys
  changes live member := .inl member
  distinct distinct := by
    rw [projects]
    exact distinct
  rows row member enabled := by
    rw [projects] at member
    exact .inl ⟨row, member, enabled, .refl row⟩

theorem refl (state : Reconciler) : Interferes settings state state :=
  ofStore rfl fun _ member => member

/-- Time passes, or a change is updated. -/
theorem ofServer {now : Time} {changes : List LiveChange} (later : source.now ≤ now)
    (updated : ∀ live ∈ changes,
      live ∈ source.changes ∨ live.updatedAt = source.now) :
    Interferes settings source { source with now, changes } where
  pass := rfl
  watermark := rfl
  lastFullSweep := rfl
  now := later
  keys _ member := member
  changes := updated
  distinct distinct := distinct
  rows row member enabled := .inl ⟨row, member, enabled, .refl row⟩

/-- What `includes` says of a sweep. -/
theorem follows_of_includes {sweep : Sweep} {old row : ManagedProject}
    (included : includes sweep old = true) (same : old.project = row.project) :
    Follows settings sweep source.lastFullSweep row := by
  obtain ⟨scope, member, holds⟩ := List.any_eq_true.mp included
  simp only [Bool.and_eq_true, decide_eq_true_eq] at holds
  refine .read scope member fun change admits => ?_
  refine ⟨holds.1.trans (same.trans admits.1), fun fromNow => ?_⟩
  rw [holds.2] at fromNow
  cases fromNow

/-- An admin transaction that leaves a project open with all its changes. -/
theorem ofIncludeOpen {stamp : Time} {operation : AdminOperation} {store : Store}
    {row : ManagedProject} (wrote : operation.Wrote stamp source.store store row)
    (opens : operation.opens source.store = some .includeOpen)
    (mode : row.reviewStartMode = .includeOpen)
    (inTime : timely settings (.admin stamp operation) source = true) :
    Joins settings source row ∧
      ∀ sweep ∈ source.pass.sweep?, Follows settings sweep source.lastFullSweep row := by
  simp only [timely, opens, Bool.and_eq_true, Bool.or_eq_true,
    Option.any_eq_true, Option.all_eq_true, decide_eq_true_eq, Bool.not_eq_true'] at inTime
  obtain ⟨afterMark, afterPass⟩ := inTime
  have calls : (∀ mark ∈ source.lastFullSweep, mark < stamp) →
      Calls source.lastFullSweep row := by
    intro dated
    refine ⟨mode, fun last known => ?_⟩
    rw [wrote.updatedAt]
    exact dated last known
  constructor
  · rcases afterMark with dated | ⟨old, known, swept⟩
    · exact .calls (calls dated)
    · obtain ⟨member, same⟩ : old ∈ source.store.projects ∧ old.project = row.project :=
        ⟨AdminOperation.mem_row known, wrote.named old known⟩
      simp only [sweptBefore, Bool.and_eq_true, decide_eq_true_eq, Option.any_eq_true] at swept
      obtain ⟨⟨enabled, open_⟩, mark, marked, older⟩ := swept
      refine .swept old member enabled ?_ fun change admits => ⟨same.trans admits.1, ?_⟩
      · intro calls
        exact absurd (calls.2 mark marked) (Nat.not_lt.mpr older)
      · intro fromNow
        rw [open_] at fromNow
        cases fromNow
  · intro sweep under
    rcases afterPass sweep under with ⟨dated, partly | later⟩ | ⟨old, known, included⟩
    · exact .calls (calls dated) fun full => by
        rw [partly] at full
        cases full
    · exact .calls (calls dated) fun _ => by
        rw [wrote.updatedAt]
        exact later
    · exact follows_of_includes included (wrote.named old known)

/-- An admin transaction that is not too late. -/
theorem ofAdmin {stamp : Time} {operation : AdminOperation} {store : Store}
    {row : ManagedProject} (wrote : operation.Wrote stamp source.store store row)
    (inTime : timely settings (.admin stamp operation) source = true) :
    Interferes settings source { source with store } where
  pass := rfl
  watermark := rfl
  lastFullSweep := rfl
  now := Nat.le_refl _
  keys key member := by
    rw [wrote.keys]
    exact member
  changes live member := .inl member
  distinct := wrote.distinct
  rows other member opened := by
    rcases wrote.rows other member with known | rfl
    · exact .inl ⟨other, known, opened, .refl other⟩
    · cases wrote.opens opened with
      | keeps mode old known enabled project oldMode start =>
          exact .inl ⟨old, known, enabled, project, oldMode.trans mode.symm, start,
            fun includeOpen => by cases mode.symm.trans includeOpen⟩
      | sets opens start =>
          right
          cases mode : other.reviewStartMode with
          | includeOpen => exact ofIncludeOpen wrote (opens.trans (congrArg _ mode)) mode inTime
          | fromNow =>
              simp only [timely, opens, mode, Bool.and_eq_true, Option.all_eq_true,
                decide_eq_true_eq] at inTime
              obtain ⟨afterMark, afterPass⟩ := inTime
              have began : stamp ∈ other.reviewStartAt := start mode
              refine ⟨.recent ?_, ?_⟩
              · intro mark known
                exact ⟨mode, stamp, began, afterMark mark known⟩
              · intro sweep under
                exact .recent ⟨mode, stamp, began, afterPass sweep under⟩

end Interferes

/-- The store an enqueue commits, or the old one when it raised. -/
theorem Interferes.ofEnqueue {event : GerritPatchsetEvent} :
    Interferes settings source
      (source.commit
        (source.store.enqueue source.now event settings.policyVersion)) := by
  cases ran : source.store.enqueue source.now event settings.policyVersion with
  | error raised =>
      exact refl source
  | ok outcome =>
      obtain ⟨projects, keys, _⟩ := Store.enqueue_known ran
      exact ofStore projects keys

section Passes

/-- The cutoff a pass keeps for a scope. -/
theorem get?_projectCutoffs {scopes : List ManagedProject} {scope : ManagedProject}
    (distinct : (scopes.map ManagedProject.project).Nodup) (member : scope ∈ scopes) :
    Dict.get? (projectCutoffs scopes) scope.project =
      some
        (if scope.reviewStartMode = .fromNow then
          scope.reviewStartAt.map fun start => { instant := start }
        else none) := by
  induction scopes with
  | nil =>
      cases member
  | cons first rest inductionHypothesis =>
      rw [List.map_cons, List.nodup_cons] at distinct
      rcases List.mem_cons.mp member with rfl | later
      · simp [projectCutoffs, Dict.get?]
      · have different : first.project ≠ scope.project := by
          intro same
          exact distinct.1 (same ▸ List.mem_map_of_mem later)
        simp only [projectCutoffs, List.map_cons, Dict.get?, if_neg different]
        exact inductionHypothesis distinct.2 later

theorem mem_latestCutoff {first second : Option Datetime} {cutoff : Datetime}
    (member : cutoff ∈ latestCutoff first second) : cutoff ∈ first ∨ cutoff ∈ second := by
  cases first with
  | none =>
      exact .inr member
  | some first =>
      cases second with
      | none =>
          exact .inl member
      | some second =>
          simp only [latestCutoff] at member
          split at member
          · exact .inr member
          · exact .inl member

section Scopes

variable {scopes : List ManagedProject} {scope : ManagedProject} {live : LiveChange}
  (distinct : (scopes.map ManagedProject.project).Nodup) (member : scope ∈ scopes)
  (admits : scope.Admits live.change)
include distinct member admits

/-- The cutoff of a pass for a change a scope takes in is met by its revision. -/
theorem cutoff_met {cutoff : Datetime}
    (known : cutoff ∈ (Dict.get? (projectCutoffs scopes) live.change.project).join) :
    ∃ created ∈ live.change.revisionCreated, cutoff.instant ≤ created := by
  rw [← admits.1, get?_projectCutoffs distinct member, Option.join_some] at known
  split at known
  · rename_i mode
    obtain ⟨start, started, rfl⟩ := Option.map_eq_some_iff.mp known
    exact admits.2 mode start started
  · cases known

theorem isNewWork_of_admits :
    isNewWork (some (projectCutoffs scopes)) live.change = true := by
  cases known : (Dict.get? (projectCutoffs scopes) live.change.project).join with
  | none =>
      simp [isNewWork, known]
  | some cutoff =>
      obtain ⟨created, dated, since⟩ := cutoff_met distinct member admits known
      have revisionCreated : live.change.revisionCreated = some created := dated
      simp [isNewWork, known, revisionCreated, since]

/-- The query of a sweep asks for every change a scope takes in that was updated
since. -/
theorem matchesQuery_of_admits {since : Option Datetime} (opened : live.isOpen)
    (recent : ∀ cutoff ∈ since, cutoff.instant ≤ live.updatedAt) :
    matchesQuery since scopes live = true := by
  have inside : (scopes.map ManagedProject.project).contains live.change.project := by
    rw [← admits.1, List.contains_iff_mem]
    exact List.mem_map_of_mem member
  have reached : ∀ cutoff ∈ latestCutoff since
      (Dict.get? (projectCutoffs scopes) live.change.project).join,
      cutoff.instant ≤ live.updatedAt := by
    intro cutoff known
    rcases mem_latestCutoff known with asked | ofProject
    · exact recent cutoff asked
    · obtain ⟨created, dated, bound⟩ := cutoff_met distinct member admits ofProject
      exact Nat.le_trans bound (live.ordered created dated)
  simp only [matchesQuery, opened, inside, Bool.true_and, cutoffSeconds,
    Option.bind_some]
  cases known : latestCutoff since
      (Dict.get? (projectCutoffs scopes) live.change.project).join with
  | none =>
      rfl
  | some cutoff =>
      simp only [Option.map_some, decide_eq_true_eq]
      exact Nat.le_trans (Nat.div_mul_le_self _ _) (reached cutoff known)

end Scopes

/-- A full sweep that is not due has been called for by nobody. -/
theorem not_calls_of_not_due {lastFullSweep : Option Time} {started : Time}
    {scopes : List ManagedProject}
    (incremental : fullSweepDue settings lastFullSweep started scopes = false)
    {scope : ManagedProject} (member : scope ∈ scopes) :
    ¬Calls lastFullSweep scope := by
  intro calls
  obtain ⟨mode, later⟩ := calls
  cases lastFullSweep with
  | none =>
      cases incremental
  | some last =>
      simp only [fullSweepDue, Bool.or_eq_false_iff, List.any_eq_false,
        Bool.and_eq_true, decide_eq_true_eq, not_and] at incremental
      exact incremental.2 scope member mode (later last rfl)

theorem mem_enabledProjectScopes {store : Store} {row : ManagedProject} :
    row ∈ store.enabledProjectScopes ↔
      row ∈ store.projects.filter ManagedProject.enabled :=
  List.mem_insertionSort _

theorem distinct_enabledProjectScopes {store : Store}
    (distinct : (store.projects.map ManagedProject.project).Nodup) :
    (store.enabledProjectScopes.map ManagedProject.project).Nodup := by
  have kept : ((store.projects.filter ManagedProject.enabled).map
      ManagedProject.project).Nodup :=
    distinct.sublist (List.filter_sublist.map _)
  have permuted :=
    (List.perm_insertionSort
      (fun first second : ManagedProject => first.project ≤ second.project)
      (store.projects.filter ManagedProject.enabled)).map ManagedProject.project
  exact permuted.nodup_iff.mpr kept

theorem Underway.withPass {sweep : Sweep} {pass : Pass}
    (underway : Underway settings sweep source) :
    Underway settings sweep { source with pass } where
  started := underway.started
  marked := underway.marked
  distinct := underway.distinct
  follows := underway.follows

/-- A pass reads its scopes. -/
theorem invariant_snapshot {started : Time} (before : Invariant settings source)
    (under : source.pass = .started started) :
    Invariant settings
      { source with
        pass :=
          .querying
            { started
              scopes := source.store.enabledProjectScopes
              full :=
                fullSweepDue settings source.lastFullSweep started
                  source.store.enabledProjectScopes } } where
  distinct := before.distinct
  marked := before.marked
  covered := before.covered
  pass := by
    have holds := before.pass
    rw [under] at holds
    refine ⟨⟨holds.1, holds.2, distinct_enabledProjectScopes before.distinct, ?_⟩, ?_⟩
    · intro row member opened
      apply Follows.read row
      · exact mem_enabledProjectScopes.mpr (List.mem_filter.mpr ⟨member, opened⟩)
      · exact fun change admits => admits
    · intro incremental mark current live member opened scope scopeMember admits older
      left
      have row := mem_enabledProjectScopes.mp scopeMember
      rcases before.covered mark current live member opened scope row admits older with
        done | calls
      · exact done
      · exact absurd calls (not_calls_of_not_due incremental scopeMember)

/-- The query is answered with what it matches. -/
theorem invariant_answer {sweep : Sweep} {changes : List OpenChange}
    (before : Invariant settings source) (under : source.pass = .querying sweep)
    (all : matching settings source sweep ⊆ changes) :
    Invariant settings
      { source with
        pass :=
          .enqueueing sweep source.changes
            (eventsOfChanges settings.uploader (some (projectCutoffs sweep.scopes))
              changes) } where
  distinct := before.distinct
  marked := before.marked
  covered := before.covered
  pass := by
    have holds := before.pass
    rw [under] at holds
    obtain ⟨underway, incremental⟩ := holds
    refine ⟨underway.withPass, fun live member _ => member, ?_⟩
    intro live member opened scope scopeMember admits
    by_cases asked : matchesQuery (since settings source.watermark sweep.full)
        sweep.scopes live
    · right
      have answered : live.change ∈ changes :=
        all (List.mem_map_of_mem (List.mem_filter.mpr ⟨member, asked⟩))
      exact
        List.mem_map_of_mem
          (List.mem_filter.mpr
            ⟨answered, isNewWork_of_admits underway.distinct scopeMember admits⟩)
    · left
      -- Only the watermark can have kept the change out of the query.
      by_contra missing
      apply asked
      apply matchesQuery_of_admits underway.distinct scopeMember admits opened
      intro cutoff known
      unfold since at known
      split at known
      · cases known
      · rename_i partly
        obtain ⟨mark, current, rfl⟩ := Option.map_eq_some_iff.mp known
        apply Nat.le_of_not_lt
        intro older
        have covered := incremental (Bool.eq_false_iff.mpr partly) mark current live
          member opened scope scopeMember admits (Nat.add_lt_of_lt_sub older)
        rcases covered with done | nothing
        · exact missing done
        · exact nothing

/-- An event of the pass is enqueued. -/
theorem invariant_enqueue {sweep : Sweep} {seen : List LiveChange}
    {event : GerritPatchsetEvent} {rest : List GerritPatchsetEvent} {store : Store}
    {answer : JobRecord × Bool} (before : Invariant settings source)
    (under : source.pass = .enqueueing sweep seen (event :: rest))
    (ran : source.store.enqueue source.now event settings.policyVersion =
      .ok (store, answer)) :
    Invariant settings { source with store, pass := .enqueueing sweep seen rest } := by
  obtain ⟨projects, keys, job, member, identity⟩ := Store.enqueue_known ran
  have between : Invariant settings { source with store } :=
    (Interferes.ofStore projects keys).invariant before
  have holds := between.pass
  rw [show ({ source with store } : Reconciler).pass =
    .enqueueing sweep seen (event :: rest) from under] at holds
  obtain ⟨underway, current, answered⟩ := holds
  refine
    { distinct := between.distinct
      marked := between.marked
      covered := between.covered
      pass := ⟨underway.withPass, current, ?_⟩ }
  intro live liveMember opened scope scopeMember admits
  rcases answered live liveMember opened scope scopeMember admits with done | waiting
  · exact .inl done
  · rcases List.mem_cons.mp waiting with rfl | later
    · left
      obtain ⟨project, number, revision, version⟩ := Job.hasIdentity_iff.mp identity
      exact ⟨job, member, project, number, revision, version⟩
    · exact .inr later

theorem advanceServiceWatermark_eq {stored : Option Time} {value : Time}
    (behind : ∀ mark ∈ stored, mark ≤ value) :
    advanceServiceWatermark stored value = some value := by
  cases stored with
  | none =>
      rfl
  | some mark =>
      simp only [advanceServiceWatermark, Option.some.injEq]
      split
      · rfl
      · rename_i reached
        exact Nat.le_antisymm (behind mark rfl) (Nat.le_of_not_lt reached)

/-- What a sweep leaves behind when its events are enqueued: the changes from before
it have a job, unless their project has come in since and calls for a full sweep. -/
theorem Underway.leaves {sweep : Sweep} {seen : List LiveChange}
    (underway : Underway settings sweep source) (current : Seen sweep seen source)
    (answered : Answered settings sweep seen [] source) {live : LiveChange}
    (member : live ∈ source.changes) (opened : live.isOpen) {row : ManagedProject}
    (rowMember : row ∈ source.store.projects.filter ManagedProject.enabled)
    (admits : row.Admits live.change)
    (older : live.updatedAt + overlap settings < sweep.started) :
    source.Done settings live.change ∨
      Calls source.lastFullSweep row ∧ (sweep.full → sweep.started < row.updatedAt) := by
  obtain ⟨rowMember, enabled⟩ := List.mem_filter.mp rowMember
  cases underway.follows row rowMember enabled with
  | read scope scopeMember same =>
      left
      have seenMember : live ∈ seen :=
        current live member (Nat.lt_of_le_of_lt (Nat.le_add_right _ _) older)
      rcases answered live seenMember opened scope scopeMember (same _ admits) with
        done | waiting
      · exact done
      · cases waiting
  | calls calls later =>
      exact .inr ⟨calls, later⟩
  | recent recent =>
      exact absurd older (Nat.not_lt.mpr (recent.not_before admits))

/-- The watermark moves to the start of the pass. -/
theorem invariant_advance {sweep : Sweep} {seen : List LiveChange}
    (before : Invariant settings source)
    (under : source.pass = .enqueueing sweep seen []) :
    Invariant settings
      { source with
        watermark := advanceServiceWatermark source.watermark sweep.started
        pass := if sweep.full then .advanced sweep seen else .succeeded sweep seen } := by
  have holds := before.pass
  rw [under] at holds
  obtain ⟨underway, current, answered⟩ := holds
  rw [advanceServiceWatermark_eq underway.marked]
  refine
    { distinct := before.distinct
      marked := ?_
      covered := ?_
      pass := ?_ }
  · intro mark known
    cases known
    exact underway.started
  · intro mark known live member opened row rowMember admits older
    cases known
    rcases underway.leaves current answered member opened rowMember admits older with
      done | calls
    · exact .inl done
    · exact .inr calls.1
  · dsimp only
    split
    · rename_i full
      refine ⟨⟨underway.started, ?_, underway.distinct, underway.follows⟩, current,
        answered, full⟩
      intro mark known
      cases known
      exact Nat.le_refl _
    · exact answered

/-- The mark of the full sweeps moves to the start of the pass. -/
theorem invariant_advanceFull {sweep : Sweep} {seen : List LiveChange}
    (before : Invariant settings source)
    (under : source.pass = .advanced sweep seen) :
    Invariant settings
      { source with
        lastFullSweep := advanceServiceWatermark source.lastFullSweep sweep.started
        pass := .succeeded sweep seen } := by
  have holds := before.pass
  rw [under] at holds
  obtain ⟨underway, current, answered, full⟩ := holds
  refine
    { distinct := before.distinct
      marked := before.marked
      covered := ?_
      pass := answered }
  intro mark known live member opened row rowMember admits older
  have olderThanSweep := Nat.lt_of_lt_of_le older (underway.marked mark known)
  rcases underway.leaves current answered member opened rowMember admits olderThanSweep with
    done | ⟨calls, later⟩
  · exact .inl done
  · right
    refine ⟨calls.1, ?_⟩
    intro last moved
    cases stored : source.lastFullSweep with
    | none =>
        rw [stored] at moved
        cases moved
        exact later full
    | some swept =>
        rw [stored] at moved
        simp only [advanceServiceWatermark, Option.mem_def, Option.some.injEq] at moved
        rw [← moved]
        split
        · exact later full
        · exact calls.2 swept stored

end Passes

theorem mem_put {changes : List LiveChange} {live other : LiveChange}
    (member : other ∈ put changes live) : other = live ∨ other ∈ changes := by
  rcases List.mem_cons.mp member with same | kept
  · exact .inl same
  · exact .inr (List.mem_of_mem_filter kept)

theorem Invariant.withIdle (before : Invariant settings source) :
    Invariant settings { source with pass := .idle } where
  distinct := before.distinct
  marked := before.marked
  covered := before.covered
  pass := True.intro

theorem Invariant.begins (before : Invariant settings source) :
    Invariant settings { source with pass := .started source.now } where
  distinct := before.distinct
  marked := before.marked
  covered := before.covered
  pass := ⟨Nat.le_refl _, before.marked⟩

theorem invariant_step {label : ReconcilerLabel} (before : Invariant settings source)
    (inTime : timely settings label source = true)
    (stepped : step settings label source = some target) :
    Invariant settings target := by
  cases label with
  | tick elapsed =>
      cases stepped
      exact
        (Interferes.ofServer (Nat.le_add_right _ _)
          fun live member => .inl member).invariant before
  | update live =>
      simp only [step] at stepped
      split at stepped
      · rename_i dated
        cases stepped
        refine (Interferes.ofServer (Nat.le_refl _) ?_).invariant before
        intro other member
        rcases mem_put member with rfl | known
        · exact .inr dated
        · exact .inl known
      · cases stepped
  | receive event =>
      cases stepped
      exact Interferes.ofEnqueue.invariant before
  | work jobs =>
      simp only [step] at stepped
      split at stepped
      · rename_i same
        cases stepped
        let written : Store := { source.store with jobs }
        have keys : ∀ key ∈ source.store.jobs.map Job.key,
            key ∈ written.jobs.map Job.key := by
          intro key member
          rw [same]
          exact member
        have projects : written.projects = source.store.projects := rfl
        exact (Interferes.ofStore projects keys).invariant before
      · cases stepped
  | admin stamp operation =>
      simp only [step] at stepped
      split at stepped
      · cases stepped
        cases ran : operation.run stamp source.store with
        | error raised =>
            exact before
        | ok outcome =>
            rcases AdminOperation.run_wrote ran with same | wrote
            · have unchanged : source.commit (.ok outcome) = source := by
                rw [commit, same]
              rw [unchanged]
              exact before
            · exact (Interferes.ofAdmin wrote inTime).invariant before
      · cases stepped
  | begin =>
      simp only [step] at stepped
      split at stepped
      · cases stepped
        exact before.begins
      · cases stepped
        exact before.begins
      · cases stepped
  | snapshot =>
      simp only [step] at stepped
      split at stepped
      · rename_i started under
        split at stepped
        · cases stepped
          exact before.withIdle
        · cases stepped
          exact invariant_snapshot before under
      · cases stepped
  | answer changes =>
      simp only [step] at stepped
      split at stepped
      · rename_i sweep under
        split at stepped
        · rename_i exactly
          cases stepped
          exact invariant_answer before under exactly.2
        · cases stepped
      · cases stepped
  | enqueue =>
      simp only [step] at stepped
      split at stepped
      · rename_i sweep seen event rest under
        split at stepped
        · cases stepped
          exact before.withIdle
        · rename_i ran
          cases stepped
          exact invariant_enqueue before under ran
      · cases stepped
  | advance =>
      simp only [step] at stepped
      split at stepped
      · rename_i sweep seen under
        cases stepped
        exact invariant_advance before under
      · cases stepped
  | advanceFull =>
      simp only [step] at stepped
      split at stepped
      · rename_i sweep seen under
        cases stepped
        exact invariant_advanceFull before under
      · cases stepped
  | abandon =>
      cases stepped
      exact before.withIdle

theorem Initial.invariant (start : source.Initial) : Invariant settings source where
  distinct := start.distinct
  marked mark known := by
    rw [start.watermark] at known
    cases known
  covered mark known := by
    rw [start.watermark] at known
    cases known
  pass := by
    rw [start.idle]
    exact True.intro

/-- A mark is not moved back. -/
theorem le_advanceServiceWatermark {stored : Option Time} {value mark : Time}
    (known : mark ∈ stored) : ∃ later ∈ advanceServiceWatermark stored value, mark ≤ later := by
  cases known
  simp only [advanceServiceWatermark, Option.mem_def, Option.some.injEq, exists_eq_left']
  split
  · rename_i earlier
    exact Nat.le_of_lt earlier
  · exact Nat.le_refl _

structure Onward (source target : Reconciler) : Prop where
  watermark : ∀ mark ∈ source.watermark, ∃ later ∈ target.watermark, mark ≤ later
  lastFullSweep : ∀ mark ∈ source.lastFullSweep,
    ∃ later ∈ target.lastFullSweep, mark ≤ later

theorem Onward.of_eq (watermark : target.watermark = source.watermark)
    (lastFullSweep : target.lastFullSweep = source.lastFullSweep) :
    Onward source target where
  watermark mark known := ⟨mark, by rw [watermark]; exact known, Nat.le_refl _⟩
  lastFullSweep mark known := ⟨mark, by rw [lastFullSweep]; exact known, Nat.le_refl _⟩

theorem onward_commit {Value : Type} {transaction : Except PyError (Store × Value)} :
    Onward source (source.commit transaction) := by
  cases transaction with
  | error raised =>
      exact .of_eq rfl rfl
  | ok outcome =>
      exact .of_eq rfl rfl

/-- No step moves a mark back. -/
theorem onward_step {label : ReconcilerLabel}
    (stepped : step settings label source = some target) : Onward source target := by
  cases label with
  | tick elapsed =>
      cases stepped
      exact .of_eq rfl rfl
  | update live =>
      simp only [step] at stepped
      split at stepped
      · cases stepped
        exact .of_eq rfl rfl
      · cases stepped
  | receive event =>
      cases stepped
      exact onward_commit
  | work jobs =>
      simp only [step] at stepped
      split at stepped
      · cases stepped
        exact .of_eq rfl rfl
      · cases stepped
  | admin stamp operation =>
      simp only [step] at stepped
      split at stepped
      · cases stepped
        exact onward_commit
      · cases stepped
  | begin =>
      simp only [step] at stepped
      split at stepped
      · cases stepped
        exact .of_eq rfl rfl
      · cases stepped
        exact .of_eq rfl rfl
      · cases stepped
  | snapshot =>
      simp only [step] at stepped
      split at stepped
      · split at stepped
        · cases stepped
          exact .of_eq rfl rfl
        · cases stepped
          exact .of_eq rfl rfl
      · cases stepped
  | answer changes =>
      simp only [step] at stepped
      split at stepped
      · split at stepped
        · cases stepped
          exact .of_eq rfl rfl
        · cases stepped
      · cases stepped
  | enqueue =>
      simp only [step] at stepped
      split at stepped
      · split at stepped
        · cases stepped
          exact .of_eq rfl rfl
        · cases stepped
          exact .of_eq rfl rfl
      · cases stepped
  | advance =>
      simp only [step] at stepped
      split at stepped
      · cases stepped
        exact
          { watermark := fun mark known => le_advanceServiceWatermark known
            lastFullSweep := (Onward.of_eq rfl rfl).lastFullSweep }
      · cases stepped
  | advanceFull =>
      simp only [step] at stepped
      split at stepped
      · cases stepped
        exact
          { watermark := (Onward.of_eq rfl rfl).watermark
            lastFullSweep := fun mark known => le_advanceServiceWatermark known }
      · cases stepped
  | abandon =>
      cases stepped
      exact .of_eq rfl rfl

/-- After a pass that succeeded, every open change of a project in its scopes that the
query could have seen, and that the project takes in, has a job. -/
def MissesNothing (state : Reconciler) (settings : ReconcilerSettings) : Prop :=
  ∀ sweep seen, state.pass = .succeeded sweep seen →
    ∀ live ∈ seen, live.isOpen → live.updatedAt ≤ sweep.started →
      ∀ scope ∈ sweep.scopes, scope.Admits live.change →
        state.store.HasJob settings.policyVersion live.change

end Reconciler

/-- When no commit that leaves a project enabled is too late, every pass that
succeeds is complete: what was open in its scopes, last updated before it began and
not older than the cutoff of its project has a job.  No step moves a mark back. -/
theorem reconciler_misses_nothing {settings : ReconcilerSettings}
    {labels : List ReconcilerLabel} {source target : Reconciler}
    (start : source.Initial)
    (inTime : Along (Reconciler.step settings)
      (fun label state => Reconciler.timely settings label state = true) labels source)
    (ran : run (Reconciler.step settings) labels source = some target) :
    target.MissesNothing settings ∧
      ∀ label next, Reconciler.step settings label target = some next →
        (∀ mark ∈ target.watermark, ∃ later ∈ next.watermark, mark ≤ later) ∧
          ∀ mark ∈ target.lastFullSweep, ∃ later ∈ next.lastFullSweep, mark ≤ later := by
  have holds : Reconciler.Invariant settings target :=
    inTime.preserves
      (fun label before after timely invariant stepped =>
        Reconciler.invariant_step invariant timely stepped)
      start.invariant ran
  constructor
  · intro sweep seen succeeded live member opened _ scope scopeMember admits
    have answered := holds.pass
    rw [succeeded] at answered
    rcases answered live member opened scope scopeMember admits with done | waiting
    · exact done
    · cases waiting
  · intro label next stepped
    have onward := Reconciler.onward_step stepped
    exact ⟨onward.watermark, onward.lastFullSweep⟩

def oldChange : LiveChange where
  change :=
    { currentRevision := "a", status := "NEW", project := "p", changeNumber := 1
      patchsetNumber := 1, changeId := none, updated := .missing
      revisionCreated := some 10000000 }
  isOpen := true
  updatedAt := 10000000
  ordered := by decide

def oneProject : Reconciler where
  store :=
    { projects :=
        [{ project := "q", reviewStartMode := .includeOpen, reviewStartAt := none
           createdAt := 0, updatedAt := 0 }] }
  now := 1000000000
  changes := [oldChange]

/-- The other project is added, open changes included, while a full sweep has read its
scopes; then the next pass begins. -/
def addedDuringSweep (stamp : Time) : List ReconcilerLabel :=
  [.tick 1, .begin, .snapshot, .tick 1,
    .admin stamp (.upsertProject "p" true .includeOpen none none),
    .answer [], .advance, .advanceFull, .tick 300000000, .begin, .snapshot]

def reconcilerExample : ReconcilerSettings where
  policyVersion := "v"

/-- The second pass when the addition is dated within the sweep: it is a full sweep,
and finds the change.  The policy of the first project is changed late, and in time. -/
def foundRun : List ReconcilerLabel :=
  addedDuringSweep 1000000002 ++
    [.admin 1000000000 (.setProjectReviewPolicy "q" "ko-KR" true 0),
      .answer [oldChange.change], .enqueue, .advance, .advanceFull]

def foundState : Reconciler :=
  (run (Reconciler.step reconcilerExample) foundRun oneProject).getD {}

theorem reconciler_misses_nothing_found :
    foundState.MissesNothing reconcilerExample ∧
      foundState.lastFullSweep = some 1300000002 := by
  have runs : (run (Reconciler.step reconcilerExample) foundRun oneProject).isSome := by
    decide +kernel
  have ran : run (Reconciler.step reconcilerExample) foundRun oneProject =
      some foundState := by
    obtain ⟨final, known⟩ := Option.isSome_iff_exists.mp runs
    simp [foundState, known]
  have start : oneProject.Initial := ⟨by decide, rfl, rfl, rfl⟩
  have inTime : Along (Reconciler.step reconcilerExample)
      (fun label state => Reconciler.timely reconcilerExample label state = true)
        foundRun oneProject := by
    decide +kernel
  exact ⟨(reconciler_misses_nothing start inTime ran).1, by decide +kernel⟩

/-- The transaction that adds the project begins just before a full sweep, and commits
after the sweep has read its scopes.  The next pass is incremental, although nobody
has asked for the old changes of the project, and succeeds without them. -/
theorem reconciler_misses_late_commit :
    oneProject.Initial ∧
      ∃ target,
        run (Reconciler.step reconcilerExample)
            (addedDuringSweep 1000000000 ++ [.answer [], .advance]) oneProject =
          some target ∧
        ¬target.MissesNothing reconcilerExample := by
  refine ⟨⟨by decide, rfl, rfl, rfl⟩, ?_⟩
  have shown : (run (Reconciler.step reconcilerExample)
      (addedDuringSweep 1000000000 ++ [.answer [], .advance]) oneProject).any
        (fun target => target.store.jobs = [] &&
          match target.pass with
          | .succeeded sweep seen =>
              seen = [oldChange] && sweep.started = 1300000002 &&
                sweep.scopes.any fun scope =>
                  scope.project = "p" && scope.reviewStartMode = .includeOpen
          | _ => false) = true := by
    decide +kernel
  obtain ⟨target, ran, left⟩ := (Option.any_eq_true _ _).mp shown
  refine ⟨target, ran, ?_⟩
  intro complete
  simp only [Bool.and_eq_true, decide_eq_true_eq] at left
  obtain ⟨empty, left⟩ := left
  split at left
  · rename_i sweep seen succeeded
    simp only [Bool.and_eq_true, decide_eq_true_eq, List.any_eq_true] at left
    obtain ⟨⟨rfl, started⟩, scope, member, project, mode⟩ := left
    have admits : scope.Admits oldChange.change := by
      refine ⟨project, ?_⟩
      rw [mode]
      intro fromNow
      cases fromNow
    have old : oldChange.updatedAt ≤ sweep.started := by
      rw [started]
      decide
    obtain ⟨job, known, _⟩ :=
      complete sweep [oldChange] succeeded oldChange List.mem_cons_self rfl old scope
        member admits
    rw [empty] at known
    cases known
  · cases left

end PeReview
