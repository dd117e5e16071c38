import PeReview.Gerrit.Events
import PeReview.Jobs.DeliveryOrder

/-!
# The scope decision and the discovery channels

A patch set can be discovered by the event stream, which dates it in whole seconds,
or by the reconciler, which dates it to the microsecond.  Whether a project that
reviews from a cutoff on takes it in does not depend on the channel exactly when the
cutoff is not within the second it was created in.
-/

namespace PeReview

open PeReview.Data

namespace Store

variable {store target : Store} {id : JobId} {job changed : Job}

theorem newerJob_eq_none_congr
    (keys : target.jobs.map Job.key = store.jobs.map Job.key)
    (same : changed.key = job.key) :
    target.newerJob changed = none ↔ store.newerJob job = none := by
  have behind : ∀ {first second : Store} {top other : Job},
      first.jobs.map Job.key = second.jobs.map Job.key → top.key = other.key →
        first.newerJob top = none → second.newerJob other = none := by
    intro first second top other sameKeys sameKey latest
    rw [newerJob_eq_none_iff] at latest ⊢
    intro newer member change
    have keyed : newer.key ∈ first.jobs.map Job.key := by
      rw [sameKeys]
      exact List.mem_map_of_mem member
    obtain ⟨twin, twinMember, twinKey⟩ := List.mem_map.mp keyed
    simp only [Job.key, Prod.mk.injEq] at twinKey sameKey
    have bound := latest twin twinMember (by
      simp only [Job.sameChange, Bool.and_eq_true, decide_eq_true_eq] at change ⊢
      rw [twinKey.1, twinKey.2.1, sameKey.1, sameKey.2.1]
      exact change)
    rw [twinKey.2.2.1, sameKey.2.2.1] at bound
    exact bound
  exact ⟨behind keys same, behind keys.symm same.symm⟩

/-- Which row an event has is a matter of the keys. -/
theorem identified_congr (keys : target.jobs.map Job.key = store.jobs.map Job.key)
    (event : GerritPatchsetEvent) (policyVersion : String) :
    target.identified event policyVersion = store.identified event policyVersion := by
  let matching : String × Int × Int × String × String → Bool := fun key =>
    key.1 = event.project && key.2.1 = event.changeNumber &&
      key.2.2.2.1 = event.revisionSha && key.2.2.2.2 = policyVersion
  have keyed : ∀ any : Store, any.identified event policyVersion =
      (any.jobs.map Job.key).findIdx? matching := by
    intro any
    rw [List.findIdx?_map]
    rfl
  rw [keyed, keyed, keys]

end Store

/-- The job of an event stands in a state that its repeated delivery keeps. -/
structure Standing (policyVersion : String) (event : GerritPatchsetEvent)
    (state : JobState) (store : Store) : Prop where
  stands : ∃ id job, store.identified event policyVersion = some id ∧
    store.jobs[id]? = some job ∧ job.state = state ∧
      (state = .superseded ∨ state = .received ∧ store.newerJob job = none)

namespace Standing

variable {store : Store} {policyVersion : String} {event : GerritPatchsetEvent}
  {state : JobState}

theorem stateOf (standing : Standing policyVersion event state store) :
    store.stateOf policyVersion event = some state := by
  obtain ⟨id, job, identified, found, known, _⟩ := standing.stands
  obtain ⟨inside, matching, earlier⟩ := List.findIdx?_eq_some_iff_getElem.mp identified
  have same : store.jobs[id] = job :=
    Option.some.inj ((List.getElem?_eq_getElem inside).symm.trans found)
  have first : (store.jobs.find? fun job => job.hasIdentity event policyVersion) =
      some job := by
    rw [List.find?_eq_some_iff_getElem]
    refine ⟨by rw [← same]; exact matching, id, inside, same, ?_⟩
    intro before lower
    simpa using earlier before lower
  rw [Store.stateOf, first, Option.map_some, known]

/-- A repeated delivery keeps the state. -/
theorem enqueue (standing : Standing policyVersion event state store) (now : Time) :
    ∃ target answer, store.enqueue now event policyVersion = .ok (target, answer) ∧
      target.projects = store.projects ∧ Standing policyVersion event state target := by
  obtain ⟨id, job, identified, found, known, latest⟩ := standing.stands
  have inScope : job.state ≠ .skippedScope := by
    rw [known]
    rcases latest with rfl | ⟨rfl, _⟩
    · simp
    · simp
  have still : ∀ scope, Store.revives scope job = false := by
    intro scope
    simp [Store.revives, inScope]
  have settled : job.state.isTerminal ∨ store.newerJob job = none := by
    rw [known]
    rcases latest with rfl | ⟨_, newest⟩
    · exact .inl rfl
    · exact .inr newest
  have keys := Store.keys_applyPatchsetOrdering found
  have kept : (store.applyPatchsetOrdering id job).jobs[id]? = some job := by
    rw [Store.jobs_of_latest inScope settled, List.getElem?_map, found, Option.map_some,
      Store.orderedRow_of_not_older (Row.not_olderThan_self job.row)]
  obtain ⟨answer, ran⟩ := Store.orderAndRead_ok found false
  refine ⟨store.applyPatchsetOrdering id job, answer, ?_,
    Store.projects_applyPatchsetOrdering, ?_⟩
  · simp only [Store.enqueue, identified, found, still, Bool.false_eq_true, if_false,
      Store.setJob_self found]
    exact ran
  · refine ⟨id, job, ?_, kept, known, ?_⟩
    · rw [Store.identified_congr keys, identified]
    · rw [Store.newerJob_eq_none_congr keys rfl]
      exact latest

/-- Another event of the same patch set has the same job. -/
theorem congr {other : GerritPatchsetEvent}
    (standing : Standing policyVersion event state store)
    (project : other.project = event.project)
    (changeNumber : other.changeNumber = event.changeNumber)
    (revisionSha : other.revisionSha = event.revisionSha) :
    Standing policyVersion other state store := by
  obtain ⟨id, job, identified, rest⟩ := standing.stands
  have same : store.identified other policyVersion =
      store.identified event policyVersion := by
    unfold Store.identified Job.hasIdentity
    rw [project, changeNumber, revisionSha]
  exact ⟨id, job, same.trans identified, rest⟩

/-- The first delivery of an event in scope. -/
theorem first (absent : store.identified event policyVersion = none)
    (inScope : Store.predatesCutoff (store.managedProject event.project) event = false)
    (now : Time) :
    let job := Store.insertedJob 0 event policyVersion false
    ∃ target answer, store.enqueue now event policyVersion = .ok (target, answer) ∧
      target.projects = store.projects ∧
      Standing policyVersion event
        (if store.newerJob job = none then .received else .superseded) target := by
  intro reference
  let job := Store.insertedJob now event policyVersion false
  let inserted : Store := { store with jobs := store.jobs ++ [job] }
  have found : inserted.jobs[store.jobs.length]? = some job := by
    simp [inserted]
  have identified : inserted.identified event policyVersion = some store.jobs.length := by
    have here : job.hasIdentity event policyVersion :=
      Job.hasIdentity_iff.mpr ⟨rfl, rfl, rfl, rfl⟩
    have before : (store.jobs.findIdx? fun job =>
        job.hasIdentity event policyVersion) = none := absent
    simp [Store.identified, inserted, List.findIdx?_append, before, here]
  have keys := Store.keys_applyPatchsetOrdering found
  have identifiedAfter :
      (inserted.applyPatchsetOrdering store.jobs.length job).identified event
        policyVersion = some store.jobs.length := by
    rw [Store.identified_congr keys, identified]
  have newest : inserted.newerJob job = none ↔ store.newerJob reference = none := by
    rw [Store.newerJob_eq_none_iff, Store.newerJob_eq_none_iff]
    simp only [inserted, List.mem_append, List.mem_singleton]
    constructor
    · intro latest other member change
      exact latest other (.inl member) change
    · intro latest other member change
      rcases member with old | rfl
      · exact latest other old change
      · exact Int.le_refl _
  obtain ⟨answer, ran⟩ := Store.orderAndRead_ok found true
  refine ⟨inserted.applyPatchsetOrdering store.jobs.length job, answer, ?_,
    Store.projects_applyPatchsetOrdering, ?_⟩
  · simp only [Store.enqueue, absent, inScope]
    exact ran
  · by_cases latest : store.newerJob reference = none
    · rw [if_pos latest]
      have latestHere := newest.mpr latest
      refine ⟨store.jobs.length, job, identifiedAfter, ?_, rfl, .inr ⟨rfl, ?_⟩⟩
      · rw [Store.jobs_of_latest (by simp [job, Store.insertedJob]) (.inr latestHere),
          List.getElem?_map, found, Option.map_some,
          Store.orderedRow_of_not_older (Row.not_olderThan_self job.row)]
      · rw [Store.newerJob_eq_none_congr keys rfl]
        exact latestHere
    · rw [if_neg latest]
      obtain ⟨newer, known⟩ :=
        Option.ne_none_iff_exists'.mp fun absent => latest (newest.mp absent)
      let superseded : Job :=
        { job with
          state := .superseded
          supersededByJobId := some newer
          leaseOwner := none
          leaseExpiresAt := none }
      refine ⟨store.jobs.length, superseded, identifiedAfter, ?_, rfl, .inl rfl⟩
      rw [Store.jobs_of_newer rfl known]
      exact List.getElem?_set_self (List.getElem?_eq_some_iff.mp found).1

/-- The first delivery of an event out of scope. -/
theorem first_skipped (absent : store.identified event policyVersion = none)
    (skipped : Store.predatesCutoff (store.managedProject event.project) event = true)
    (now : Time) :
    ∃ target answer, store.enqueue now event policyVersion = .ok (target, answer) ∧
      target.stateOf policyVersion event = some .skippedScope := by
  let job := Store.insertedJob now event policyVersion true
  let inserted : Store := { store with jobs := store.jobs ++ [job] }
  have found : inserted.jobs[store.jobs.length]? = some job := by
    simp [inserted]
  have unordered : inserted.applyPatchsetOrdering store.jobs.length job = inserted := by
    have skips : job.state = .skippedScope := rfl
    rw [Store.applyPatchsetOrdering, if_pos skips]
  have nowhere : (store.jobs.find? fun job => job.hasIdentity event policyVersion) =
      none := by
    rw [List.find?_eq_none]
    intro other member
    simpa using List.findIdx?_eq_none_iff.mp absent other member
  have here : job.hasIdentity event policyVersion :=
    Job.hasIdentity_iff.mpr ⟨rfl, rfl, rfl, rfl⟩
  obtain ⟨answer, ran⟩ := Store.orderAndRead_ok found true
  refine ⟨inserted, answer, ?_, ?_⟩
  · rw [unordered] at ran
    simp only [Store.enqueue, absent, skipped]
    exact ran
  · simp only [Store.stateOf, inserted, List.find?_append, nowhere, Option.none_or,
      List.find?_cons, here, Option.map_some]
    rfl

/-- Repeated deliveries of a patch set keep the state of its job. -/
theorem deliver {deliveries : List (Time × GerritPatchsetEvent)}
    (standing : Standing policyVersion event state store)
    (about : ∀ delivery ∈ deliveries, delivery.2.project = event.project ∧
      delivery.2.changeNumber = event.changeNumber ∧
        delivery.2.revisionSha = event.revisionSha) :
    ∃ target, store.deliver policyVersion deliveries = .ok target ∧
      Standing policyVersion event state target := by
  induction deliveries generalizing store with
  | nil =>
      exact ⟨store, rfl, standing⟩
  | cons delivery rest inductionHypothesis =>
      obtain ⟨now, other⟩ := delivery
      obtain ⟨project, changeNumber, revisionSha⟩ := about (now, other) List.mem_cons_self
      obtain ⟨next, answer, ran, _, stands⟩ :=
        (standing.congr project changeNumber revisionSha).enqueue now
      obtain ⟨target, delivered, final⟩ :=
        inductionHypothesis
          (stands.congr project.symm changeNumber.symm revisionSha.symm)
          (fun later member => about later (List.mem_cons_of_mem _ member))
      refine ⟨target, ?_, final⟩
      rw [Store.deliver, ran, Except.ok_bind]
      exact delivered

end Standing

structure PatchSet where
  project : String
  changeNumber : Int
  patchsetNumber : Int
  revisionSha : String
  created : GerritTimestamp
  named : project ≠ ""
  revised : (7 ≤ revisionSha.length && revisionSha.length ≤ 64) = true
  changeNumbered : 1 ≤ changeNumber
  patchsetNumbered : 1 ≤ patchsetNumber

namespace PatchSet

/-- The creation time, to the microsecond. -/
def createdAt (patchSet : PatchSet) : Time :=
  patchSet.created.base * 1000000 + patchSet.created.nanoseconds / 1000

def event (patchSet : PatchSet) : GerritPatchsetEvent where
  project := patchSet.project
  changeNumber := patchSet.changeNumber
  patchsetNumber := patchSet.patchsetNumber
  revisionSha := patchSet.revisionSha

structure About (patchSet : PatchSet) (event : GerritPatchsetEvent) : Prop where
  project : event.project = patchSet.project
  changeNumber : event.changeNumber = patchSet.changeNumber
  patchsetNumber : event.patchsetNumber = patchSet.patchsetNumber
  revisionSha : event.revisionSha = patchSet.revisionSha

/-- A record of the event stream shows a patch set, dated in whole seconds. -/
structure Streamed (patchSet : PatchSet) (record : StreamRecord) : Prop where
  hasChange : ∃ change, record.change = some change ∧
    change.project = some patchSet.project ∧
      change.number = some patchSet.changeNumber
  hasPatchSet : ∃ shown, record.patchSet = some shown ∧
    shown.number = some patchSet.patchsetNumber ∧
      shown.revision = some patchSet.revisionSha
  dated : record.eventCreatedOn = some ((patchSet.created.base : Int) - unixEpoch)

/-- A change of a reconciliation pass shows a patch set as its current revision. -/
structure Listed (patchSet : PatchSet) (change : OpenChange) : Prop where
  project : change.project = patchSet.project
  changeNumber : change.changeNumber = patchSet.changeNumber
  patchsetNumber : change.patchsetNumber = patchSet.patchsetNumber
  revisionSha : change.currentRevision = patchSet.revisionSha
  created : change.revisionCreated = gerritTimestamp (.valid patchSet.created)

/-- The events with which the two channels deliver a patch set of a project with a
cutoff. -/
inductive Delivered (patchSet : PatchSet) (cutoff : Time) : GerritPatchsetEvent → Prop
  | stream {record : StreamRecord} {event : GerritPatchsetEvent}
      (allowlist : Option (List String)) (streamed : patchSet.Streamed record)
      (parsed : parsePatchsetCreated record allowlist = .ok (some event)) :
      Delivered patchSet cutoff event
  | reconciler {change : OpenChange} {changes : List OpenChange}
      {cutoffs : Dict String (Option Datetime)}
      (uploader : OpenChange → Option AccountInfo) (listed : patchSet.Listed change)
      (aware : Bool)
      (scope : Dict.get? cutoffs patchSet.project = some (some ⟨cutoff, aware⟩))
      (found : reconciliationEvent uploader change ∈
        eventsOfChanges uploader (some cutoffs) changes) :
      Delivered patchSet cutoff (reconciliationEvent uploader change)

variable {patchSet : PatchSet} {cutoff : Time} {event : GerritPatchsetEvent}

theorem streamString_eq_ok {text key value : String}
    (parsed : streamString (some text) key = .ok value) :
    value = text := by
  unfold streamString optionalString at parsed
  split at parsed
  · cases parsed
  · rename_i known
    cases parsed
    split at known
    · exact (Option.some.inj known).symm
    · cases known

theorem streamPositiveInt_eq_ok {number value : Int} {key : String}
    (parsed : streamPositiveInt (some number) key = .ok value) :
    value = number := by
  unfold streamPositiveInt at parsed
  dsimp only at parsed
  split at parsed
  · cases parsed
  · exact (Except.ok.inj parsed).symm

/-- What a record of a patch set is parsed to. -/
theorem Streamed.parsed {record : StreamRecord} {allowlist : Option (List String)}
    (streamed : patchSet.Streamed record)
    (parsed : parsePatchsetCreated record allowlist = .ok (some event)) :
    patchSet.About event ∧
      event.occurredAt =
        eventCreatedAt (some ((patchSet.created.base : Int) - unixEpoch)) := by
  obtain ⟨change, hasChange, project, changeNumber⟩ := streamed.hasChange
  obtain ⟨shown, hasPatchSet, patchsetNumber, revision⟩ := streamed.hasPatchSet
  unfold parsePatchsetCreated at parsed
  split at parsed
  · cases parsed
  · simp only [hasChange, hasPatchSet, streamMapping, Except.ok_bind, project,
      changeNumber, patchsetNumber, revision, streamed.dated] at parsed
    obtain ⟨parsedProject, named, parsed⟩ := Except.bind_eq_ok.mp parsed
    split at parsed
    · cases parsed
    · obtain ⟨parsedChange, changed, parsed⟩ := Except.bind_eq_ok.mp parsed
      obtain ⟨parsedNumber, numbered, parsed⟩ := Except.bind_eq_ok.mp parsed
      obtain ⟨parsedRevision, revised, parsed⟩ := Except.bind_eq_ok.mp parsed
      obtain ⟨accepted, validated, parsed⟩ := Except.bind_eq_ok.mp parsed
      obtain ⟨_, _, same⟩ := Except.bind_eq_ok.mp validated
      cases parsed
      cases same
      exact
        ⟨⟨streamString_eq_ok named, streamPositiveInt_eq_ok changed,
            streamPositiveInt_eq_ok numbered, streamString_eq_ok revised⟩, rfl⟩

/-- Both channels deliver the patch set, dated to the second or to the
microsecond. -/
theorem Delivered.dated (delivered : patchSet.Delivered cutoff event) :
    patchSet.About event ∧
      (event.occurredAt =
          eventCreatedAt (some ((patchSet.created.base : Int) - unixEpoch)) ∨
        event.occurredAt = some patchSet.createdAt) := by
  cases delivered with
  | stream allowlist streamed parsed =>
      obtain ⟨about, dated⟩ := streamed.parsed parsed
      exact ⟨about, .inl dated⟩
  | reconciler uploader listed aware scope found =>
      exact
        ⟨⟨listed.project, listed.changeNumber, listed.patchsetNumber,
            listed.revisionSha⟩, .inr listed.created⟩

/-- The time of a stream event of a patch set. -/
theorem eventCreatedAt_base (patchSet : PatchSet) :
    eventCreatedAt (some ((patchSet.created.base : Int) - unixEpoch)) =
      if patchSet.created.base < unixEpoch then none
      else some (patchSet.created.base * 1000000) := by
  have bound := patchSet.created.representable
  unfold eventCreatedAt
  dsimp only
  by_cases early : patchSet.created.base < unixEpoch
  · rw [if_pos (by omega), if_pos early]
  · have whole : ((patchSet.created.base : Int) - unixEpoch).toNat =
        patchSet.created.base - unixEpoch := by
      omega
    have total : unixEpoch + (patchSet.created.base - unixEpoch) =
        patchSet.created.base := by
      omega
    rw [if_neg (by omega), whole, if_neg (by omega), if_neg early, total]

/-- The cutoff leaves the second in which the patch set was created alone: the
second begins at or after it, or is one the event stream does not tell. -/
def Whole (patchSet : PatchSet) (cutoff : Time) : Prop :=
  patchSet.created.base < unixEpoch ∨ cutoff ≤ patchSet.created.base * 1000000

section Scope

variable {store : Store} {managed : ManagedProject}
  (scope : store.managedProject patchSet.project = some managed)
  (mode : managed.reviewStartMode = .fromNow)
  (start : managed.reviewStartAt = some cutoff)
include scope mode start

/-- The scope of a project with a cutoff. -/
theorem About.predatesCutoff (about : patchSet.About event) :
    Store.predatesCutoff (store.managedProject event.project) event =
      match event.occurredAt with
      | none => false
      | some occurred => decide (occurred < cutoff) := by
  rw [about.project, scope]
  simp only [Store.predatesCutoff, mode, start, decide_true, Bool.true_and]
  cases event.occurredAt with
  | none =>
      rfl
  | some occurred =>
      rfl

/-- A patch set created since the cutoff is in scope on both channels. -/
theorem Delivered.inScope (since : cutoff ≤ patchSet.createdAt)
    (whole : patchSet.Whole cutoff) (delivered : patchSet.Delivered cutoff event) :
    Store.predatesCutoff (store.managedProject event.project) event = false := by
  obtain ⟨about, dated⟩ := delivered.dated
  rw [about.predatesCutoff scope mode start]
  rcases dated with stream | reconciler
  · rw [stream, eventCreatedAt_base]
    by_cases early : patchSet.created.base < unixEpoch
    · rw [if_pos early]
    · rw [if_neg early]
      have later : cutoff ≤ patchSet.created.base * 1000000 := whole.resolve_left early
      simpa using later
  · rw [reconciler]
    simpa using since

end Scope

def record (patchSet : PatchSet) : StreamRecord where
  type := some "patchset-created"
  change :=
    some { project := some patchSet.project, number := some patchSet.changeNumber }
  patchSet :=
    some
      { number := some patchSet.patchsetNumber
        revision := some patchSet.revisionSha }
  eventCreatedOn := some ((patchSet.created.base : Int) - unixEpoch)

theorem parse_record (patchSet : PatchSet) :
    ∃ event, parsePatchsetCreated patchSet.record none = .ok (some event) := by
  have project : streamString (some patchSet.project) "project" =
      .ok patchSet.project := by
    simp [streamString, optionalString, truthy, patchSet.named]
  have revision : streamString (some patchSet.revisionSha) "revision" =
      .ok patchSet.revisionSha := by
    have nonempty : patchSet.revisionSha ≠ "" := by
      intro empty
      have bounded := patchSet.revised
      rw [empty] at bounded
      cases bounded
    simp [streamString, optionalString, truthy, nonempty]
  have changeNumber : streamPositiveInt (some patchSet.changeNumber) "number" =
      .ok patchSet.changeNumber :=
    if_neg (Int.not_lt.mpr patchSet.changeNumbered)
  have patchsetNumber : streamPositiveInt (some patchSet.patchsetNumber) "number" =
      .ok patchSet.patchsetNumber :=
    if_neg (Int.not_lt.mpr patchSet.patchsetNumbered)
  have bounded :
      7 ≤ patchSet.revisionSha.length ∧ patchSet.revisionSha.length ≤ 64 := by
    simpa using patchSet.revised
  simp [parsePatchsetCreated, record, streamMapping, project, revision, changeNumber,
    patchsetNumber, GerritPatchsetEvent.modelValidate, bounded, Except.require]

/-- The event stream delivers every patch set. -/
theorem stream_delivers (patchSet : PatchSet) (cutoff : Time) :
    ∃ event, patchSet.Delivered cutoff event ∧
      event.occurredAt =
        eventCreatedAt (some ((patchSet.created.base : Int) - unixEpoch)) := by
  obtain ⟨event, parsed⟩ := patchSet.parse_record
  have streamed : patchSet.Streamed patchSet.record :=
    ⟨⟨_, rfl, rfl, rfl⟩, ⟨_, rfl, rfl, rfl⟩, rfl⟩
  exact ⟨event, .stream none streamed parsed, (streamed.parsed parsed).2⟩

end PatchSet

/-- A patch set that a project with a cutoff should take in gets a job in one state
that is not a scope skip, whichever channel delivers it first and however often,
exactly when the second in which it was created does not begin before the cutoff. -/
theorem scope_independent_of_channel_iff (policyVersion : String) {store : Store}
    {managed : ManagedProject} {cutoff : Time} (patchSet : PatchSet)
    (scope : store.managedProject patchSet.project = some managed)
    (mode : managed.reviewStartMode = .fromNow)
    (start : managed.reviewStartAt = some cutoff)
    (since : cutoff ≤ patchSet.createdAt)
    (absent : store.identified patchSet.event policyVersion = none) :
    (∃ state, state ≠ .skippedScope ∧
        ∀ deliveries, deliveries ≠ [] →
          (∀ delivery ∈ deliveries, patchSet.Delivered cutoff delivery.2) →
            ∃ target, store.deliver policyVersion deliveries = .ok target ∧
              target.stateOf policyVersion patchSet.event = some state) ↔
      patchSet.created.base < unixEpoch ∨
        cutoff ≤ patchSet.created.base * 1000000 := by
  have unknown : ∀ event, patchSet.About event →
      store.identified event policyVersion = none := by
    intro event about
    rw [← absent]
    unfold Store.identified Job.hasIdentity
    rw [about.project, about.changeNumber, about.revisionSha]
    rfl
  constructor
  · intro some_
    by_contra within
    obtain ⟨late, before⟩ := not_or.mp within
    obtain ⟨state, inScope, delivers⟩ := some_
    obtain ⟨event, delivered, dated⟩ := patchSet.stream_delivers cutoff
    obtain ⟨about, _⟩ := delivered.dated
    have skipped :
        Store.predatesCutoff (store.managedProject event.project) event = true := by
      rw [about.predatesCutoff scope mode start, dated, patchSet.eventCreatedAt_base,
        if_neg late]
      simpa using Nat.lt_of_not_le before
    obtain ⟨target, answer, ran, skips⟩ :=
      Standing.first_skipped (unknown event about) skipped 0
    obtain ⟨again, delivered, known⟩ :=
      delivers [(0, event)] (by simp) (by simpa using delivered)
    have same : again = target := by
      simpa [Store.deliver, ran] using delivered.symm
    have sameJob : target.stateOf policyVersion patchSet.event =
        target.stateOf policyVersion event := by
      unfold Store.stateOf Job.hasIdentity
      rw [about.project, about.changeNumber, about.revisionSha]
      rfl
    rw [same, sameJob, skips, Option.some.injEq] at known
    exact inScope known.symm
  · intro whole
    let reference := Store.insertedJob 0 patchSet.event policyVersion false
    refine
      ⟨if store.newerJob reference = none then .received else .superseded, ?_, ?_⟩
    · split
      · simp
      · simp
    · intro deliveries nonempty delivers
      cases deliveries with
      | nil =>
          exact absurd rfl nonempty
      | cons delivery rest =>
          obtain ⟨now, event⟩ := delivery
          have first := delivers (now, event) List.mem_cons_self
          have about : patchSet.About event := first.dated.1
          obtain ⟨next, answer, ran, _, stands⟩ :=
            Standing.first (unknown event about)
              (first.inScope scope mode start since whole) now
          have sameKey : (Store.insertedJob 0 event policyVersion false).key =
              reference.key := by
            unfold reference Job.key Store.insertedJob
            dsimp only
            rw [about.project, about.changeNumber, about.patchsetNumber,
              about.revisionSha]
            rfl
          simp only [Store.newerJob_eq_none_congr rfl sameKey] at stands
          have standsHere : Standing policyVersion patchSet.event _ next :=
            stands.congr about.project.symm about.changeNumber.symm
              about.revisionSha.symm
          have others : ∀ later ∈ rest,
              later.2.project = patchSet.event.project ∧
                later.2.changeNumber = patchSet.event.changeNumber ∧
                  later.2.revisionSha = patchSet.event.revisionSha := by
            intro later member
            obtain ⟨again, _⟩ := (delivers later (List.mem_cons_of_mem _ member)).dated
            exact ⟨again.project, again.changeNumber, again.revisionSha⟩
          obtain ⟨target, delivered, final⟩ := standsHere.deliver others
          refine ⟨target, ?_, final.stateOf⟩
          rw [Store.deliver, ran, Except.ok_bind]
          exact delivered

/-- A project that reviews from the middle of a second on. -/
def halfSecondStore : Store where
  projects :=
    [{ project := "p", reviewStartMode := .fromNow
       reviewStartAt := some 63925131662500000, createdAt := 0, updatedAt := 0 }]

def latePatchSet (base : Nat) (representable : base < unixEpoch + unixEnd) :
    PatchSet where
  project := "p"
  changeNumber := 1
  patchsetNumber := 1
  revisionSha := "a1b2c3d"
  created := { base, nanoseconds := 600000000, bounded := by decide, representable }
  named := by decide
  revised := by decide
  changeNumbered := by decide
  patchsetNumbered := by decide

theorem scope_independent_of_channel_iff_later :
    ∃ state, state ≠ .skippedScope ∧
      ∀ deliveries, deliveries ≠ [] →
        (∀ delivery ∈ deliveries,
          (latePatchSet 63925131663 (by decide)).Delivered 63925131662500000
            delivery.2) →
          ∃ target, halfSecondStore.deliver "v" deliveries = .ok target ∧
            target.stateOf "v" (latePatchSet 63925131663 (by decide)).event =
              some state :=
  (scope_independent_of_channel_iff "v" (latePatchSet 63925131663 (by decide)) rfl rfl
    rfl (by decide) rfl).mpr (.inr (by decide))

def lateChange (base : Nat) (representable : base < unixEpoch + unixEnd) : OpenChange where
  currentRevision := "a1b2c3d"
  status := "NEW"
  project := "p"
  changeNumber := 1
  patchsetNumber := 1
  changeId := none
  updated := .missing
  revisionCreated :=
    gerritTimestamp
      (.valid { base, nanoseconds := 600000000, bounded := by decide, representable })

/-- A patch set created in the second of the cutoff, after it: the event stream
skips it, the reconciler takes it in. -/
theorem scope_depends_on_channel :
    63925131662500000 ≤ (latePatchSet 63925131662 (by decide)).createdAt ∧
      parsePatchsetCreated (latePatchSet 63925131662 (by decide)).record none =
        .ok
          (some
            { project := "p", changeNumber := 1, patchsetNumber := 1
              revisionSha := "a1b2c3d", occurredAt := some 63925131662000000 }) ∧
      eventsOfChanges (fun _ => none)
          (some [("p", some { instant := 63925131662500000 })])
          [lateChange 63925131662 (by decide)] =
        [{ project := "p", changeNumber := 1, patchsetNumber := 1
           revisionSha := "a1b2c3d", occurredAt := some 63925131662600000 }] ∧
      (halfSecondStore.deliver "v"
          [(0,
            { project := "p", changeNumber := 1, patchsetNumber := 1
              revisionSha := "a1b2c3d", occurredAt := some 63925131662000000 })]).map
          (fun store =>
            store.stateOf "v" (latePatchSet 63925131662 (by decide)).event) =
        .ok (some .skippedScope) ∧
      (halfSecondStore.deliver "v"
          [(0,
            { project := "p", changeNumber := 1, patchsetNumber := 1
              revisionSha := "a1b2c3d", occurredAt := some 63925131662600000 })]).map
          (fun store =>
            store.stateOf "v" (latePatchSet 63925131662 (by decide)).event) =
        .ok (some .received) := by
  decide +kernel

end PeReview
