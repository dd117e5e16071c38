import PeReview.Jobs.System

/-!
# What a step does to one row

The changes of the table seen from a single row: what a transaction of a worker,
a claim, or a step nobody of the workers takes can make of it.
-/

namespace PeReview

/-- Steps no worker takes. -/
def SystemLabel.isEnvironment : SystemLabel → Bool
  | .claim _ _ | .work _ _ => false
  | _ => true

namespace Row

/-- What a transaction of a worker makes of a row. -/
inductive Worked (lease now : Time) (id : JobId) (worker : WorkerId)
    (call : StoreCall) (row : Row) : Row → Prop
  | same : Worked lease now id worker call row row
  | acted (action : RowAction) (acts : call.action = some action)
      (about : call.job = id) (guarded : action.guard worker now row) :
      Worked lease now id worker call row (action.apply now lease row)

inductive Offered (lease now : Time) (worker : WorkerId) (row : Row) :
    Row → Prop
  | same : Offered lease now worker row row
  | claimed (opened : row.state.isTerminal = false) (idle : row.idle now)
      (resumable : row.Resumable) :
      Offered lease now worker row (row.claimed worker now lease)
  | corrupt (waiting : row.state = .retryWait) (unknown : row.retryState = none)
      (idle : row.idle now) :
      Offered lease now worker row { row with state := .failedPermanent }

/-- What a step nobody of the workers takes makes of a row. -/
inductive Disturbed (now : Time) (row : Row) : Row → Prop
  | enqueued (changed : Row) (step : row.Enqueued changed) :
      Disturbed now row changed
  | requeued (failed : row.state = .failedPermanent) :
      Disturbed now row row.requeued
  | skipped (changed : Row) (step : row.Skipped now changed) :
      Disturbed now row changed

end Row

namespace System

variable {hashes : Hashes} {lease : Time} {source : System}

theorem work_row (hashes : Hashes) (lease : Time) {worker : WorkerId}
    {call : StoreCall} {id : JobId} {row : Row}
    (found : source.store.row? id = some row) :
    ∃ changed,
      (source.next hashes lease (.work worker call)).store.row? id =
          some changed ∧
        row.Worked lease source.now id worker call changed := by
  rcases commit_store source (call.run hashes source.now lease worker source.store)
    with same | ⟨target, value, ran, same⟩
  · exact ⟨row, by rw [next, same, found], .same⟩
  · rcases StoreCall.run_wrote ran with rfl | ⟨job, written, known, rfl, effect⟩
    · exact ⟨row, by rw [next, same, found], .same⟩
    · by_cases about : id = call.job
      · subst about
        obtain rfl : row = job.row := by
          rw [Store.row?_of_getElem? known] at found
          exact (Option.some.inj found).symm
        refine ⟨written.row, by rw [next, same, Store.row?_setJob_self known], ?_⟩
        rcases effect.row with kept | ⟨action, acts, guarded, applied⟩
        · rw [kept]
          exact .same
        · rw [applied]
          exact .acted action acts rfl guarded
      · refine ⟨row, ?_, .same⟩
        rw [next, same, Store.row?_setJob_of_ne known about, found]

theorem claim_row (hashes : Hashes) (lease : Time) {worker : WorkerId}
    {locked : List JobId} {id : JobId} {row : Row}
    (found : source.store.row? id = some row) :
    ∃ changed,
      (source.next hashes lease (.claim worker locked)).store.row? id =
          some changed ∧
        row.Offered lease source.now worker changed := by
  have same : (source.next hashes lease (.claim worker locked)).store =
      (source.store.claimNext source.now lease worker locked).1 :=
    rfl
  rw [same]
  cases ran : source.store.claimNext source.now lease worker locked with
  | mk target record =>
      rcases Store.claimNext_cases ran with
        ⟨rfl, _⟩ | ⟨claimed, job, written, known, claimable, rfl, outcome⟩
      · exact ⟨row, found, .same⟩
      · by_cases about : id = claimed
        · subst about
          obtain rfl : row = job.row := by
            rw [Store.row?_of_getElem? known] at found
            exact (Option.some.inj found).symm
          obtain ⟨opened, idle, _⟩ := Store.claimable_iff claimable
          refine ⟨written.row, Store.row?_setJob_self known, ?_⟩
          rcases outcome with ⟨waiting, unknown, _, wrote⟩ | ⟨_, resumable, wrote⟩
          · rw [wrote]
            exact .corrupt waiting unknown idle
          · rw [wrote]
            exact .claimed opened idle resumable
        · refine ⟨row, ?_, .same⟩
          exact (Store.row?_setJob_of_ne known about).trans found

theorem environment_row (hashes : Hashes) (lease : Time) {label : SystemLabel}
    (environment : label.isEnvironment) {id : JobId} {row : Row}
    (found : source.store.row? id = some row) :
    ∃ changed,
      (source.next hashes lease label).store.row? id = some changed ∧
        row.Disturbed source.now changed := by
  cases next_change hashes lease source label with
  | none _ same =>
      exact ⟨row, by rw [same, found], .enqueued row .keep⟩
  | work | claim | corrupt => cases environment
  | enqueue event policyVersion enqueued ordered =>
      obtain ⟨changed, reached, step⟩ := ordered.old id row found
      exact ⟨changed, reached, .enqueued changed step⟩
  | requeue requeued before present failed latest written others =>
      by_cases about : id = requeued
      · subst about
        rw [found] at present
        cases present
        exact ⟨_, written, .requeued failed⟩
      · exact ⟨row, by rw [others id about, found], .enqueued row .keep⟩
  | skip _ skipping =>
      obtain ⟨changed, reached, step⟩ := skipping.1 id row found
      exact ⟨changed, reached, .skipped changed step⟩

/-- A row that was not there before is fresh. -/
theorem fresh_row (hashes : Hashes) (lease : Time) {label : SystemLabel}
    {id : JobId} {row : Row} (absent : source.store.row? id = none)
    (reached : (source.next hashes lease label).store.row? id = some row) :
    row.Fresh := by
  have elsewhere : ∀ other before, source.store.row? other = some before →
      id ≠ other := by
    rintro other before present rfl
    rw [absent] at present
    cases present
  cases next_change hashes lease source label with
  | none _ same =>
      rw [same, absent] at reached
      cases reached
  | work worker call action before acts present guarded written others =>
      rw [others id (elsewhere _ _ present), absent] at reached
      cases reached
  | claim worker locked claimed before present opened idle resumable gated
      written others =>
      rw [others id (elsewhere _ _ present), absent] at reached
      cases reached
  | corrupt worker locked claimed before present waiting unknown idle written
      others =>
      rw [others id (elsewhere _ _ present), absent] at reached
      cases reached
  | enqueue event policyVersion enqueued ordered =>
      exact (ordered.fresh id row absent reached).2
  | requeue requeued before present failed latest written others =>
      rw [others id (elsewhere _ _ present), absent] at reached
      cases reached
  | skip _ skipping =>
      rw [skipping.2 id absent] at reached
      cases reached

end System

end PeReview
