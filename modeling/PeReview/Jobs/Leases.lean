import PeReview.Jobs.RowChange

/-!
# What the holder of a lease can rely on

While a worker holds an unexpired lease, the steps of everybody else leave the
state of the row alone, and can only write another status of its publication.
-/

namespace PeReview

/-- The action leaves the state and the owner of a row alone. -/
def RowAction.keepsLease : RowAction → Bool
  | .extend | .begin _ | .mark _ => true
  | _ => false

/-- The action ends the search for an unresolved publication. -/
def RowAction.settles : RowAction → Bool
  | .close _ | .mark .failed | .mark .posted | .mark .pending | .post _ => true
  | _ => false

namespace Row

def status (row : Row) : Option PublicationStatus :=
  row.publication.map Prod.fst

def payload (row : Row) : Option ReviewInput :=
  row.publication.map Prod.snd

/-- A row in `PUBLISHING` that a worker holds up to a deadline. -/
def HeldBy (worker : WorkerId) (deadline : Time) (row : Row) : Prop :=
  row.state = .publishing ∧ row.leaseOwner = some worker ∧
    ∃ expires, row.leaseExpiresAt = some expires ∧ deadline ≤ expires

/-- A row whose publication may have reached Gerrit. -/
def Outstanding (row : Row) : Prop :=
  row.recovering ∧ row.status = some .ambiguous

def DonePosted (row : Row) : Prop :=
  row.state = .done → row.publication.isSome → row.status = some .posted

theorem HeldBy.live {row : Row} {worker : WorkerId} {now deadline : Time}
    (held : row.HeldBy worker deadline) (ahead : now < deadline) :
    row.live worker now := by
  obtain ⟨_, owned, expires, expiry, late⟩ := held
  exact live_iff.mpr ⟨owned, expires, expiry, Nat.lt_of_lt_of_le ahead late⟩

theorem not_live_of_released {row : Row} {worker : WorkerId} {now : Time}
    (free : row.leaseOwner = none) :
    ¬row.live worker now := by
  intro live
  rw [(live_iff.mp live).1] at free
  cases free

theorem not_live_of_idle {row : Row} {worker : WorkerId} {now later : Time}
    (idle : row.idle now) (ordered : now ≤ later) :
    ¬row.live worker later := by
  intro live
  have busy := not_idle_of_live (live_of_le live ordered)
  rw [busy] at idle
  cases idle

@[simp]
theorem status_withStatus (status : PublicationStatus) (row : Row) :
    (RowAction.withStatus status row).status =
      row.publication.map fun _ => status := by
  unfold Row.status RowAction.withStatus
  cases row.publication <;> rfl

@[simp]
theorem payload_withStatus (status : PublicationStatus) (row : Row) :
    (RowAction.withStatus status row).payload = row.payload := by
  unfold Row.payload RowAction.withStatus
  cases row.publication <;> rfl

section Live

variable {row changed : Row} {lease now later : Time} {id : JobId}
  {worker other : WorkerId} {call : StoreCall}

/-- A worker that is live after the transaction of another was live before, and
only the status of the publication may have changed. -/
theorem Worked.seen (worked : row.Worked lease now id other call changed)
    (different : worker ≠ other) (ordered : now ≤ later)
    (live : changed.live worker later) :
    row.live worker now ∧ changed.state = row.state ∧
      (changed.publication = row.publication ∨
        ∃ status, call.action = some (.mark status) ∧ call.job = id ∧
          changed = RowAction.withStatus status row) := by
  cases worked with
  | same => exact ⟨live_of_le live ordered, rfl, .inl rfl⟩
  | acted action acts about guarded =>
      have owner := (live_iff.mp live).1
      have foreign : row.leaseOwner = some other →
          (action.apply now lease row).leaseOwner = row.leaseOwner → False := by
        intro owned kept
        rw [kept, owned] at owner
        exact different (Option.some.inj owner).symm
      have released : (action.apply now lease row).leaseOwner = none → False := by
        intro free
        exact not_live_of_released free live
      cases action with
      | mark status =>
          have before : row.live worker later := live
          exact ⟨live_of_le before ordered, rfl, .inr ⟨status, acts, about, rfl⟩⟩
      | post defer =>
          obtain ⟨_, observed⟩ := guarded
          cases defer with
          | false => exact absurd rfl released
          | true =>
              rcases observed with ⟨_, _, holder⟩ | ⟨_, impossible⟩
              · exact absurd rfl (foreign (live_iff.mp (holder rfl)).1)
              · cases impossible
      | move target release =>
          have owned := (live_iff.mp guarded.1).1
          by_cases releases : (release || target.isTerminal) = true
          · exact absurd (by simp [RowAction.apply, releases, Row.release]) released
          · exact absurd (by simp [RowAction.apply, releases]) (foreign owned)
      | park resume => exact absurd rfl released
      | close target => exact absurd rfl released
      | save => exact absurd rfl released
      | finish => exact absurd rfl released
      | extend => exact absurd rfl (foreign (live_iff.mp guarded.1).1)
      | begin payload => exact absurd rfl (foreign (live_iff.mp guarded.1).1)

/-- A transaction that at most extends a lease. -/
theorem Worked.extended (worked : row.Worked lease now id other call changed)
    (harmless : ∀ action ∈ call.action, action = .extend)
    (ordered : now ≤ later) (live : changed.live worker later) :
    row.live worker now ∧ changed.state = row.state ∧
      changed.publication = row.publication := by
  cases worked with
  | same => exact ⟨live_of_le live ordered, rfl, rfl⟩
  | acted action acts about guarded =>
      obtain rfl := harmless action acts
      have owner : row.leaseOwner = some worker := (live_iff.mp live).1
      have holder := guarded.1
      have same : other = worker := by
        have owned := (live_iff.mp holder).1
        rw [owner] at owned
        exact (Option.some.inj owned).symm
      subst same
      exact ⟨holder, rfl, rfl⟩

theorem Offered.seen (offered : row.Offered lease now other changed)
    (different : worker ≠ other) (ordered : now ≤ later)
    (live : changed.live worker later) :
    row.live worker now ∧ changed = row := by
  cases offered with
  | same => exact ⟨live_of_le live ordered, rfl⟩
  | claimed opened idle resumable =>
      have owner := (live_iff.mp live).1
      exact absurd (Option.some.inj owner).symm different
  | corrupt waiting unknown idle =>
      have before : row.live worker later := live
      exact absurd before (not_live_of_idle idle ordered)

theorem Disturbed.seen (disturbed : row.Disturbed now changed)
    (valid : row.Valid) (ordered : now ≤ later)
    (live : changed.live worker later) :
    row.live worker now ∧ changed = row := by
  have released : changed.leaseOwner = none → False := fun free =>
    not_live_of_released free live
  cases disturbed with
  | enqueued _ step =>
      cases step with
      | keep => exact ⟨live_of_le live ordered, rfl⟩
      | supersede => exact absurd rfl released
      | revive skipped =>
          have closed : row.state.isTerminal := by
            simp [skipped, JobState.isTerminal]
          exact absurd (valid.unleased (.inl closed)).1 released
      | reviveOlder => exact absurd rfl released
  | requeued failed => exact absurd rfl released
  | skipped _ step =>
      cases step with
      | keep => exact ⟨live_of_le live ordered, rfl⟩
      | skip => exact absurd rfl released

end Live

section Holding

variable {row changed : Row} {lease now deadline : Time} {id : JobId}
  {worker other : WorkerId} {call : StoreCall}

/-- A row held for publishing stays so, whatever others do. -/
theorem HeldBy.worked (held : row.HeldBy worker deadline)
    (worked : row.Worked lease now id other call changed)
    (keeps : call.job = id → other = worker →
      ∀ action ∈ call.action, action.keepsLease)
    (ahead : now < deadline) (renewable : deadline ≤ now + lease) :
    changed.HeldBy worker deadline := by
  have alive := held.live ahead
  cases worked with
  | same => exact held
  | acted action acts about guarded =>
      have own : row.live other now → other = worker := fun live =>
        eq_of_live live alive
      have kept : row.live other now → action.keepsLease := fun live =>
        keeps about (own live) action acts
      obtain ⟨publishing, owned, expires, expiry, late⟩ := held
      cases action with
      | extend => exact ⟨publishing, owned, now + lease, rfl, renewable⟩
      | begin payload => exact ⟨publishing, owned, expires, expiry, late⟩
      | mark status => exact ⟨publishing, owned, expires, expiry, late⟩
      | post defer =>
          obtain ⟨_, ⟨_, holder, _⟩ | ⟨superseded, _⟩⟩ := guarded
          · rw [owned] at holder
            rcases holder with impossible | same
            · cases impossible
            · have kept := keeps about (Option.some.inj same).symm _ acts
              cases kept
          · rw [publishing] at superseded
            cases superseded
      | move target release => cases kept guarded.1
      | park resume => cases kept guarded.1
      | close target => cases kept guarded.1
      | save => cases kept guarded.1
      | finish => cases kept guarded.1

theorem HeldBy.offered (held : row.HeldBy worker deadline)
    (offered : row.Offered lease now other changed) (ahead : now < deadline) :
    changed.HeldBy worker deadline := by
  have busy := not_idle_of_live (held.live ahead)
  cases offered with
  | same => exact held
  | claimed opened idle resumable =>
      rw [busy] at idle
      cases idle
  | corrupt waiting unknown idle =>
      rw [busy] at idle
      cases idle

theorem HeldBy.disturbed (held : row.HeldBy worker deadline)
    (disturbed : row.Disturbed now changed) (ahead : now < deadline) :
    changed.HeldBy worker deadline := by
  have busy := not_idle_of_live (held.live ahead)
  have publishing := held.1
  have owned := held.2.1
  cases disturbed with
  | enqueued _ step =>
      cases step with
      | keep => exact held
      | supersede retryState cleared opened settled =>
          simp [recovering, publishing] at settled
      | revive skipped => simp [publishing] at skipped
      | reviveOlder skipped => simp [publishing] at skipped
  | requeued failed => simp [publishing] at failed
  | skipped _ step =>
      cases step with
      | keep => exact held
      | skip opened free unpublished =>
          simp [owned, busy] at free

end Holding

section Payload

variable {row changed : Row} {lease now : Time} {id : JobId}
  {worker : WorkerId} {call : StoreCall} {input : ReviewInput}

/-- The payload of a publication is never rewritten. -/
theorem Worked.payload (worked : row.Worked lease now id worker call changed)
    (stored : row.payload = some input) :
    changed.payload = some input := by
  cases worked with
  | same => exact stored
  | acted action acts about guarded =>
      cases action with
      | begin payload =>
          obtain ⟨_, _, absent⟩ := guarded
          simp [Row.payload, absent] at stored
      | mark status => simpa [RowAction.apply] using stored
      | post defer =>
          have kept := (payload_withStatus .posted row).trans stored
          cases defer <;> exact kept
      | move target release =>
          simp only [RowAction.apply]
          split <;> exact stored
      | _ => exact stored

theorem Offered.payload (offered : row.Offered lease now worker changed) :
    changed.payload = row.payload := by
  cases offered <;> rfl

theorem Disturbed.payload (disturbed : row.Disturbed now changed) :
    changed.payload = row.payload := by
  cases disturbed with
  | enqueued _ step => cases step <;> rfl
  | requeued failed =>
      simp only [Row.payload, Row.requeued]
      cases row.publication <;> rfl
  | skipped _ step => cases step <;> rfl

end Payload

section Outstanding

variable {row changed : Row} {lease now : Time} {id : JobId}
  {worker : WorkerId} {call : StoreCall}

/-- Only a settling action ends publication recovery. -/
theorem Outstanding.worked (outstanding : row.Outstanding) (valid : row.Valid)
    (worked : row.Worked lease now id worker call changed)
    (orderly : call.job = id → ∀ action ∈ call.action, row.live worker now →
      action.Orderly row)
    (unsettled : call.job = id → ∀ action ∈ call.action,
      action.guard worker now row → action.settles = false) :
    changed.Outstanding := by
  cases worked with
  | same => exact outstanding
  | acted action acts about guarded =>
      have unsettled := unsettled about action acts guarded
      have orderly := orderly about action acts
      obtain ⟨recovers, ambiguous⟩ := outstanding
      have present : row.publication.isSome := by
        rw [Row.status] at ambiguous
        cases known : row.publication with
        | none => simp [known] at ambiguous
        | some entry => rfl
      have running : row.live worker now → row.state = .publishing := by
        intro live
        rcases recovering_iff.mp recovers with publishing | ⟨waiting, _⟩
        · exact publishing
        · exact absurd waiting (not_isTerminal_of_live valid live).2
      cases action with
      | extend => exact ⟨recovers, ambiguous⟩
      | begin payload => simp [guarded.2.2] at present
      | mark status =>
          cases status with
          | ambiguous =>
              refine ⟨recovers, ?_⟩
              obtain ⟨entry, known⟩ := Option.isSome_iff_exists.mp present
              simp [RowAction.apply, known]
          | _ => cases unsettled
      | post defer => cases unsettled
      | close target => cases unsettled
      | finish =>
          obtain ⟨_, _, posted⟩ := guarded
          rw [Row.status, posted] at ambiguous
          cases ambiguous
      | save =>
          have validating : row.state = .validating := orderly guarded.1
          rw [running guarded.1] at validating
          cases validating
      | move target release =>
          obtain ⟨_, moved⟩ := orderly guarded.1
          simp [running guarded.1] at moved
      | park resume =>
          obtain rfl : resume = row.state := orderly guarded.1
          refine ⟨recovering_iff.mpr (.inr ⟨rfl, ?_⟩), ambiguous⟩
          exact congrArg some (running guarded.1)

theorem Outstanding.offered (outstanding : row.Outstanding) (valid : row.Valid)
    (offered : row.Offered lease now worker changed) :
    changed.Outstanding := by
  obtain ⟨recovers, ambiguous⟩ := outstanding
  cases offered with
  | same => exact ⟨recovers, ambiguous⟩
  | claimed opened idle resumable =>
      exact ⟨recovering_iff.mpr (.inl (valid.recovering_iff.mp recovers)),
        ambiguous⟩
  | corrupt waiting unknown idle =>
      rcases recovering_iff.mp recovers with publishing | ⟨_, known⟩
      · simp [publishing] at waiting
      · simp [unknown] at known

theorem Outstanding.disturbed (outstanding : row.Outstanding)
    (disturbed : row.Disturbed now changed) :
    changed.Outstanding := by
  obtain ⟨recovers, ambiguous⟩ := outstanding
  have elsewhere : row.state ≠ .skippedScope ∧ row.state ≠ .failedPermanent := by
    rcases recovering_iff.mp recovers with publishing | ⟨waiting, _⟩
    · simp [publishing]
    · simp [waiting]
  cases disturbed with
  | enqueued _ step =>
      cases step with
      | keep => exact ⟨recovers, ambiguous⟩
      | supersede retryState cleared opened settled =>
          simp [recovers] at settled
      | revive skipped => exact absurd skipped elsewhere.1
      | reviveOlder skipped => exact absurd skipped elsewhere.1
  | requeued failed => exact absurd failed elsewhere.2
  | skipped _ step =>
      cases step with
      | keep => exact ⟨recovers, ambiguous⟩
      | skip opened free unpublished => simp [Row.status, unpublished] at ambiguous

end Outstanding

section Posted

variable {row changed : Row} {lease now : Time} {id : JobId}
  {worker : WorkerId} {call : StoreCall}

/-- A POSTED publication stays POSTED unless it is marked again. -/
theorem Worked.posted (worked : row.Worked lease now id worker call changed)
    (unmarked : call.job = id →
      ∀ status, call.action = some (.mark status) → status = .posted)
    (posted : row.status = some .posted) :
    changed.status = some .posted := by
  cases worked with
  | same => exact posted
  | acted action acts about guarded =>
      have marked : row.publication.map (fun _ => PublicationStatus.posted) =
          some .posted := by
        rw [Row.status] at posted
        cases known : row.publication with
        | none => simp [known] at posted
        | some entry => rfl
      cases action with
      | begin payload => simp [Row.status, guarded.2.2] at posted
      | mark status =>
          obtain rfl := unmarked about status acts
          simpa [RowAction.apply] using marked
      | post defer =>
          have kept := (status_withStatus .posted row).trans marked
          cases defer <;> exact kept
      | move target release =>
          simp only [RowAction.apply]
          split <;> exact posted
      | _ => exact posted

theorem Offered.posted (offered : row.Offered lease now worker changed) :
    changed.status = row.status := by
  cases offered <;> rfl

theorem Disturbed.posted (disturbed : row.Disturbed now changed)
    (posted : row.status = some .posted) :
    changed.status = some .posted := by
  cases disturbed with
  | enqueued _ step => cases step <;> exact posted
  | requeued failed =>
      simp only [Row.status, Row.requeued] at posted ⊢
      cases known : row.publication with
      | none => simp [known] at posted
      | some entry => simp_all
  | skipped _ step => cases step <;> exact posted

theorem DonePosted.worked (before : row.DonePosted) (valid : row.Valid)
    (worked : row.Worked lease now id worker call changed)
    (orderly : call.job = id → ∀ action ∈ call.action, row.live worker now →
      action.Orderly row)
    (unmarked : call.job = id → row.status = some .posted →
      ∀ status, call.action = some (.mark status) → status = .posted) :
    changed.DonePosted := by
  cases worked with
  | same => exact before
  | acted action acts about guarded =>
      have orderly := orderly about action acts
      have running : row.live worker now → row.state ≠ .done := by
        intro live finished
        have opened := (not_isTerminal_of_live valid live).1
        simp [finished, JobState.isTerminal] at opened
      cases action with
      | extend => exact before
      | begin payload =>
          intro finished
          exact absurd finished (running guarded.1)
      | mark status =>
          intro finished present
          have presentBefore : row.publication.isSome := by
            simpa [RowAction.apply] using present
          have posted := before finished presentBefore
          obtain rfl := unmarked about posted status acts
          obtain ⟨entry, known⟩ := Option.isSome_iff_exists.mp presentBefore
          simp [RowAction.apply, known]
      | post defer =>
          intro _ _
          obtain ⟨entry, known⟩ := Option.isSome_iff_exists.mp guarded.1
          have posted : (RowAction.withStatus .posted row).status =
              some .posted := by
            simp [known]
          cases defer <;> exact posted
      | close target =>
          intro finished
          exact absurd finished guarded.2.2.2
      | finish =>
          intro _ _
          exact guarded.2.2
      | save => intro finished; cases finished
      | park resume => intro finished; cases finished
      | move target release =>
          intro finished
          obtain ⟨_, moved⟩ := orderly guarded.1
          have reached : target = .done := by
            simp only [RowAction.apply] at finished
            split at finished <;> exact finished
          simp [reached] at moved

theorem DonePosted.offered (before : row.DonePosted) (valid : row.Valid)
    (offered : row.Offered lease now worker changed) :
    changed.DonePosted := by
  cases offered with
  | same => exact before
  | claimed opened idle resumable =>
      intro finished
      have running := (valid.phase_running opened).1
      rw [show row.phase = .done from finished] at running
      cases running
  | corrupt waiting unknown idle => intro finished; cases finished

theorem DonePosted.disturbed (before : row.DonePosted)
    (disturbed : row.Disturbed now changed) :
    changed.DonePosted := by
  cases disturbed with
  | enqueued _ step =>
      cases step with
      | keep => exact before
      | _ => intro finished; cases finished
  | requeued failed =>
      intro finished present
      simp only [Row.requeued, requeueState, Option.isSome_map] at finished present
      cases known : row.publication with
      | none => simp [known] at present
      | some entry =>
          obtain ⟨status, input⟩ := entry
          cases status <;> simp_all [Row.status, Row.requeued]
  | skipped _ step =>
      cases step with
      | keep => exact before
      | skip => intro finished; cases finished

end Posted

section Renewal

variable {row changed : Row} {lease now : Time} {id : JobId}
  {worker : WorkerId} {call : StoreCall}

/-- No lease reaches further than one lease length from now. -/
def Renewable (lease now : Time) (row : Row) : Prop :=
  ∀ expires, row.leaseExpiresAt = some expires → expires ≤ now + lease

theorem Renewable.later {future : Time} (renewable : row.Renewable lease now)
    (ordered : now ≤ future) :
    row.Renewable lease future :=
  fun expires expiry =>
    (renewable expires expiry).trans (Nat.add_le_add_right ordered lease)

theorem Renewable.released (row : Row) : (row.release).Renewable lease now := by
  intro expires expiry
  cases expiry

theorem Renewable.worked (renewable : row.Renewable lease now)
    (worked : row.Worked lease now id worker call changed) :
    changed.Renewable lease now := by
  cases worked with
  | same => exact renewable
  | acted action acts about guarded =>
      cases action with
      | extend =>
          intro expires expiry
          exact (Option.some.inj expiry).ge
      | move target release =>
          simp only [RowAction.apply]
          split
          · exact Renewable.released _
          · exact renewable
      | post defer =>
          cases defer with
          | false => exact Renewable.released row
          | true => exact renewable
      | begin | mark => exact renewable
      | park | close | save | finish => exact Renewable.released row

theorem Renewable.offered (renewable : row.Renewable lease now)
    (offered : row.Offered lease now worker changed) :
    changed.Renewable lease now := by
  cases offered with
  | same => exact renewable
  | claimed opened idle resumable =>
      intro expires expiry
      exact (Option.some.inj expiry).ge
  | corrupt waiting unknown idle => exact renewable

theorem Renewable.disturbed (renewable : row.Renewable lease now)
    (disturbed : row.Disturbed now changed) :
    changed.Renewable lease now := by
  cases disturbed with
  | enqueued _ step =>
      cases step with
      | keep => exact renewable
      | revive skipped => exact renewable
      | supersede | reviveOlder => exact Renewable.released row
  | requeued failed => exact Renewable.released row
  | skipped _ step =>
      cases step with
      | keep => exact renewable
      | skip => exact Renewable.released row

end Renewal

end Row

end PeReview
