import PeReview.Service.Knowledge

/-!
# Rules for the calls of a worker

What a worker knows after each of its own calls.
-/

namespace PeReview

open PeReview.Process

namespace Knowledge

/-- What is still known after a transaction that may have acted on the row. -/
def after (known : Knowledge) : Option RowAction → Knowledge
  | none => known
  | some .extend => known
  | some (.begin _) => { known with status := none }
  | some (.mark _) => { known with status := none }
  | some (.move target _) =>
      { known with
        states := fun state => known.states state ∨ state = target
        covered := false }
  | some (.post true) =>
      { known with status := none, unposted := false, covered := false }
  | some _ => known.released

/-- What rules out that the outcome of a POST is open. -/
def Resolved (known : Knowledge) : Prop :=
  known.settled = true ∨
    (∀ state, known.states state → state ≠ .publishing) ∨
    ∃ status, known.status = some status ∧ status ≠ some .ambiguous

/-- What a worker must know before it acts on the row of its job. -/
def Permits (known : Knowledge) : RowAction → Prop
  | .extend => True
  | .begin _ => True
  | .mark .ambiguous => known.working = true ∧ known.unposted = true
  | .mark .failed =>
      known.working = true ∧ known.unposted = true ∧ known.Resolved
  | .mark _ => False
  | .post _ => known.working = true ∧ known.silent = true ∧ known.Resolved
  | .close _ => known.silent = true ∧ known.Resolved
  | .finish => known.silent = true
  | .move target release =>
      known.silent = true ∧ release = false ∧
        ∀ state, known.states state →
          state = .received ∧ target = .fetching ∨
            state = .fetching ∧ target = .reviewing ∨
            state = .reviewing ∧ target = .validating ∨
            state = .readyToPublish ∧ target = .publishing
  | .park resume =>
      known.silent = true ∧ ∀ state, known.states state → resume = state
  | .save =>
      known.silent = true ∧ ∀ state, known.states state → state = .validating

end Knowledge

namespace Row

variable {row changed : Row} {lease now : Time} {id : JobId}
  {worker : WorkerId} {call : StoreCall}

/-- A worker that is live after its own transaction was live before. -/
theorem Worked.live (worked : row.Worked lease now id worker call changed)
    (live : changed.live worker now) :
    row.live worker now := by
  cases worked with
  | same => exact live
  | acted action acts about guarded =>
      cases action with
      | mark status => exact live
      | post defer =>
          obtain ⟨_, observed⟩ := guarded
          cases defer with
          | false => exact absurd live (not_live_of_released rfl)
          | true =>
              rcases observed with ⟨_, _, holder⟩ | ⟨_, impossible⟩
              · exact holder rfl
              · cases impossible
      | extend | begin | move | park | close | save | finish => exact guarded.1

end Row

namespace World

variable {hashes : Hashes} {lease : Time} {worker : WorkerId} {id : JobId}
  {known : Knowledge} {source target world : World} {call : StoreCall}

namespace Transacted

theorem origin (ran : Transacted hashes lease worker call source target)
    {changed : Row} (reached : target.row? id = some changed)
    (live : changed.live worker target.now) :
    ∃ row, source.row? id = some row ∧ row.live worker source.now ∧
      row.Worked lease source.now id worker call changed := by
  rcases ran.rows.origin reached with ⟨row, found, worked⟩ | fresh
  · rw [ran.now_eq] at live
    exact ⟨row, found, worked.live live, worked⟩
  · exact absurd live (Row.not_live_of_released fresh.leaseOwner)

theorem live (ran : Transacted hashes lease worker call source target)
    (now : target.live worker id = true) :
    source.live worker id = true := by
  obtain ⟨changed, reached, live⟩ := live_iff.mp now
  obtain ⟨row, found, alive, _⟩ := ran.origin reached live
  exact live_iff.mpr ⟨row, found, alive⟩

/-- A worker that keeps its row leased has not released it. -/
theorem unreleased (ran : Transacted hashes lease worker call source target)
    (working : (source.sessions worker).released = false)
    (keeps : ∀ row changed : Row, source.row? call.job = some row →
      row.leaseOwner = some worker →
        row.Worked lease source.now call.job worker call changed →
          changed.leaseOwner = some worker) :
    (target.sessions worker).released = false := by
  by_contra released
  rcases ran.released (by simpa using released) with before | ⟨owned, lost⟩
  · rw [working] at before
    cases before
  · obtain ⟨row, found, owner⟩ : ∃ row, source.row? call.job = some row ∧
        row.leaseOwner = some worker := by
      unfold owns at owned
      split at owned
      · cases owned
      · rename_i row found
        exact ⟨row, found, by simpa using owned⟩
    obtain ⟨changed, reached, worked⟩ := ran.row found
    have kept := keeps row changed found owner worked
    rw [row?] at reached
    simp [owns, reached, kept] at lost

end Transacted

/-- While the worker is live, nothing it knows contradicts an open outcome unless
every outcome is known. -/
theorem Knows.resolved (knows : Knows worker id known world)
    (valid : world.Valid lease) (resolved : known.Resolved) :
    world.Settled worker id := by
  intro tidy live
  by_contra different
  have unresolved : world.resolved id < world.dispatched id :=
    Nat.lt_of_le_of_ne (valid.counted id) different
  obtain ⟨row, found, recovers, ambiguous⟩ := valid.tracked id tidy unresolved
  obtain ⟨known, foundAgain, alive⟩ := live_iff.mp live
  rw [found] at foundAgain
  cases foundAgain
  rcases resolved with settled | elsewhere | ⟨status, said, clear⟩
  · exact different (knows.settled settled tidy live)
  · have running :=
      (Row.not_isTerminal_of_live (valid.consistent.valid id row found) alive).2
    rcases Row.recovering_iff.mp recovers with publishing | ⟨waiting, _⟩
    · exact elsewhere _ (knows.states row found alive) publishing
    · exact running waiting
  · have same := knows.status status said tidy row found alive
    rw [same] at ambiguous
    exact clear ambiguous

/-- What a worker knows pays for its next transaction. -/
theorem Knows.permits {action : RowAction} (knows : Knows worker id known world)
    (valid : world.Valid lease) (permits : known.Permits action) :
    world.Permits worker id action := by
  cases action with
  | extend => exact True.intro
  | begin payload => exact True.intro
  | mark status =>
      cases status with
      | ambiguous =>
          exact ⟨knows.working permits.1, knows.unposted permits.2⟩
      | failed =>
          obtain ⟨working, unposted, resolved⟩ := permits
          exact ⟨knows.working working, knows.unposted unposted,
            knows.resolved valid resolved⟩
      | pending => exact permits
      | posted => exact permits
  | post defer =>
      obtain ⟨working, silent, resolved⟩ := permits
      exact ⟨knows.working working, knows.silent silent,
        knows.resolved valid resolved⟩
  | close target =>
      exact ⟨knows.silent permits.1, knows.resolved valid permits.2⟩
  | finish => exact knows.silent permits
  | move target release =>
      obtain ⟨silent, rfl, moves⟩ := permits
      refine ⟨?_, knows.silent silent⟩
      intro row found live
      exact ⟨rfl, moves _ (knows.states row found live)⟩
  | park resume =>
      refine ⟨?_, knows.silent permits.1⟩
      intro row found live
      exact permits.2 _ (knows.states row found live)
  | save =>
      refine ⟨?_, knows.silent permits.1⟩
      intro row found live
      exact permits.2 _ (knows.states row found live)

/-- The states a live worker may still find after its transaction. -/
theorem states_after {row changed : Row}
    (worked : row.Worked lease source.now call.job worker call changed)
    (live : changed.live worker source.now) (holds : known.states row.state) :
    (known.after call.action).states changed.state := by
  cases worked with
  | same =>
      cases call.action with
      | none => exact holds
      | some action =>
          cases action with
          | post defer => cases defer <;> exact holds
          | move => exact .inl holds
          | _ => exact holds
  | acted action acts _ guarded =>
      rw [acts]
      cases action with
      | move target release =>
          simp only [RowAction.apply] at live ⊢
          right
          split <;> rfl
      | post defer =>
          cases defer with
          | false => exact absurd live (Row.not_live_of_released rfl)
          | true =>
              obtain ⟨_, ⟨publishing, _⟩ | ⟨_, impossible⟩⟩ := guarded
              · rw [publishing] at holds
                exact holds
              · cases impossible
      | extend | begin | mark => exact holds
      | park | close | save | finish =>
          exact absurd live (Row.not_live_of_released rfl)

/-- Only a completion that is deferred makes a publication POSTED. -/
theorem unposted_after {row changed : Row}
    (permits : ∀ action ∈ call.action, source.Permits worker id action)
    (worked : row.Worked lease source.now call.job worker call changed)
    (live : changed.live worker source.now)
    (unposted : (known.after call.action).unposted = true) :
    known.unposted = true ∧
      (changed.status = some .posted → row.status = some .posted) := by
  cases worked with
  | same =>
      refine ⟨?_, fun posted => posted⟩
      cases acts : call.action with
      | none => simpa [acts, Knowledge.after] using unposted
      | some action =>
          rw [acts] at unposted
          cases action with
          | post defer =>
              cases defer with
              | true => cases unposted
              | false => exact unposted
          | _ => exact unposted
  | acted action acts _ guarded =>
      have permitted := permits action acts
      rw [acts] at unposted
      cases action with
      | extend => exact ⟨unposted, fun posted => posted⟩
      | begin payload => exact ⟨unposted, fun posted => by cases posted⟩
      | mark status =>
          refine ⟨unposted, fun posted => ?_⟩
          rw [RowAction.apply, Row.status_withStatus] at posted
          obtain ⟨_, _, rfl⟩ := Option.map_eq_some_iff.mp posted
          exact permitted.elim
      | move target release =>
          refine ⟨unposted, fun posted => ?_⟩
          simp only [RowAction.apply] at posted
          split at posted <;> exact posted
      | post defer =>
          cases defer with
          | true => cases unposted
          | false => exact absurd live (Row.not_live_of_released rfl)
      | park | close | save | finish =>
          exact absurd live (Row.not_live_of_released rfl)

/-- The status that is still known has not changed. -/
theorem status_after {row changed : Row}
    {status : Option PublicationStatus}
    (worked : row.Worked lease source.now call.job worker call changed)
    (live : changed.live worker source.now)
    (holds : status ∈ (known.after call.action).status) :
    status ∈ known.status ∧ changed.status = row.status := by
  cases worked with
  | same =>
      refine ⟨?_, rfl⟩
      cases acts : call.action with
      | none => simpa [acts, Knowledge.after] using holds
      | some action =>
          rw [acts] at holds
          cases action with
          | post defer =>
              cases defer with
              | true => cases holds
              | false => exact holds
          | begin => cases holds
          | mark => cases holds
          | _ => exact holds
  | acted action acts _ guarded =>
      rw [acts] at holds
      cases action with
      | extend => exact ⟨holds, rfl⟩
      | begin payload => cases holds
      | mark status => cases holds
      | move target release =>
          refine ⟨holds, ?_⟩
          simp only [RowAction.apply]
          split <;> rfl
      | post defer =>
          cases defer with
          | true => cases holds
          | false => exact absurd live (Row.not_live_of_released rfl)
      | park | close | save | finish =>
          exact absurd live (Row.not_live_of_released rfl)

/-- The rest of the knowledge is not touched by any action. -/
theorem after_frame (known : Knowledge) (action : Option RowAction) :
    (known.after action).fact = known.fact ∧
      (known.after action).payload = known.payload ∧
      (known.after action).settled = known.settled ∧
      (known.after action).silent = known.silent ∧
      (known.after action).uncommitted = known.uncommitted ∧
      (known.after action).lookup = known.lookup ∧
      (known.after action).awaiting = known.awaiting := by
  cases action with
  | none => exact ⟨rfl, rfl, rfl, rfl, rfl, rfl, rfl⟩
  | some action =>
      cases action with
      | post defer => cases defer <;> exact ⟨rfl, rfl, rfl, rfl, rfl, rfl, rfl⟩
      | _ => exact ⟨rfl, rfl, rfl, rfl, rfl, rfl, rfl⟩

/-- The knowledge of a worker after its own transaction. -/
theorem Knows.after (knows : Knows worker id known source)
    (ran : Transacted hashes lease worker call source target)
    (permits : ∀ action ∈ call.action, source.Permits worker id action)
    (about : call.job = id) (valid : source.Valid lease)
    (granted : (target.sessions worker).granted =
      (source.sessions worker).granted ∨ known.covered = false) :
    Knows worker id (known.after call.action) target := by
  subst about
  have back : target.live worker call.job = true → source.live worker call.job = true :=
    ran.live
  obtain ⟨factSame, payloadSame, settledSame, silentSame, uncommittedSame,
      lookupSame, awaitingSame⟩ := after_frame known call.action
  have quietAfter : source.Quiet call.job → target.Quiet call.job := by
    intro quiet post member same
    rw [ran.inflight] at member
    rw [ran.now_eq]
    exact quiet post member same
  have noneAfter : source.Uncommitted call.job → target.Uncommitted call.job := by
    intro none post member
    rw [ran.committed] at member
    exact none post member
  constructor
  · rw [factSame]
    exact knows.fact
  · rw [ran.job]
    exact knows.claimed
  · intro changed reached live
    obtain ⟨row, found, alive, worked⟩ := ran.origin reached live
    rw [ran.now_eq] at live
    exact states_after worked live (knows.states row found alive)
  · intro input stored
    rw [payloadSame] at stored
    obtain ⟨row, found, holds⟩ := knows.payload input stored
    exact ran.rows.next found fun changed worked => worked.payload holds
  · intro status holds tidy changed reached live
    obtain ⟨row, found, alive, worked⟩ := ran.origin reached live
    rw [ran.now_eq] at live
    obtain ⟨before, same⟩ := status_after worked live holds
    rw [ran.stale] at tidy
    rw [same]
    exact knows.status status before tidy row found alive
  · intro unposted changed reached live posted
    obtain ⟨row, found, alive, worked⟩ := ran.origin reached live
    rw [ran.now_eq] at live
    obtain ⟨before, earlier⟩ :=
      unposted_after permits worked live unposted
    exact knows.unposted before row found alive (earlier posted)
  · intro settled tidy live
    rw [settledSame] at settled
    rw [ran.stale] at tidy
    rw [ran.resolved, ran.dispatched]
    exact knows.settled settled tidy (back live)
  · intro silent live
    rw [silentSame] at silent
    exact quietAfter (knows.silent silent (back live))
  · intro uncommitted live
    rw [uncommittedSame] at uncommitted
    obtain ⟨quiet, none⟩ := knows.uncommitted uncommitted (back live)
    exact ⟨quietAfter quiet, noneAfter none⟩
  · intro working
    have keeps : ∀ row changed : Row, source.row? call.job = some row →
        row.leaseOwner = some worker →
          row.Worked lease source.now call.job worker call changed →
            (known.working = true → changed.leaseOwner = some worker) := by
      intro row changed found owned worked before
      cases worked with
      | same => exact owned
      | acted action acts _ guarded =>
          have permitted := permits action acts
          rw [acts] at working
          cases action with
          | extend | begin | mark => exact owned
          | move target release =>
              obtain ⟨rfl, moved⟩ := permitted.1 row found guarded.1
              have opened : target.isTerminal = false := by
                rcases moved with ⟨_, rfl⟩ | ⟨_, rfl⟩ | ⟨_, rfl⟩ | ⟨_, rfl⟩ <;> rfl
              simpa [RowAction.apply, opened] using owned
          | post defer =>
              cases defer with
              | true => exact owned
              | false => cases working
          | park | close | save | finish => cases working
    have before : known.working = true := by
      cases acts : call.action with
      | none => simpa [acts, Knowledge.after] using working
      | some action =>
          rw [acts] at working
          cases action with
          | post defer =>
              cases defer with
              | true => exact working
              | false => cases working
          | park | close | save | finish => cases working
          | _ => exact working
    exact ran.unreleased (knows.working before) fun row changed found owned worked =>
      keeps row changed found owned worked before
  · intro covered ahead
    have before : known.covered = true ∧
        ∀ action ∈ call.action, action.keepsLease := by
      cases acts : call.action with
      | none => exact ⟨by simpa [acts, Knowledge.after] using covered, by simp⟩
      | some action =>
          rw [acts] at covered
          cases action with
          | post defer => cases defer <;> cases covered
          | extend | begin | mark =>
              refine ⟨covered, ?_⟩
              intro performed same
              cases same
              rfl
          | _ => cases covered
    obtain ⟨coveredBefore, keeps⟩ := before
    rcases granted with same | uncovered
    · rw [same, ran.now_eq] at ahead
      rw [same]
      obtain ⟨row, found, held⟩ := knows.covered coveredBefore ahead
      refine ran.rows.next found fun changed worked => ?_
      refine held.worked worked (fun _ _ => keeps) ahead ?_
      obtain ⟨_, _, expires, expiry, late⟩ := held
      exact late.trans (valid.renewable _ row found expires expiry)
    · rw [coveredBefore] at uncovered
      cases uncovered
  · intro lookup live
    rw [lookupSame] at lookup
    obtain ⟨quiet, none, dispatched⟩ := knows.lookup lookup (back live)
    refine ⟨quietAfter quiet, ?_, ?_⟩
    · intro seen
      rw [ran.seen] at seen
      exact noneAfter (none seen)
    · intro tidy
      rw [ran.stale] at tidy
      rw [ran.dispatched, ran.lookedUp]
      exact dispatched tidy
  · intro number holds
    rw [awaitingSame] at holds
    obtain ⟨sent, while_⟩ := knows.awaiting number holds
    rw [ran.dispatched]
    refine ⟨sent, ?_⟩
    intro live
    obtain ⟨only, dispatched⟩ := while_ (back live)
    constructor
    · intro post member same ahead
      rw [ran.inflight] at member
      rw [ran.now_eq] at ahead
      exact only post member same ahead
    · intro tidy
      rw [ran.stale] at tidy
      exact dispatched tidy

end World

end PeReview
