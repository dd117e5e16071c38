import PeReview.Service.Safety.Retries
import PeReview.Service.Voting

/-!
# What voting keeps

A vote is sent once the comments are posted.  Whatever becomes of it, the job is
left publishing or finished, and no review is posted.
-/

namespace PeReview

open PeReview.Process

namespace Site.Triple

variable {site : Site} {known : Knowledge} {settings : Settings}
  {job : JobRecord} {Value : Type} {post : Value → Knowledge}
  {raised : PyError → Knowledge}

/-- An exception skips the rest. -/
theorem throw_bind {Final : Type} {error : PyError} {rest : Value → Task Final}
    {final : Final → Knowledge} (implies : known.Implies (raised error)) :
    site.Triple known (MonadExcept.throw error >>= rest) final raised :=
  Runs.done implies

/-- A request whose answer or failure teaches nothing. -/
theorem request {program : Program Call Answer (Except PyError Value)}
    (runs : site.Runs known program fun _ => known) :
    site.Triple known (ExceptT.mk program) (fun _ => known) fun _ => known := by
  refine Runs.weaken runs ?_
  rintro (_ | _)
  · exact .refl known
  · exact .refl known

theorem ensureCurrentRevision {allowMerged : Bool} :
    site.Triple known (ensureCurrentRevision job allowMerged) (fun _ => known)
      fun _ => known := by
  unfold PeReview.ensureCurrentRevision
  refine bind (request (Runs.neutral rfl)) ?_
  intro change
  dsimp only
  split
  · exact throw_bind (.refl known)
  · split
    · exact throw_bind (.refl known)
    · exact pure (.refl known)

/-- A review or a vote is sent once the guard lets it pass. -/
theorem publishReviewInput {send : Task GerritResponse}
    {prePostGuard : Task Bool} {allowMerged : Bool} {guarded : Bool → Knowledge}
    {post : GerritResponse → Knowledge}
    (guards : site.Triple known prePostGuard guarded raised)
    (sends : site.Triple (guarded true) send post raised)
    (escapes : ∀ error, known.Implies (raised error))
    (refuses : ∀ error, (guarded false).Implies (raised error)) :
    site.Triple known (publishReviewInput job send prePostGuard allowMerged)
      post raised := by
  unfold PeReview.publishReviewInput
  refine bind (raises ensureCurrentRevision escapes) fun _ => bind guards ?_
  intro current
  cases current with
  | false => exact throw_bind (refuses _)
  | true => exact sends

theorem finishVote {status : VoteStatus} {error : Option String}
    {response : Option GerritResponse} {accountId : Option Int}
    (uncovered : known.covered = false) (silent : known.silent = true) :
    site.Triple known (finishVote site.id status error response accountId)
      (fun _ => known.released) known.released.plainly := by
  unfold PeReview.finishVote
  refine bind (acts rfl uncovered ?_) fun _ => pure (.refl _)
  rintro action ⟨⟩
  exact silent

/-- The guard of a vote is not relied on. -/
theorem publishGuard_ignored (uncovered : known.covered = false) :
    site.Triple known (PeReview.publishGuard site.id) (fun _ => known)
      known.plainly := by
  refine returns (publishGuard uncovered) ?_
  intro current fact
  exact
    { Knowledge.Implies.refl known fact with
      covered := fun covered => by
        rw [uncovered] at covered
        cases covered }

theorem processVote {vote : ReviewVote} (about : job.id = site.id)
    (uncovered : known.covered = false) (silent : known.silent = true) :
    site.BlockTriple known false (processVote settings job vote)
      (fun _ _ => known.released) fun _ _ => known.released := by
  have finishes : ∀ (locals : Bool) (status : VoteStatus) (error : Option String)
      (response : Option GerritResponse) (accountId : Option Int),
      site.BlockTriple known locals
        (Task.block (PeReview.finishVote site.id status error response accountId))
        (fun _ _ => known.released) fun _ _ => known.released := by
    intro locals status error response accountId
    refine BlockTriple.last (raises (finishVote uncovered silent) ?_)
    exact fun _ => Knowledge.given_implies fun _ => .refl _
  have fails : ∀ error : PyError, (known.plainly error).Implies known.released :=
    fun error => Knowledge.given_implies fun _ => known.implies_released
  have keeps : ∀ _ : PyError, known.Implies known.released :=
    fun _ => known.implies_released
  unfold PeReview.processVote
  rw [about]
  refine BlockTriple.step (raises (request (Runs.neutral rfl)) keeps) ?_
  intro accountId
  split
  · exact finishes _ _ _ _ _
  · split
    · refine BlockTriple.step (raises (request (Runs.neutral rfl)) keeps) ?_
      intro observation
      split
      · split
        · exact finishes _ _ _ _ _
        · exact finishes _ _ _ _ _
      · split
        · exact finishes _ _ _ _ _
        · split
          · exact finishes _ _ _ _ _
          · dsimp only
            split
            · exact finishes _ _ _ _ _
            · refine BlockTriple.step
                (raises (publishGuard_ignored uncovered) fails) ?_
              intro current
              split
              · exact finishes _ _ _ _ _
              · refine BlockTriple.step
                  (raises (reads rfl uncovered rfl) fails) ?_
                intro vote
                refine BlockTriple.set ?_
                split
                · refine BlockTriple.step
                    (publishReviewInput
                      (raises (publishGuard_ignored uncovered) fails)
                      (raises (request (Runs.neutral rfl)) keeps) keeps keeps) ?_
                  intro response
                  split
                  · exact finishes _ _ _ _ _
                  · exact finishes _ _ _ _ _
                · exact BlockTriple.throw known.implies_released
    · exact BlockTriple.throw known.implies_released

theorem retryVote {posted : Bool} {error : PyError}
    (about : job.id = site.id) (uncovered : known.covered = false)
    (silent : known.silent = true)
    (publishing : ∀ state, known.states state → state = .publishing) :
    site.Triple known (retryVote settings job posted error)
      (fun _ => known.released) known.released.plainly := by
  unfold PeReview.retryVote
  rw [about]
  refine bind (raises (reads rfl uncovered rfl) known.plainly_released) ?_
  intro vote
  split
  · exact finishVote uncovered silent
  · refine bind retryDelay fun delay => bind (plain (Runs.neutral rfl)) ?_
    intro now
    refine bind (acts rfl uncovered ?_) fun _ => pure (.refl _)
    rintro action ⟨⟩
    exact ⟨silent, fun state holds => (publishing state holds).symm⟩

theorem recoverVote {posted : Bool} {error : PyError}
    (about : job.id = site.id) (uncovered : known.covered = false)
    (silent : known.silent = true)
    (publishing : ∀ state, known.states state → state = .publishing) :
    site.Triple known (recoverVote settings job posted error)
      (fun _ => known.released) known.released.plainly := by
  unfold PeReview.recoverVote
  rw [about]
  split
  · exact finishVote uncovered silent
  · split
    · split
      · exact finishVote uncovered silent
      · exact finishVote uncovered silent
    · split
      · exact finishVote uncovered silent
      · rename_i impermanent
        split
        · exact retryVote about uncovered silent publishing
        · rename_i intransient
          have plain : error.isPlain = true := by
            simp [PyError.isPlain, impermanent, intransient]
          exact throw (known.implies_released.trans
            (Knowledge.implies_given _ plain))

/-- Voting leaves the job publishing or finished, and raises plain errors only. -/
theorem publishVote {allowVote : Bool} {skipReason : Option String}
    (about : job.id = site.id) (uncovered : known.covered = false)
    (silent : known.silent = true)
    (publishing : ∀ state, known.states state → state = .publishing) :
    site.Triple known (publishVote settings job allowVote skipReason)
      (fun _ => known.released) known.released.plainly := by
  unfold PeReview.publishVote
  rw [about]
  refine bind (raises (reads rfl uncovered rfl) known.plainly_released) ?_
  intro stored
  cases stored with
  | none =>
      exact throw (known.implies_released.trans (Knowledge.implies_given _ rfl))
  | some vote =>
      dsimp only
      split
      · exact finishVote uncovered silent
      · split
        · exact finishVote uncovered silent
        · refine tryWith (processVote about uncovered silent) ?_
          intro error posted
          exact recoverVote about rfl silent publishing

end Site.Triple

end PeReview
