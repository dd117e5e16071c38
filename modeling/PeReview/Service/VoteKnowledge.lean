import PeReview.Jobs.Answers
import PeReview.Jobs.VoteLeases
import PeReview.Process.Watched
import PeReview.Service.Guarantees
import PeReview.Service.VoteTriples

/-!
# What a pass knows of its vote

What a worker has read of the vote of its job stays true as long as its lease is live and it
does not dispatch the vote itself; the payload it may POST is the one of the vote for good.  So
no interleaving of workers makes a vote exceed its attempts.
-/

namespace PeReview

open PeReview.Process

namespace VotePass

variable {pass : VotePass} {request : Call} {answer : Answer request}

theorem read_completes {deferDone : Bool} (answer : Except PyError JobRecord) :
    (pass.completes deferDone answer).read = pass.read := by
  cases answer <;> rfl

theorem read_observes (answer : Except PyError VoteObservation) :
    (pass.observes answer).read = pass.read := by
  cases answer <;> rfl

theorem read_dispatches (answer : Except PyError ReviewVote) :
    (pass.dispatches answer).read = none := by
  cases answer <;> rfl

/-- The attempts a pass counts on were read by its last call or before it, and the vote was not
dispatched since. -/
theorem read_next {attempts : Nat} (known : (pass.next request answer).read = some attempts) :
    (pass.read = some attempts ∧ ∀ id accountId, request ≠ .store (.dispatchVote id accountId)) ∨
      ∃ id vote, (⟨request, answer⟩ : Exchange Call Answer) =
          ⟨.store (.voteOf id), .ok (some vote)⟩ ∧ vote.attempts = attempts := by
  have kept : ∀ {Answered : Prop}, pass.read = some attempts →
      (∀ id accountId, request ≠ .store (.dispatchVote id accountId)) →
        (pass.read = some attempts ∧
          ∀ id accountId, request ≠ .store (.dispatchVote id accountId)) ∨ Answered :=
    fun same other => Or.inl ⟨same, other⟩
  cases request with
  | store call =>
      cases call with
      | completePublicationAndMarkDone publication id response deferDone =>
          refine kept ((read_completes answer).symm.trans known) ?_
          intro _ _ same
          cases same
      | voteOf id =>
          change (pass.reads answer).read = some attempts at known
          rcases answer with error | _ | vote
          · refine kept known ?_
            intro _ _ same
            cases same
          · refine kept known ?_
            intro _ _ same
            cases same
          · exact Or.inr ⟨id, vote, rfl, Option.some.inj known⟩
      | dispatchVote id accountId =>
          cases (read_dispatches answer).symm.trans known
      | ensureVote | retryVote | finishVote => cases known
      | _ =>
          refine kept known ?_
          intro _ _ same
          cases same
  | codeReviewVoteObservation id accountId payload =>
      refine kept ((read_observes answer).symm.trans known) ?_
      intro _ _ same
      cases same
  | _ =>
      refine kept known ?_
      intro _ _ same
      cases same

theorem permit_completes {deferDone : Bool} (answer : Except PyError JobRecord) :
    (pass.completes deferDone answer).permit = pass.permit := by
  cases answer <;> rfl

theorem permit_reads (answer : Except PyError (Option ReviewVote)) :
    (pass.reads answer).permit = pass.permit := by
  rcases answer with _ | _ | _ <;> rfl

theorem permit_observes (answer : Except PyError VoteObservation) :
    (pass.observes answer).permit = pass.permit := by
  cases answer <;> rfl

/-- The payload a pass may POST was recorded by its last call or before it, and no POST left
since. -/
theorem permit_next {payload : VoteInput}
    (known : (pass.next request answer).permit = some payload) :
    (pass.permit = some payload ∧ (∀ id accountId, request ≠ .store (.dispatchVote id accountId)) ∧
        ∀ id sent, request ≠ .postVote id sent) ∨
      ∃ id accountId vote, (⟨request, answer⟩ : Exchange Call Answer) =
          ⟨.store (.dispatchVote id accountId), .ok vote⟩ ∧
        vote.requestPayload = some payload := by
  by_cases dispatches : ∃ id accountId, request = .store (.dispatchVote id accountId)
  · obtain ⟨id, accountId, rfl⟩ := dispatches
    right
    change (pass.dispatches answer).permit = some payload at known
    cases answer with
    | error error => cases known
    | ok vote => exact ⟨id, accountId, vote, rfl, known⟩
  · push Not at dispatches
    left
    cases request with
    | store call =>
        refine ⟨?_, dispatches, fun _ _ same => by cases same⟩
        cases call with
        | completePublicationAndMarkDone => exact (permit_completes answer).symm.trans known
        | voteOf => exact (permit_reads answer).symm.trans known
        | dispatchVote id accountId => exact absurd rfl (dispatches id accountId)
        | _ => exact known
    | codeReviewVoteObservation =>
        exact ⟨(permit_observes answer).symm.trans known, dispatches,
          fun _ _ same => by cases same⟩
    | postVote => cases known
    | _ => exact ⟨known, dispatches, fun _ _ same => by cases same⟩

end VotePass

namespace World

variable {hashes : Hashes} {lease : Time} {limit : Nat} {worker : WorkerId} {pass : VotePass}
  {source target : World} {label : SystemLabel}

/-- No vote has been dispatched more often than it may be. -/
structure Sparing (limit : Nat) (world : World) : Prop where
  calm : world.system.Calm
  spare : ∀ id, world.system.store.attemptsOf id ≤ limit

/-- What a pass has learnt of the vote of its job holds. -/
structure Learnt (worker : WorkerId) (pass : VotePass) (world : World) : Prop where
  read : ∀ attempts, pass.read = some attempts → world.system.Live worker pass.job →
    world.system.store.attemptsOf pass.job = attempts
  permit : ∀ payload, pass.permit = some payload →
    ∃ vote, world.system.store.voteOf pass.job = some vote ∧
      vote.requestPayload = some payload

theorem Learnt.fresh (worker : WorkerId) (id : JobId) (world : World) :
    world.Learnt worker (VotePass.fresh id) := by
  constructor
  · intro attempts read
    cases read
  · intro payload permit
    cases permit

theorem Sparing.of_system (before : source.Sparing limit)
    (same : target.system = source.system) : target.Sparing limit := by
  constructor
  · rw [same]
    exact before.calm
  · rw [same]
    exact before.spare

theorem Learnt.of_system (learnt : source.Learnt worker pass)
    (same : target.system = source.system) : target.Learnt worker pass := by
  constructor
  · rw [same]
    exact learnt.read
  · rw [same]
    exact learnt.permit

/-- A step that is neither a claim of the worker nor its own dispatch leaves true what the worker
has learnt. -/
theorem Learnt.next (calm : source.system.Calm) (learnt : source.Learnt worker pass)
    (stepped : target.system = source.system.next hashes lease label)
    (foreign : ∀ locked, label ≠ .claim worker locked)
    (silent : ∀ accountId, label = .work worker (.dispatchVote pass.job accountId) →
      pass.read = none) :
    target.Learnt worker pass := by
  constructor
  · intro attempts read live
    rw [stepped] at live ⊢
    have before : source.system.Live worker pass.job := System.Live.before calm foreign live
    rcases System.next_attemptsOf hashes lease source.system label pass.job with
      same | ⟨other, accountId, requested, holder, _⟩
    · rw [same]
      exact learnt.read attempts read before
    · cases before.unique holder
      cases (silent accountId requested).symm.trans read
  · intro payload permit
    rw [stepped]
    obtain ⟨vote, known, same⟩ := learnt.permit payload permit
    exact System.next_requestPayload known same

/-- A step keeps within the attempts if the worker of a dispatch has one to spare. -/
theorem Sparing.next (before : source.Sparing limit)
    (stepped : target.system = source.system.next hashes lease label)
    (spare : ∀ other id accountId, label = .work other (.dispatchVote id accountId) →
      source.system.Live other id → source.system.store.attemptsOf id < limit) :
    target.Sparing limit := by
  constructor
  · rw [stepped]
    exact before.calm.next
  · intro id
    rw [stepped]
    rcases System.next_attemptsOf hashes lease source.system label id with
      same | ⟨other, accountId, requested, holder, grown⟩
    · rw [same]
      exact before.spare id
    · rw [grown]
      exact spare other id accountId requested holder

/-! ## The calls of a worker -/

section Calls

variable {call : StoreCall} {answer : Answer (.store call)}

/-- A pass may dispatch only with an attempt to spare. -/
theorem Learnt.spare {other : WorkerId} {id : JobId} {accountId : Int}
    (learnt : source.Learnt worker pass) (allowed : pass.Allowed limit (.store call))
    (same : (SystemLabel.work worker call) = .work other (.dispatchVote id accountId))
    (live : source.system.Live other id) : source.system.store.attemptsOf id < limit := by
  cases same
  obtain ⟨rfl, ready⟩ := allowed
  obtain ⟨attempts, read, spare⟩ := ready.spare
  rw [learnt.read attempts read live]
  exact spare

/-- A call whose worker learns nothing of the vote. -/
theorem Learnt.unheard {request : Call} {answer : Answer request}
    (learnt : source.Learnt worker pass)
    (unheard : ∀ call value, (⟨request, answer⟩ : Exchange Call Answer) ≠
      ⟨.store call, (.ok value : Except PyError call.Result)⟩) :
    source.Learnt worker (pass.next request answer) := by
  constructor
  · intro attempts known live
    rw [VotePass.job_next] at live ⊢
    rcases VotePass.read_next known with ⟨read, _⟩ | ⟨id, vote, same, _⟩
    · exact learnt.read attempts read live
    · exact absurd same (unheard _ _)
  · intro payload known
    rw [VotePass.job_next]
    rcases VotePass.permit_next known with ⟨permit, _⟩ | ⟨id, accountId, vote, same, _⟩
    · exact learnt.permit payload permit
    · exact absurd same (unheard _ _)

/-- A transaction that was committed, whether its worker hears of it or not. -/
theorem Learnt.committed (calm : source.system.Calm) (learnt : source.Learnt worker pass)
    (allowed : pass.Allowed limit (.store call))
    (stepped : target.system = source.system.next hashes lease (.work worker call))
    (answered : answer = (.error .database : Except PyError call.Result) ∨
      answer = (call.run hashes source.now lease worker source.system.store).map Prod.snd) :
    target.Learnt worker (pass.next (.store call) answer) := by
  constructor
  · intro attempts known live
    rw [VotePass.job_next] at live ⊢
    rcases VotePass.read_next known with ⟨read, other⟩ | ⟨id, vote, same, counted⟩
    · have kept : target.Learnt worker pass := by
        refine learnt.next calm stepped (fun _ same => by cases same) ?_
        intro accountId same
        cases same
        exact absurd rfl (other pass.job accountId)
      exact kept.read attempts read live
    · cases same
      obtain rfl : id = pass.job := allowed
      rw [stepped]
      rcases answered with lost | ran
      · cases lost
      · have stored : source.system.store.voteOf pass.job = some vote :=
          (Except.ok.inj ran).symm
        rcases System.next_attemptsOf hashes lease source.system
            (.work worker (.voteOf pass.job)) pass.job with same | ⟨_, _, requested, _⟩
        · rw [same]
          unfold Store.attemptsOf
          rw [stored]
          exact counted
        · cases requested
  · intro payload known
    rw [VotePass.job_next]
    rcases VotePass.permit_next known with ⟨permit, _⟩ | ⟨id, accountId, vote, same, sent⟩
    · obtain ⟨vote, stored, payloads⟩ := learnt.permit payload permit
      rw [stepped]
      exact System.next_requestPayload stored payloads
    · cases same
      obtain ⟨rfl, _⟩ := allowed
      rcases answered with lost | ran
      · cases lost
      · cases outcome : source.system.store.dispatchVote source.now pass.job worker accountId with
        | error error =>
            rw [StoreCall.run, outcome] at ran
            cases ran
        | ok result =>
            obtain ⟨store, dispatched⟩ := result
            rw [StoreCall.run, outcome] at ran
            cases ran
            obtain ⟨_, _, _, _, _, _, _, _, _, _, reached⟩ := Store.dispatchVote_eq_ok outcome
            refine ⟨dispatched, ?_, sent⟩
            have committed : target.system.store = store := by
              rw [stepped]
              simp only [System.next, StoreCall.run]
              rw [show source.system.now = source.now from rfl, outcome]
              rfl
            rw [committed]
            exact reached

/-- The records a transaction answers with are those of its job. -/
theorem answers_run
    (answered :
      answer = (call.run hashes source.now lease worker source.system.store).map Prod.snd) :
    Call.Answers (.store call) answer := by
  subst answered
  cases call with
  | transition id goal releaseLease =>
      intro record answered
      change (source.system.store.transition source.now id goal worker releaseLease).map
        Prod.snd = .ok record at answered
      cases ran : source.system.store.transition source.now id goal worker releaseLease with
      | error error =>
          rw [ran] at answered
          cases answered
      | ok result =>
          obtain ⟨store, returned⟩ := result
          rw [ran] at answered
          cases answered
          exact (Store.transition_answer ran).1
  | completePublicationAndMarkDone publication id response deferDone =>
      intro record answered
      change (source.system.store.completePublicationAndMarkDone source.now publication id
        worker response deferDone).map Prod.snd = .ok record at answered
      cases ran : source.system.store.completePublicationAndMarkDone source.now publication id
          worker response deferDone with
      | error error =>
          rw [ran] at answered
          cases answered
      | ok result =>
          obtain ⟨store, returned⟩ := result
          rw [ran] at answered
          cases answered
          exact Store.completePublicationAndMarkDone_answer ran
  | _ => exact True.intro

theorem act_answers {request : Call} {choice : Choice} {answer : Answer request}
    (acted : act hashes lease worker request choice source = some (target, answer)) :
    Call.Answers request answer := by
  have lost : ∀ call : StoreCall,
      Call.Answers (.store call) (.error .database : Except PyError call.Result) := by
    intro call
    cases call <;> first | exact True.intro | (intro record impossible; cases impossible)
  cases request with
  | store call =>
      rcases act_store acted with ⟨_, answered⟩ | ⟨_, _, answered⟩ | ⟨_, answered, _⟩
      · subst answered
        exact lost call
      · subst answered
        exact lost call
      · exact answers_run answered
  | _ => exact True.intro

/-- A call keeps within the attempts, its worker learns the truth, and the others go on knowing
it. -/
theorem act_learnt {request : Call} {choice : Choice} {answer : Answer request}
    (sparing : source.Sparing limit) (learnt : source.Learnt worker pass)
    (allowed : pass.Allowed limit request)
    (acted : act hashes lease worker request choice source = some (target, answer)) :
    target.Sparing limit ∧ Call.Answers request answer ∧
      target.Learnt worker (pass.next request answer) ∧
      ∀ other known, worker ≠ other → source.Learnt other known → target.Learnt other known := by
  by_cases stored : ∃ call, request = .store call
  · obtain ⟨call, rfl⟩ := stored
    have outcomes : (target = source ∧ answer = (.error .database : Except PyError call.Result)) ∨
        (target.system = source.system.next hashes lease (.work worker call) ∧
          (answer = (.error .database : Except PyError call.Result) ∨ answer =
            (call.run hashes source.now lease worker source.system.store).map Prod.snd)) := by
      rcases act_store acted with ⟨same, answered⟩ | ⟨ran, _, answered⟩ | ⟨ran, answered, _⟩
      · exact Or.inl ⟨same, answered⟩
      · exact Or.inr ⟨ran.system, Or.inl answered⟩
      · exact Or.inr ⟨ran.system, Or.inr answered⟩
    rcases outcomes with ⟨rfl, answered⟩ | ⟨stepped, answered⟩
    · refine ⟨sparing, act_answers acted, ?_, ?_⟩
      · apply learnt.unheard
        intro other value same
        cases same
        cases answered
      · exact fun _ _ _ knew => knew
    · refine ⟨sparing.next stepped fun _ _ _ => learnt.spare allowed,
        act_answers acted, learnt.committed sparing.calm allowed stepped answered, ?_⟩
      intro other known different knew
      refine knew.next sparing.calm stepped (fun _ same => by cases same) ?_
      intro accountId same
      cases same
      exact absurd rfl different
  · push Not at stored
    have same := (act_request stored acted).system.1
    refine ⟨sparing.of_system same, act_answers acted, Learnt.of_system ?_ same,
      fun _ _ _ knew => knew.of_system same⟩
    apply learnt.unheard
    intro call value impossible
    cases impossible
    exact stored call rfl

end Calls

/-- What happens without a worker's doing. -/
theorem happen_learnt {event : Event} (sparing : source.Sparing limit)
    (happened : happen hashes lease event source = some target) :
    target.Sparing limit ∧
      ∀ other known, source.Learnt other known → target.Learnt other known := by
  cases event with
  | environment label =>
      simp only [happen] at happened
      split at happened
      · rename_i environment
        cases happened
        constructor
        · refine sparing.next rfl ?_
          intro _ _ _ same
          rw [same] at environment
          cases environment
        · intro other known knew
          refine knew.next sparing.calm rfl ?_ ?_
          · intro _ same
            rw [same] at environment
            cases environment
          · intro _ same
            rw [same] at environment
            cases environment
      · cases happened
  | heartbeat worker id =>
      have stepped :
          target.system = source.system.next hashes lease (.work worker (.heartbeat id)) := by
        cases happened
        rfl
      constructor
      · refine sparing.next stepped ?_
        intro _ _ _ same
        cases same
      · intro other known knew
        refine knew.next sparing.calm stepped ?_ ?_
        · intro _ same
          cases same
        · intro _ same
          cases same
  | commit id number =>
      have same : target.system = source.system := by
        simp only [happen] at happened
        split at happened
        · cases happened
        · split at happened
          · cases happened
            rfl
          · cases happened
      exact ⟨sparing.of_system same, fun _ _ knew => knew.of_system same⟩

/-- A claim. -/
theorem begin_learnt {reviewer : ReviewWorker} {seed : Seed} {program : Program Call Answer Unit}
    (sparing : source.Sparing limit)
    (begun : source.begin reviewer worker seed = (target, program)) :
    target.Sparing limit ∧
      ∀ other known, worker ≠ other → source.Learnt other known → target.Learnt other known := by
  have stepped := (begin_framed reviewer seed begun).1
  constructor
  · refine sparing.next stepped ?_
    intro _ _ _ same
    cases same
  · intro other known different knew
    refine knew.next sparing.calm stepped ?_ ?_
    · intro _ same
      cases same
      exact different rfl
    · intro _ same
      cases same

/-- Whatever a claim answers, its worker keeps to the protocol of the vote. -/
theorem begin_keeps {reviewer : ReviewWorker} {seed : Seed} {program : Program Call Answer Unit}
    (begun : source.begin reviewer worker seed = (target, program)) :
    ∃ id, program.Keeps (voteProtocol reviewer.settings.publishAttempts) (fun _ _ => True)
      (VotePass.fresh id) := by
  simp only [begin] at begun
  split at begun
  · cases begun
    exact ⟨0, True.intro⟩
  · rename_i record _
    split at begun
    · cases begun
      exact ⟨0, True.intro⟩
    · cases begun
      exact ⟨record.id, runClaimed_keeps reviewer record⟩

/-- The vote protocol is sound for the service. -/
theorem voteSound (reviewer : ReviewWorker) :
    Watched.Sound (effects reviewer) (voteProtocol reviewer.settings.publishAttempts)
      (fun pass => ∃ id, pass = VotePass.fresh id) (Sparing reviewer.settings.publishAttempts)
      fun worker pass world => world.Learnt worker pass where
  performed := by
    intro worker request choice pass source target answer sparing learnt allowed performed
    have noted : (source.note worker).Sparing reviewer.settings.publishAttempts :=
      sparing.of_system note_system
    obtain ⟨spared, answers, own, others⟩ :=
      act_learnt noted (learnt.of_system note_system) allowed performed
    exact ⟨spared, answers, own, fun other known different knew =>
      others other known different (knew.of_system note_system)⟩
  happened := fun sparing happened => happen_learnt sparing happened
  spawned := by
    intro worker seed source target program sparing spawned
    have begun : source.begin reviewer worker seed = (target, program) := Option.some.inj spawned
    obtain ⟨spared, others⟩ := begin_learnt sparing begun
    obtain ⟨id, keeps⟩ := begin_keeps begun
    exact ⟨spared, ⟨VotePass.fresh id, ⟨id, rfl⟩, keeps, Learnt.fresh worker id target⟩, others⟩
  idle := fun worker world _ => ⟨VotePass.fresh 0, ⟨0, rfl⟩, Learnt.fresh worker 0 world⟩

end World

end PeReview
