import PeReview.Service.VoteKnowledge

/-!
# The vote across workers

Over every run of the service: a vote is dispatched only in a pass that recorded the comments
and saw the change without the marker of the vote, each POST of a vote leaves under a dispatch
of its own, and no vote is POSTed more often than it may be tried.
-/

namespace PeReview

open PeReview.Process

variable {id : JobId} {payload : VoteInput} {state : VotePass}

/-! ## The evidence of a pass -/

/-- The call recorded the comments of the job as posted, and left its vote to come. -/
def recordsComments (id : JobId) (exchange : Exchange Call Answer) : Prop :=
  ∃ publication response record, exchange =
    ⟨.store (.completePublicationAndMarkDone publication id response true),
      (.ok record : Except PyError JobRecord)⟩

def seesChange (id : JobId) (marker : Bool) (exchange : Exchange Call Answer) : Prop :=
  ∃ accountId payload observation, exchange =
      ⟨.codeReviewVoteObservation id accountId payload,
        (.ok observation : Except PyError VoteObservation)⟩ ∧
    observation.markerFound = marker

def recordsDispatch (id : JobId) (payload : VoteInput) (exchange : Exchange Call Answer) :
    Prop :=
  ∃ accountId vote, exchange =
      ⟨.store (.dispatchVote id accountId), (.ok vote : Except PyError ReviewVote)⟩ ∧
    vote.requestPayload = some payload

def postsVote (id : JobId) (exchange : Exchange Call Answer) : Prop :=
  ∃ payload answer, exchange = ⟨.postVote id payload, answer⟩

/-- A pass that may dispatch the vote of the job. -/
structure Justified (id : JobId) (pass : List (Exchange Call Answer)) : Prop where
  commented : ∃ exchange ∈ pass, recordsComments id exchange
  observed : ∃ exchange ∈ pass, seesChange id false exchange
  unmarked : ∀ exchange ∈ pass, ¬seesChange id true exchange

/-- A pass that may POST the payload as the vote of the job: it recorded a dispatch of it that
it has not used yet. -/
def Entitled (id : JobId) (payload : VoteInput) (pass : List (Exchange Call Answer)) : Prop :=
  ∃ before dispatch later, pass = before ++ dispatch :: later ∧ Justified id before ∧
    recordsDispatch id payload dispatch ∧ ∀ exchange ∈ later, ¬postsVote id exchange

/-- What the state of the protocol says of the calls that led to it. -/
structure VoteEvidence (id : JobId) (pass : List (Exchange Call Answer)) (state : VotePass) :
    Prop where
  job : state.job = id
  commented : state.commented = true → ∃ exchange ∈ pass, recordsComments id exchange
  observed : state.observed = true →
    state.marked = true ∨ ∃ exchange ∈ pass, seesChange id false exchange
  unmarked : state.marked = false → ∀ exchange ∈ pass, ¬seesChange id true exchange
  permit : ∀ payload, state.permit = some payload → Entitled id payload pass

namespace VotePass

variable {request : Call} {answer : Answer request} {pass : VotePass}

theorem commented_next (commented : (pass.next request answer).commented = true) :
    pass.commented = true ∨
      ∃ publication job response record, (⟨request, answer⟩ : Exchange Call Answer) =
        ⟨.store (.completePublicationAndMarkDone publication job response true),
          (.ok record : Except PyError JobRecord)⟩ := by
  cases request with
  | store call =>
      cases call with
      | completePublicationAndMarkDone publication job response deferDone =>
          change (pass.completes deferDone answer).commented = true at commented
          cases answer with
          | error error => exact Or.inl commented
          | ok record =>
              cases deferDone with
              | true => exact Or.inr ⟨publication, job, response, record, rfl⟩
              | false => exact Or.inl (by simpa [completes] using commented)
      | voteOf => rcases answer with _ | _ | _ <;> exact Or.inl commented
      | dispatchVote => cases answer <;> exact Or.inl commented
      | _ => exact Or.inl commented
  | codeReviewVoteObservation => cases answer <;> exact Or.inl commented
  | _ => exact Or.inl commented

/-- Only a look at the change tells of its marker. -/
theorem observed_next :
    ((pass.next request answer).observed = pass.observed ∧
        (pass.next request answer).marked = pass.marked ∧
        ∀ job marker, ¬seesChange job marker ⟨request, answer⟩) ∨
      ∃ job accountId payload observation, (⟨request, answer⟩ : Exchange Call Answer) =
          ⟨.codeReviewVoteObservation job accountId payload,
            (.ok observation : Except PyError VoteObservation)⟩ ∧
        (pass.next request answer).marked = (pass.marked || observation.markerFound) := by
  have blind : (∀ job accountId payload, request ≠ .codeReviewVoteObservation job accountId
      payload) → ∀ job marker, ¬seesChange job marker ⟨request, answer⟩ := by
    rintro other job marker ⟨accountId, payload, observation, same, _⟩
    cases same
    exact other job accountId payload rfl
  cases request with
  | codeReviewVoteObservation job accountId payload =>
      cases answer with
      | error error =>
          refine Or.inl ⟨rfl, rfl, ?_⟩
          rintro other marker ⟨_, _, _, same, _⟩
          cases same
      | ok observation => exact Or.inr ⟨job, accountId, payload, observation, rfl, rfl⟩
  | store call =>
      left
      refine ⟨?_, ?_, blind fun _ _ _ same => by cases same⟩
      · cases call with
        | completePublicationAndMarkDone => cases answer <;> rfl
        | voteOf => rcases answer with _ | _ | _ <;> rfl
        | dispatchVote => cases answer <;> rfl
        | _ => rfl
      · cases call with
        | completePublicationAndMarkDone => cases answer <;> rfl
        | voteOf => rcases answer with _ | _ | _ <;> rfl
        | dispatchVote => cases answer <;> rfl
        | _ => rfl
  | _ => exact Or.inl ⟨rfl, rfl, blind fun _ _ _ same => by cases same⟩

end VotePass

namespace VoteEvidence

variable {limit : Nat} {pass : List (Exchange Call Answer)} {request : Call}
  {answer : Answer request}

theorem fresh (id : JobId) : VoteEvidence id [] (VotePass.fresh id) where
  job := rfl
  commented := by
    intro impossible
    cases impossible
  observed := by
    intro impossible
    cases impossible
  unmarked := by
    intro _ exchange member
    cases member
  permit := by
    intro payload impossible
    cases impossible

/-- A pass that is ready to dispatch is justified. -/
theorem justified (evidence : VoteEvidence id pass state) (ready : state.Ready limit) :
    Justified id pass where
  commented := evidence.commented ready.commented
  observed := by
    rcases evidence.observed ready.observed with marked | seen
    · cases ready.unmarked.symm.trans marked
    · exact seen
  unmarked := evidence.unmarked ready.unmarked

theorem grows (evidence : VoteEvidence id pass state) (allowed : state.Allowed limit request) :
    VoteEvidence id (pass ++ [⟨request, answer⟩]) (state.next request answer) where
  job := (VotePass.job_next request answer).trans evidence.job
  commented := by
    intro commented
    rcases VotePass.commented_next commented with before | ⟨publication, job, response, record, same⟩
    · obtain ⟨exchange, member, records⟩ := evidence.commented before
      exact ⟨exchange, List.mem_append_left _ member, records⟩
    · rw [same]
      cases same
      obtain rfl : job = id := allowed.trans evidence.job
      exact ⟨_, List.mem_append_right _ List.mem_cons_self, publication, response, record, rfl⟩
  observed := by
    intro observed
    rcases @VotePass.observed_next request answer state with
      ⟨sameObserved, sameMarked, _⟩ | ⟨job, accountId, payload, observation, same, marked⟩
    · rw [sameMarked]
      rcases evidence.observed (sameObserved.symm.trans observed) with marked | ⟨exchange, member, seen⟩
      · exact Or.inl marked
      · exact Or.inr ⟨exchange, List.mem_append_left _ member, seen⟩
    · rw [marked, same]
      cases same
      obtain rfl : job = id := allowed.trans evidence.job
      cases found : observation.markerFound with
      | true => exact Or.inl (Bool.or_true _)
      | false =>
          exact Or.inr ⟨_, List.mem_append_right _ List.mem_cons_self, accountId, payload,
            observation, rfl, found⟩
  unmarked := by
    intro clear
    rcases @VotePass.observed_next request answer state with
      ⟨_, sameMarked, blind⟩ | ⟨job, accountId, payload, observation, same, marked⟩
    · intro exchange member
      rcases List.mem_append.mp member with earlier | last
      · exact evidence.unmarked (sameMarked.symm.trans clear) exchange earlier
      · rw [List.mem_singleton.mp last]
        exact blind id true
    · rw [marked, Bool.or_eq_false_iff] at clear
      intro exchange member
      rcases List.mem_append.mp member with earlier | last
      · exact evidence.unmarked clear.1 exchange earlier
      · rw [List.mem_singleton.mp last, same]
        rintro ⟨_, _, seen, equal, found⟩
        cases equal
        cases clear.2.symm.trans found
  permit := by
    intro payload permit
    rcases VotePass.permit_next permit with
      ⟨before, _, unsent⟩ | ⟨job, accountId, vote, same, sent⟩
    · obtain ⟨earlier, dispatch, later, rfl, justified, dispatched, unused⟩ :=
        evidence.permit payload before
      refine ⟨earlier, dispatch, later ++ [⟨request, answer⟩], ?_, justified, dispatched, ?_⟩
      · rw [List.append_assoc, List.cons_append]
      · intro exchange member
        rcases List.mem_append.mp member with old | last
        · exact unused exchange old
        · rw [List.mem_singleton.mp last]
          rintro ⟨other, reply, equal⟩
          cases equal
          exact unsent id other rfl
    · rw [same]
      cases same
      obtain ⟨about, ready⟩ := allowed
      obtain rfl : job = id := about.trans evidence.job
      refine ⟨pass, _, [], rfl, evidence.justified ready, ⟨accountId, vote, rfl, sent⟩, ?_⟩
      intro exchange member
      cases member

end VoteEvidence

/-! ## What a vote costs -/

def postCount (id : JobId) : Exchange Call Answer → Nat
  | ⟨.postVote job _, _⟩ => if job = id then 1 else 0
  | _ => 0

def dispatchCount (id : JobId) : Exchange Call Answer → Nat
  | ⟨.store (.dispatchVote job _), answer⟩ => if job = id && Except.isOk answer then 1 else 0
  | _ => 0

namespace VotePass

variable {request : Call} {answer : Answer request}

/-- A POST that is permitted and has not left yet. -/
def credit (id : JobId) (pass : VotePass) : Nat :=
  if pass.job = id ∧ pass.permit.isSome then 1 else 0

theorem credit_le (id : JobId) (pass : VotePass) : pass.credit id ≤ 1 := by
  unfold credit
  split
  · exact Nat.le_refl 1
  · exact Nat.zero_le 1

theorem credit_of_ne {pass : VotePass} (different : pass.job ≠ id) : pass.credit id = 0 := by
  unfold credit
  rw [if_neg]
  rintro ⟨same, _⟩
  exact different same

theorem credit_of_none {pass : VotePass} (absent : pass.permit = none) : pass.credit id = 0 := by
  unfold credit
  rw [if_neg]
  rw [absent]
  rintro ⟨_, impossible⟩
  cases impossible

/-- A call that is neither a dispatch nor a POST leaves the credit alone, or takes it. -/
theorem credit_next {pass : VotePass}
    (silent : ∀ job accountId, request ≠ .store (.dispatchVote job accountId)) :
    (pass.next request answer).credit id ≤ pass.credit id := by
  cases permit : (pass.next request answer).permit with
  | none =>
      rw [credit_of_none permit]
      exact Nat.zero_le _
  | some payload =>
      rcases permit_next permit with ⟨before, _, _⟩ | ⟨job, accountId, vote, same, _⟩
      · unfold credit
        rw [permit, before, job_next]
      · cases same
        exact absurd rfl (silent job accountId)

/-- Only a recorded dispatch gives credit. -/
theorem credit_dispatches {pass : VotePass} {job : JobId} (about : job = pass.job)
    (answer : Except PyError ReviewVote) :
    (pass.dispatches answer).credit id ≤ if job = id && Except.isOk answer then 1 else 0 := by
  cases answer with
  | error error =>
      rw [credit_of_none rfl]
      exact Nat.zero_le _
  | ok vote =>
      by_cases same : job = id
      · rw [if_pos (by simp [same, Except.isOk, Except.toBool])]
        exact credit_le id _
      · rw [credit_of_ne]
        · exact Nat.zero_le _
        · rw [job_dispatches, ← about]
          exact same

end VotePass

/-- Each POST is paid for by a dispatch that was recorded. -/
theorem voteSolvent (limit : Nat) (id : JobId) :
    Watched.Solvent (voteProtocol limit) (fun pass => ∃ job, pass = VotePass.fresh job)
      (VotePass.credit id) (postCount id) (dispatchCount id) where
  begins := by
    rintro pass ⟨job, rfl⟩
    exact VotePass.credit_of_none rfl
  covered := by
    intro pass request answer allowed
    by_cases dispatches : ∃ job accountId, request = .store (.dispatchVote job accountId)
    · obtain ⟨job, accountId, rfl⟩ := dispatches
      obtain ⟨about, _⟩ := allowed
      have earned := @VotePass.credit_dispatches id pass job about answer
      change (pass.dispatches answer).credit id + 0 ≤ pass.credit id +
        if job = id && Except.isOk answer then 1 else 0
      exact earned.trans (Nat.le_add_left _ _)
    · push Not at dispatches
      have kept := @VotePass.credit_next id request answer pass dispatches
      by_cases posts : ∃ job payload, request = .postVote job payload
      · obtain ⟨job, payload, rfl⟩ := posts
        obtain ⟨about, permit⟩ := allowed
        change (pass.next (.postVote job payload) answer).credit id +
          (if job = id then 1 else 0) ≤ pass.credit id + 0
        rw [VotePass.credit_of_none rfl]
        by_cases same : job = id
        · unfold VotePass.credit
          rw [if_pos same, if_pos ⟨about.symm.trans same, by rw [permit]; rfl⟩]
        · rw [if_neg same]
          exact Nat.zero_le _
      · push Not at posts
        have free : postCount id ⟨request, answer⟩ = 0 := by
          cases request with
          | postVote job payload => exact absurd rfl (posts job payload)
          | _ => rfl
        change (pass.next request answer).credit id + postCount id ⟨request, answer⟩ ≤
          pass.credit id + dispatchCount id ⟨request, answer⟩
        omega

namespace World

variable {hashes : Hashes} {lease : Time} {worker : WorkerId} {source target : World}

theorem attemptsOf_next {label : SystemLabel}
    (stepped : target.system = source.system.next hashes lease label) :
    source.system.store.attemptsOf id ≤ target.system.store.attemptsOf id := by
  rw [stepped]
  rcases System.next_attemptsOf hashes lease source.system label id with
    same | ⟨_, _, _, _, grown⟩
  · exact Nat.le_of_eq same.symm
  · rw [grown]
    exact Nat.le_succ _

/-- A recorded dispatch: the worker is live, the job is PUBLISHING, and the vote, which was open
and of no other account, has one attempt more and the payload it had. -/
theorem dispatch_recorded {accountId : Int} {choice : Choice} {vote : ReviewVote}
    (acted : act hashes lease worker (.store (.dispatchVote id accountId)) choice source =
      some (target, (.ok vote : Except PyError ReviewVote))) :
    source.system.Live worker id ∧
      (∃ row, source.system.store.row? id = some row ∧ row.state = .publishing) ∧
      ∃ before, source.system.store.voteOf id = some before ∧
        before.status.isTerminal = false ∧
        (before.accountId = none ∨ before.accountId = some accountId) ∧
        target.system.store.voteOf id = some vote ∧
        vote.requestPayload = before.requestPayload ∧ vote.attempts = before.attempts + 1 := by
  rcases act_store acted with ⟨_, answered⟩ | ⟨_, _, answered⟩ | ⟨ran, answered, _⟩
  · cases answered
  · cases answered
  · cases outcome : source.system.store.dispatchVote source.now id worker accountId with
    | error error =>
        rw [StoreCall.run, outcome] at answered
        cases answered
    | ok result =>
        obtain ⟨store, dispatched⟩ := result
        rw [StoreCall.run, outcome] at answered
        cases answered
        obtain ⟨job, before, found, live, publishing, known, opened, account, payload, attempts,
          reached⟩ := Store.dispatchVote_eq_ok outcome
        have committed : target.system.store = store := by
          rw [ran.system]
          simp only [System.next, StoreCall.run]
          rw [show source.system.now = source.now from rfl, outcome]
          rfl
        have row := Store.row?_of_getElem? found
        refine ⟨⟨job.row, row, live⟩, ⟨job.row, row, publishing⟩, before, known, opened, account,
          ?_, payload, attempts⟩
        rw [committed]
        exact reached

/-- Recorded dispatches are attempts of the vote. -/
theorem voteOnRecord (reviewer : ReviewWorker) (id : JobId) :
    Watched.OnRecord (effects reviewer) (dispatchCount id)
      fun world => world.system.store.attemptsOf id where
  performed := by
    intro worker request choice source target answer performed
    have acted : act reviewer.hashes reviewer.settings.claimLease worker request choice
        (source.note worker) = some (target, answer) := performed
    have noted : (source.note worker).system = source.system := note_system
    rw [← noted]
    by_cases stored : ∃ call, request = .store call
    · obtain ⟨call, rfl⟩ := stored
      have grows : (source.note worker).system.store.attemptsOf id ≤
          target.system.store.attemptsOf id := by
        rcases act_store acted with ⟨same, _⟩ | ⟨ran, _, _⟩ | ⟨ran, _, _⟩
        · rw [same]
        · exact attemptsOf_next ran.system
        · exact attemptsOf_next ran.system
      cases call with
      | dispatchVote job accountId =>
          change _ + (if job = id && Except.isOk answer then 1 else 0) ≤ _
          cases answer with
          | error error =>
              rw [if_neg]
              · exact grows
              · simp [Except.isOk, Except.toBool]
          | ok vote =>
              by_cases same : job = id
              · subst same
                obtain ⟨_, _, before, known, _, _, reached, _, attempts⟩ :=
                  dispatch_recorded acted
                unfold Store.attemptsOf
                rw [known, reached]
                simp only [decide_true, Bool.true_and, Except.isOk, Except.toBool, if_true]
                exact Nat.le_of_eq attempts.symm
              · rw [if_neg]
                · exact grows
                · simp [same]
      | _ => exact grows
    · push Not at stored
      have free : dispatchCount id ⟨request, answer⟩ = 0 := by
        cases request with
        | store call => exact absurd rfl (stored call)
        | _ => rfl
      rw [free, (act_request stored acted).system.1]
      exact Nat.le_refl _
  happened := by
    intro event source target occurred
    have happened : happen reviewer.hashes reviewer.settings.claimLease event source =
        some target := occurred
    cases event with
    | environment label =>
        simp only [happen] at happened
        split at happened
        · cases happened
          exact attemptsOf_next rfl
        · cases happened
    | heartbeat worker other =>
        have stepped : target.system = source.system.next reviewer.hashes
            reviewer.settings.claimLease (.work worker (.heartbeat other)) := by
          cases happened
          rfl
        exact attemptsOf_next stepped
    | commit other number =>
        simp only [happen] at happened
        split at happened
        · cases happened
        · split at happened
          · cases happened
            exact Nat.le_refl _
          · cases happened
  spawned := by
    intro worker seed source target program spawned
    exact attemptsOf_next (begin_framed reviewer seed (Option.some.inj spawned)).1

end World

namespace Service

abbrev Traced : Type :=
  Watched WorkerId World Call Answer

/-- The bot may vote, the change has no marker yet, and Gerrit takes the review and the vote. -/
def voting : Choice :=
  { favourable false with
    accountId := .ok 7
    observation := .ok
      { currentValue := 0, canVote := true, markerFound := false, labelExists := true
        changeStatus := "NEW" }
    outcome := .accepted {}
    vote := .ok { codeReview := some 1 } }

/-- The only job is reviewed by worker `a`, for a project that votes, and its review commits. -/
def votingRun : List (PoolLabel WorkerId Choice World.Seed World.Event) :=
  [.event (.environment (.upsertProject "p" true .fromNow none (some true))),
    .event (.environment (.enqueue
      { project := "p", changeNumber := 1, patchsetNumber := 1,
        revisionSha := "a" } "v")),
    .spawn "a" {}] ++
  List.replicate 15 (.call "a" voting) ++
  [.spawn "a" {}] ++
  List.replicate 19 (.call "a" voting) ++
  [.event (.commit 0 0)]

/-- Worker `a` is about to dispatch the vote. -/
def dispatchingRun : List (PoolLabel WorkerId Choice World.Seed World.Event) :=
  votingRun ++ List.replicate 8 (.call "a" voting)

/-- The vote of worker `a` is about to leave. -/
def leavingRun : List (PoolLabel WorkerId Choice World.Seed World.Event) :=
  votingRun ++ List.replicate 11 (.call "a" voting)

def partialVote : VoteInput :=
  { message := "AI review vote: 0 validated finding(s) → Code-Review +1. " ++
      "This vote uses a partial review, not a completed full review. " ++
      "This does not replace human code review.\n\n[review-vote:0]"
    tag := "t~v~vote~0"
    codeReview := 1 }

/-- A traced run leads to a call. -/
theorem leads_to_call (labels : List (PoolLabel WorkerId Choice World.Seed World.Event))
    (request : Call)
    (checked : ((run (step quietReviewer) labels idle).bind fun service =>
      (service.threads "a").request?) = some request) :
    ∃ (traced : Traced) (next : Answer request → Program Call Answer Unit),
      run (Watched.step (World.effects quietReviewer)) labels (Watched.watch idle) = some traced ∧
        traced.pool.threads "a" = .call request next := by
  obtain ⟨target, ran, calls⟩ := Option.bind_eq_some_iff.mp checked
  let fresh : Traced := Watched.watch idle
  have recorded : run (Pool.step (World.effects quietReviewer)) labels fresh.pool = some target :=
    ran
  obtain ⟨traced, went, rfl⟩ := Watched.run_iff.mp recorded
  obtain ⟨next, thread⟩ := Program.request?_eq_some.mp calls
  exact ⟨traced, next, went, thread⟩

section Runs

variable {reviewer : ReviewWorker} {start target : Service} {traced : Traced}
  {labels : List (PoolLabel WorkerId Choice World.Seed World.Event)} {worker : WorkerId}
  {id : JobId} {payload : VoteInput} {accountId : Int}

def Untraced (traced : Traced) : Prop :=
  ∃ service : Service, service.Initial ∧ traced = Watched.watch service

theorem Untraced.sparing {limit : Nat} (untraced : Untraced traced) :
    traced.pool.shared.Sparing limit := by
  obtain ⟨service, ⟨_, system, initial, shared⟩, rfl⟩ := untraced
  change service.shared.Sparing limit
  rw [shared]
  constructor
  · exact @System.Calm.reachable Hashes.constant 0 system ⟨system, [], initial, rfl⟩
  · intro id
    have absent : system.store.voteOf id = none := by
      unfold Store.voteOf
      rw [initial.1]
      rfl
    unfold Store.attemptsOf
    rw [absent]
    exact Nat.zero_le _

theorem Untraced.idle (untraced : Untraced traced) :
    traced.log = [] ∧ traced.passes worker = [] ∧ traced.pool.threads worker = .done () := by
  obtain ⟨service, ⟨threads, _⟩, rfl⟩ := untraced
  refine ⟨rfl, rfl, ?_⟩
  change service.threads worker = .done ()
  rw [threads]

theorem traced_reachable (initial : Initial start)
    (ran : run (Watched.step (World.effects reviewer)) labels (Watched.watch start) =
      some traced) :
    Reachable (Watched.step (World.effects reviewer)) Untraced traced :=
  ⟨Watched.watch start, labels, ⟨start, initial, rfl⟩, ran⟩

/-- Every worker keeps to the protocol of its vote, and what it has learnt is true. -/
theorem upholds_vote (initial : Initial start)
    (ran : run (Watched.step (World.effects reviewer)) labels (Watched.watch start) =
      some traced) :
    traced.Upholds (voteProtocol reviewer.settings.publishAttempts)
      (fun pass => ∃ id, pass = VotePass.fresh id)
      (World.Sparing reviewer.settings.publishAttempts)
      fun worker pass world => world.Learnt worker pass := by
  refine Watched.upholds_reachable (World.voteSound reviewer) ?_ (traced_reachable initial ran)
  intro traced untraced
  refine ⟨untraced.sparing, ?_⟩
  intro worker
  obtain ⟨_, pass, thread⟩ := @Untraced.idle traced worker untraced
  rw [pass, thread]
  exact ⟨VotePass.fresh 0, ⟨0, rfl⟩, True.intro, True.intro, World.Learnt.fresh worker 0 _⟩

/-- What the next call of a worker may rest on. -/
theorem next_call {request : Call} {next : Answer request → Program Call Answer Unit}
    (initial : Initial start)
    (ran : run (Watched.step (World.effects reviewer)) labels (Watched.watch start) =
      some traced)
    (calls : traced.pool.threads worker = .call request next) :
    ∃ state : VotePass, state.Allowed reviewer.settings.publishAttempts request ∧
      VoteEvidence state.job (traced.passes worker) state ∧
      traced.pool.shared.Learnt worker state := by
  obtain ⟨_, parties⟩ := upholds_vote initial ran
  obtain ⟨first, ⟨id, rfl⟩, conforms, keeps, learnt⟩ := parties worker
  rw [calls] at keeps
  have evidence := conforms.account (VoteEvidence.fresh id)
    fun _ _ _ _ evidence allowed => evidence.grows allowed
  have about := evidence.job
  refine ⟨_, keeps.1, ?_, learnt⟩
  rw [about]
  exact evidence

/-- A vote is dispatched only in a pass that before recorded the comments of the job as posted
and saw the change, and never saw the marker of the vote.  A dispatch is recorded only while its
worker holds the lease of a PUBLISHING job, for a vote that is open and of no other account; it
adds one attempt, keeps the payload, and is within the attempts a vote has. -/
theorem vote_dispatch_justified
    {next : Answer (.store (.dispatchVote id accountId)) → Program Call Answer Unit}
    (initial : Initial start)
    (ran : run (Watched.step (World.effects reviewer)) labels (Watched.watch start) =
      some traced)
    (calls : traced.pool.threads worker = .call (.store (.dispatchVote id accountId)) next) :
    Justified id (traced.passes worker) ∧
      ∀ choice shared vote,
        (World.effects reviewer).perform worker (.store (.dispatchVote id accountId)) choice
            traced.pool.shared = some (shared, (.ok vote : Except PyError ReviewVote)) →
          traced.pool.shared.system.Live worker id ∧
            (∃ row, traced.pool.shared.system.store.row? id = some row ∧
              row.state = .publishing) ∧
            ∃ before, traced.pool.shared.system.store.voteOf id = some before ∧
              before.status.isTerminal = false ∧
              (before.accountId = none ∨ before.accountId = some accountId) ∧
              shared.system.store.voteOf id = some vote ∧
              vote.requestPayload = before.requestPayload ∧
              vote.attempts = before.attempts + 1 ∧
              vote.attempts ≤ reviewer.settings.publishAttempts := by
  obtain ⟨state, ⟨about, ready⟩, evidence, learnt⟩ := next_call initial ran calls
  subst about
  refine ⟨evidence.justified ready, ?_⟩
  intro choice shared vote performed
  have recorded := World.dispatch_recorded performed
  simp only [World.note_system] at recorded
  obtain ⟨live, publishing, before, known, opened, account, reached, kept, attempts⟩ := recorded
  refine ⟨live, publishing, before, known, opened, account, reached, kept, attempts, ?_⟩
  obtain ⟨count, read, spare⟩ := ready.spare
  have counted := learnt.read count read live
  unfold Store.attemptsOf at counted
  rw [known] at counted
  dsimp only at counted
  omega

/-- Worker `a` is justified, and its dispatch is recorded. -/
theorem vote_dispatch_justified_once :
    ∃ traced : Traced,
      run (Watched.step (World.effects quietReviewer)) dispatchingRun (Watched.watch idle) =
          some traced ∧
        Justified 0 (traced.passes "a") := by
  obtain ⟨traced, next, ran, calls⟩ :=
    leads_to_call dispatchingRun (.store (.dispatchVote 0 7)) (by decide +kernel)
  exact ⟨traced, ran, (vote_dispatch_justified idle_initial ran calls).1⟩

/-- A vote leaves a worker only under a dispatch that its pass recorded with the same payload,
that was justified, and that no other POST of the pass has used; and the payload is the one the
vote has. -/
theorem vote_post_entitled
    {next : Answer (.postVote id payload) → Program Call Answer Unit}
    (initial : Initial start)
    (ran : run (Watched.step (World.effects reviewer)) labels (Watched.watch start) =
      some traced)
    (calls : traced.pool.threads worker = .call (.postVote id payload) next) :
    Entitled id payload (traced.passes worker) ∧
      ∃ vote, traced.pool.shared.system.store.voteOf id = some vote ∧
        vote.requestPayload = some payload := by
  obtain ⟨state, ⟨about, permit⟩, evidence, learnt⟩ := next_call initial ran calls
  subst about
  exact ⟨evidence.permit payload permit, learnt.permit payload permit⟩

/-- The vote of worker `a` leaves under its dispatch. -/
theorem vote_post_entitled_once :
    ∃ traced : Traced,
      run (Watched.step (World.effects quietReviewer)) leavingRun (Watched.watch idle) =
          some traced ∧
        Entitled 0 partialVote (traced.passes "a") := by
  obtain ⟨traced, next, ran, calls⟩ :=
    leads_to_call leavingRun (.postVote 0 partialVote) (by decide +kernel)
  exact ⟨traced, ran, (vote_post_entitled idle_initial ran calls).1⟩

/-- In every run, the POSTs of the vote of a job are no more than its recorded dispatches, these
no more than the attempts of the vote, and these no more than a vote may have. -/
theorem vote_posts_bounded (initial : Initial start)
    (ran : run (step reviewer) labels start = some target) (id : JobId) :
    ∃ traced : Traced,
      run (Watched.step (World.effects reviewer)) labels (Watched.watch start) = some traced ∧
        traced.pool = target ∧
        Watched.total (postCount id) traced.log ≤
          Watched.total (dispatchCount id) traced.log ∧
        Watched.total (dispatchCount id) traced.log ≤
          target.shared.system.store.attemptsOf id ∧
        target.shared.system.store.attemptsOf id ≤ reviewer.settings.publishAttempts := by
  let fresh : Traced := Watched.watch start
  have recorded : run (Pool.step (World.effects reviewer)) labels fresh.pool = some target := ran
  obtain ⟨traced, went, rfl⟩ := Watched.run_iff.mp recorded
  have reached := traced_reachable initial went
  refine ⟨traced, went, rfl, ?_, ?_, (upholds_vote initial went).1.spare id⟩
  · refine Watched.spent_le_earned (voteSolvent reviewer.settings.publishAttempts id)
      ⟨VotePass.fresh id, id, rfl⟩ ?_ ?_ ?_ reached
    · intro worker request choice shared later answer performed
      exact World.act_answers performed
    · intro worker seed shared later program spawned
      obtain ⟨job, keeps⟩ := World.begin_keeps (Option.some.inj spawned)
      exact ⟨VotePass.fresh job, ⟨job, rfl⟩, keeps⟩
    · intro traced untraced worker
      obtain ⟨log, pass, thread⟩ := @Untraced.idle traced worker untraced
      refine ⟨VotePass.fresh id, ⟨id, rfl⟩, ?_⟩
      rw [log, pass, thread]
      refine ⟨True.intro, ?_⟩
      change 0 + (VotePass.fresh id).credit id ≤ 0
      rw [VotePass.credit_of_none rfl]
  · exact Watched.earned_le (World.voteOnRecord reviewer id)
      (fun traced untraced => (@Untraced.idle traced "" untraced).1) reached

/-- The only vote of worker `a` is applied. -/
theorem vote_posts_bounded_once :
    ∃ target, run (step quietReviewer) (leavingRun ++ List.replicate 2 (.call "a" voting)) idle =
        some target ∧
      (∃ vote, target.shared.system.store.voteOf 0 = some vote ∧ vote.status = .applied) ∧
      ∃ traced : Traced, traced.pool = target ∧
        Watched.total (postCount 0) traced.log ≤ 1 := by
  obtain ⟨target, ran, settled⟩ :=
    leads_to (leavingRun ++ List.replicate 2 (.call "a" voting))
      (fun service =>
        (service.shared.system.store.voteOf 0).map ReviewVote.status = some .applied)
      (by decide +kernel)
  obtain ⟨vote, stored, status⟩ := Option.map_eq_some_iff.mp settled
  obtain ⟨traced, _, reached, posts, dispatches, attempts⟩ :=
    vote_posts_bounded idle_initial ran 0
  exact ⟨target, ran, ⟨vote, stored, status⟩, traced, reached,
    posts.trans (dispatches.trans attempts)⟩

end Runs

end Service

end PeReview
