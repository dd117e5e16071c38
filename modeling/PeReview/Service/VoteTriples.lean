import PeReview.Service.VotePass

/-!
# Every pass keeps to the protocol of the vote

The parts of a pass that act on the vote, one triple each, up to `runClaimed`.
-/

namespace PeReview

open PeReview.Process

namespace VotePass

/-- What holds at the end of a task; after an exception the pass is still about its job. -/
def outcome {Value : Type} (id : JobId) (post : Value → VotePass → Prop) :
    Except PyError Value → VotePass → Prop
  | .ok value, pass => post value pass
  | .error _, pass => pass.job = id

def Mine (id : JobId) (pass : VotePass) : Prop :=
  pass.job = id

def Unmarked (id : JobId) (pass : VotePass) : Prop :=
  pass.job = id ∧ pass.marked = false

def Commented (id : JobId) (pass : VotePass) : Prop :=
  pass.Unmarked id ∧ pass.commented = true

def Read (id : JobId) (vote : ReviewVote) (pass : VotePass) : Prop :=
  pass.Commented id ∧ pass.read = some vote.attempts

/-- A pass that has read the vote and has seen the change without its marker. -/
def Clear (id : JobId) (vote : ReviewVote) (pass : VotePass) : Prop :=
  pass.Read id vote ∧ pass.observed = true

def Permitted (id : JobId) (payload : Option VoteInput) (pass : VotePass) : Prop :=
  pass.job = id ∧ pass.permit = payload

end VotePass

def VoteTriple {Value : Type} (limit : Nat) (id : JobId) (pre : VotePass → Prop)
    (task : Task Value) (post : Value → VotePass → Prop) : Prop :=
  (voteProtocol limit).Triple pre task.run (VotePass.outcome id post)

def VoteBlock {Locals Value : Type} (limit : Nat) (id : JobId) (pre : VotePass → Prop)
    (body : Task.Block Locals Value) (post : Value → VotePass → Prop) : Prop :=
  ∀ locals, (voteProtocol limit).Triple pre (body.run locals) fun result =>
    VotePass.outcome id post result.1

section Rules

variable {Value Final Locals : Type} {limit : Nat} {id : JobId} {pre : VotePass → Prop}
  {task : Task Value} {body : Task.Block Locals Value} {post weaker : Value → VotePass → Prop}
  {final : Final → VotePass → Prop}

namespace VoteTriple

theorem pure {value : Value} (implies : ∀ pass, pre pass → post value pass) :
    VoteTriple limit id pre (Pure.pure value) post :=
  Protocol.Triple.done implies

theorem throw {error : PyError} (mine : ∀ pass, pre pass → pass.Mine id) :
    VoteTriple limit id pre (MonadExcept.throw error : Task Value) post :=
  Protocol.Triple.done mine

theorem throw_bind {error : PyError} {rest : Value → Task Final}
    (mine : ∀ pass, pre pass → pass.Mine id) :
    VoteTriple limit id pre ((MonadExcept.throw error : Task Value) >>= rest) final :=
  Protocol.Triple.done mine

theorem bind {rest : Value → Task Final} (first : VoteTriple limit id pre task post)
    (second : ∀ value, VoteTriple limit id (post value) (rest value) final) :
    VoteTriple limit id pre (task >>= rest) final :=
  Protocol.Triple.bindExcept first (fun _ _ mine => mine) second

theorem strengthen {stronger : VotePass → Prop} (triple : VoteTriple limit id pre task post)
    (implies : ∀ pass, stronger pass → pre pass) : VoteTriple limit id stronger task post :=
  Protocol.Triple.strengthen triple implies

theorem weaken (triple : VoteTriple limit id pre task post)
    (implies : ∀ value pass, post value pass → weaker value pass) :
    VoteTriple limit id pre task weaker := by
  refine Protocol.Triple.weaken triple ?_
  intro result pass holds
  cases result with
  | error error => exact holds
  | ok value => exact implies value pass holds

theorem ite {condition : Prop} [Decidable condition] {first second : Task Value}
    (holds : condition → VoteTriple limit id pre first post)
    (fails : ¬condition → VoteTriple limit id pre second post) :
    VoteTriple limit id pre (if condition then first else second) post := by
  split
  · rename_i yes
    exact holds yes
  · rename_i no
    exact fails no

/-- A task that does not concern the vote. -/
theorem voteless (quiet : task.Voteless) (mine : ∀ pass, pre pass → pass.Mine id) :
    VoteTriple limit id pre task fun _ => pre := by
  refine Protocol.Triple.weaken (Protocol.Triple.only voteProtocol_ignores quiet) ?_
  intro result pass holds
  cases result with
  | error error => exact mine pass holds
  | ok value => exact holds

/-- One transaction. -/
theorem store {call : StoreCall} {post : call.Result → VotePass → Prop}
    (allowed : ∀ pass, pre pass → pass.Allowed limit (.store call))
    (answered : ∀ pass (answer : Except PyError call.Result),
      Call.Answers (.store call) answer → pre pass →
        VotePass.outcome id post answer (pass.next (.store call) answer)) :
    VoteTriple limit id pre (Task.store call) post :=
  Protocol.Triple.perform allowed answered

end VoteTriple

namespace VoteBlock

theorem pure {value : Value} (implies : ∀ pass, pre pass → post value pass) :
    VoteBlock limit id pre (Pure.pure value : Task.Block Locals Value) post :=
  fun _ => Protocol.Triple.done implies

theorem throw {error : PyError} (mine : ∀ pass, pre pass → pass.Mine id) :
    VoteBlock limit id pre (MonadExcept.throw error : Task.Block Locals Value) post :=
  fun _ => Protocol.Triple.done mine

theorem block (triple : VoteTriple limit id pre task post) :
    VoteBlock limit id pre (Task.block task : Task.Block Locals Value) post := by
  intro locals
  exact Protocol.Triple.bind triple fun _ => Protocol.Triple.done fun _ holds => holds

theorem bind {rest : Value → Task.Block Locals Final}
    (first : VoteBlock limit id pre body post)
    (second : ∀ value, VoteBlock limit id (post value) (rest value) final) :
    VoteBlock limit id pre (body >>= rest) final := by
  intro locals
  refine Protocol.Triple.bind (first locals) ?_
  rintro ⟨result, later⟩
  cases result with
  | error error => exact Protocol.Triple.done fun _ mine => mine
  | ok value => exact second value later

/-- A step that leaves the local variables alone. -/
theorem step {rest : Value → Task.Block Locals Final}
    (first : VoteTriple limit id pre task post)
    (second : ∀ value, VoteBlock limit id (post value) (rest value) final) :
    VoteBlock limit id pre (Task.block task >>= rest) final :=
  bind (block first) second

theorem set {locals : Locals} {rest : PUnit → Task.Block Locals Final}
    (second : VoteBlock limit id pre (rest ⟨⟩) final) :
    VoteBlock limit id pre (MonadStateOf.set locals >>= rest) final :=
  fun _ => second locals

theorem modify {change : Locals → Locals} {rest : PUnit → Task.Block Locals Final}
    (second : VoteBlock limit id pre (rest ⟨⟩) final) :
    VoteBlock limit id pre (modify change >>= rest) final :=
  fun locals => second (change locals)

end VoteBlock

theorem VoteTriple.tryWith {locals : Locals} {handler : Locals → PyError → Task Value}
    (inside : VoteBlock limit id pre body post)
    (handled : ∀ later error,
      VoteTriple limit id (VotePass.Mine id) (handler later error) post) :
    VoteTriple limit id pre (Task.tryWith locals body handler) post := by
  refine Protocol.Triple.bind (inside locals) ?_
  rintro ⟨result, later⟩
  cases result with
  | error error => exact handled later error
  | ok value => exact Protocol.Triple.done fun _ holds => holds

end Rules

/-! ## The vote -/

namespace VoteTriple

variable {limit : Nat} {id : JobId} {pre : VotePass → Prop} {settings : Settings}
  {job : JobRecord} {vote : ReviewVote} {error : PyError}

theorem ensureVote {decision : VoteDecision} {payload : Option VoteInput} :
    VoteTriple limit id (VotePass.Unmarked id) (Task.store (.ensureVote id decision payload))
      fun _ => VotePass.Unmarked id := by
  refine store (fun _ unmarked => unmarked.1.symm) ?_
  intro pass answer kind unmarked
  cases answer with
  | error error => exact unmarked.1
  | ok vote => exact unmarked

/-- The comments are recorded as posted. -/
theorem completePublicationAndMarkDone {publication : JobId}
    {gerritResponse : Option GerritResponse} {deferDone : Bool} :
    VoteTriple limit id (VotePass.Unmarked id)
      (Task.store (.completePublicationAndMarkDone publication id gerritResponse deferDone))
      fun (record : JobRecord) pass =>
        record.id = id ∧ pass.Unmarked id ∧ (deferDone = true → pass.commented = true) := by
  refine store (fun _ unmarked => unmarked.1.symm) ?_
  intro pass answer kind unmarked
  cases answer with
  | error error => exact unmarked.1
  | ok record =>
      refine ⟨kind record rfl, unmarked, ?_⟩
      intro deferred
      cases deferred
      exact Bool.or_true pass.commented

theorem finishVote {status : VoteStatus} {error : Option String}
    {response : Option GerritResponse} {accountId : Option Int}
    (mine : ∀ pass, pre pass → pass.Mine id) :
    VoteTriple limit id pre (finishVote id status error response accountId)
      fun _ => VotePass.Mine id := by
  unfold PeReview.finishVote
  refine bind ?_ fun _ : Unit => pure fun _ holds => holds
  refine store (fun pass holds => (mine pass holds).symm) ?_
  intro pass answer _ holds
  cases answer with
  | error error => exact mine pass holds
  | ok value => exact mine pass holds

/-- The vote as it is read, if there is one. -/
theorem voteOf :
    VoteTriple limit id (VotePass.Commented id) (Task.store (.voteOf id))
      fun (found : Option ReviewVote) pass =>
        pass.Commented id ∧ ∀ vote ∈ found, pass.Read id vote := by
  refine store (fun _ commented => commented.1.1.symm) ?_
  intro pass answer _ commented
  cases answer with
  | error error => exact commented.1.1
  | ok found =>
      cases found with
      | none => exact ⟨commented, fun _ absent => nomatch absent⟩
      | some vote =>
          refine ⟨commented, ?_⟩
          intro known same
          cases same
          exact ⟨commented, rfl⟩

/-- The change as it is seen, with or without the marker of the vote. -/
theorem codeReviewVoteObservation {accountId : Int} {payload : VoteInput} :
    VoteTriple limit id (VotePass.Read id vote)
      (ExceptT.mk
        (Program.perform (Call.codeReviewVoteObservation id accountId payload)) :
        Task VoteObservation)
      fun observation pass =>
        pass.Mine id ∧ (observation.markerFound = false → pass.Clear id vote) := by
  refine Protocol.Triple.perform (fun _ read => read.1.1.1.symm) ?_
  intro pass answer _ read
  obtain ⟨⟨⟨mine, unmarked⟩, commented⟩, isRead⟩ := read
  cases answer with
  | error error => exact mine
  | ok observation =>
      refine ⟨mine, ?_⟩
      intro absent
      have still : (pass.marked || observation.markerFound) = false := by
        rw [unmarked, absent]
        rfl
      exact ⟨⟨⟨⟨mine, still⟩, commented⟩, isRead⟩, rfl⟩

/-- The dispatch is recorded, with attempts to spare. -/
theorem dispatchVote {accountId : Int} (spare : vote.attempts < limit) :
    VoteTriple limit id (VotePass.Clear id vote) (Task.store (.dispatchVote id accountId))
      fun (dispatched : ReviewVote) => VotePass.Permitted id dispatched.requestPayload := by
  refine store ?_ ?_
  · rintro pass ⟨⟨⟨⟨mine, unmarked⟩, commented⟩, read⟩, observed⟩
    exact ⟨mine.symm, commented, observed, unmarked, vote.attempts, read, spare⟩
  · rintro pass answer _ ⟨⟨⟨⟨mine, _⟩, _⟩, _⟩, _⟩
    cases answer with
    | error error => exact mine
    | ok dispatched => exact ⟨mine, rfl⟩

/-- The vote leaves the worker. -/
theorem sendVote {payload : VoteInput} (about : job.id = id) :
    VoteTriple limit id (VotePass.Permitted id (some payload)) (sendVote job payload)
      fun _ => VotePass.Mine id := by
  refine Protocol.Triple.perform ?_ ?_
  · intro pass permitted
    exact ⟨about.trans permitted.1.symm, permitted.2⟩
  · intro pass answer _ permitted
    have mine : (pass.next (.postVote job.id payload) answer).Mine id := permitted.1
    cases answer with
    | error error => exact mine
    | ok response => exact mine

theorem publishReviewInput {send : Task GerritResponse} {prePostGuard : Task Bool}
    {allowMerged : Bool} {post : GerritResponse → VotePass → Prop}
    (mine : ∀ pass, pre pass → pass.Mine id) (guarded : prePostGuard.Voteless)
    (sent : VoteTriple limit id pre send post) :
    VoteTriple limit id pre (publishReviewInput job send prePostGuard allowMerged) post := by
  unfold PeReview.publishReviewInput
  refine bind (voteless Task.Voteless.ensureCurrentRevision mine) ?_
  intro change
  refine bind (voteless guarded mine) ?_
  intro current
  cases current with
  | false => exact throw_bind mine
  | true => exact sent

theorem processVote (about : job.id = id) :
    VoteBlock settings.publishAttempts id (VotePass.Read id vote)
      (processVote settings job vote) fun _ => VotePass.Mine id := by
  have finishes : ∀ {pre : VotePass → Prop} (status : VoteStatus) (error : Option String)
      (response : Option GerritResponse) (accountId : Option Int),
      (∀ pass, pre pass → pass.Mine id) →
        VoteBlock settings.publishAttempts id pre
          (Task.block (PeReview.finishVote id status error response accountId) :
            Task.Block Bool Bool)
          fun _ => VotePass.Mine id :=
    fun _ _ _ _ mine => VoteBlock.block (finishVote mine)
  have read : ∀ pass : VotePass, pass.Read id vote → pass.Mine id :=
    fun _ known => known.1.1.1
  have clear : ∀ pass : VotePass, pass.Clear id vote → pass.Mine id :=
    fun pass known => read pass known.1
  unfold PeReview.processVote
  rw [about]
  refine VoteBlock.step (voteless (Program.Only.perform rfl) read) ?_
  intro accountId
  split
  · exact finishes _ _ _ _ read
  · split
    · refine VoteBlock.step codeReviewVoteObservation ?_
      intro observation
      split
      · split
        · exact finishes _ _ _ _ fun _ seen => seen.1
        · exact finishes _ _ _ _ fun _ seen => seen.1
      · rename_i absent
        have unmarked : observation.markerFound = false := by simpa using absent
        split
        · exact finishes _ _ _ _ fun _ seen => seen.1
        · split
          · exact finishes _ _ _ _ fun _ seen => seen.1
          · dsimp only
            split
            · exact finishes _ _ _ _ fun _ seen => seen.1
            · rename_i budget
              have spare : vote.attempts < settings.publishAttempts := by omega
              refine VoteBlock.step
                ((voteless Task.Voteless.publishGuard clear).strengthen
                  fun _ seen => seen.2 unmarked) ?_
              intro current
              split
              · exact finishes _ _ _ _ clear
              · refine VoteBlock.step (dispatchVote spare) ?_
                intro dispatched
                refine VoteBlock.set ?_
                split
                · rename_i payload isPayload
                  rw [isPayload]
                  refine VoteBlock.step
                    (publishReviewInput (fun _ permitted => permitted.1)
                      Task.Voteless.publishGuard (sendVote about)) ?_
                  intro response
                  split
                  · exact finishes _ _ _ _ fun _ mine => mine
                  · exact finishes _ _ _ _ fun _ mine => mine
                · exact VoteBlock.throw fun _ permitted => permitted.1
    · exact VoteBlock.throw read

theorem retryVote {posted : Bool} (about : job.id = id) :
    VoteTriple limit id (VotePass.Mine id) (retryVote settings job posted error)
      fun _ => VotePass.Mine id := by
  have mine : ∀ pass : VotePass, pass.Mine id → pass.Mine id := fun _ same => same
  have retried : VoteTriple limit id (VotePass.Mine id)
      (Task.store (.retryVote id error.message)) fun _ => VotePass.Mine id := by
    refine store (fun _ same => Eq.symm same) ?_
    intro pass answer _ same
    cases answer with
    | error error => exact same
    | ok vote => exact same
  unfold PeReview.retryVote
  rw [about]
  refine bind retried ?_
  intro vote
  split
  · exact finishVote mine
  · refine bind (voteless Task.Voteless.retryDelay mine) ?_
    intro delay
    refine bind (voteless (Task.Voteless.plain rfl) mine) ?_
    intro now
    exact bind (voteless (Task.Voteless.store rfl) mine) fun _ => pure mine

theorem recoverVote {posted : Bool} (about : job.id = id) :
    VoteTriple limit id (VotePass.Mine id) (recoverVote settings job posted error)
      fun _ => VotePass.Mine id := by
  have mine : ∀ pass : VotePass, pass.Mine id → pass.Mine id := fun _ same => same
  unfold PeReview.recoverVote
  rw [about]
  split
  · exact finishVote mine
  · split
    · split
      · exact finishVote mine
      · exact finishVote mine
    · split
      · exact finishVote mine
      · split
        · exact retryVote about
        · exact throw mine

theorem publishVote {allowVote : Bool} {skipReason : Option String} (about : job.id = id) :
    VoteTriple settings.publishAttempts id (VotePass.Commented id)
      (publishVote settings job allowVote skipReason) fun _ => VotePass.Mine id := by
  unfold PeReview.publishVote
  rw [about]
  refine bind voteOf ?_
  intro found
  have mine : ∀ pass : VotePass,
      (pass.Commented id ∧ ∀ vote ∈ found, pass.Read id vote) → pass.Mine id :=
    fun _ known => known.1.1.1
  cases found with
  | none => exact throw mine
  | some vote =>
      dsimp only
      split
      · exact finishVote mine
      · split
        · exact finishVote mine
        · refine VoteTriple.strengthen ?_ fun _ known => known.2 vote rfl
          exact tryWith (processVote about) fun _ _ => recoverVote about

/-! ## The publication -/

theorem completeCommentPublication {review : ReviewResult}
    {gerritResponse : Option GerritResponse} {allowVote : Bool}
    {voteSkipReason : Option String} (about : job.id = id) :
    VoteTriple settings.publishAttempts id (VotePass.Unmarked id)
      (completeCommentPublication settings job review gerritResponse allowVote voteSkipReason)
      fun _ => VotePass.Mine id := by
  have mine : ∀ pass : VotePass, pass.Unmarked id → pass.Mine id := fun _ known => known.1
  have finishes : VoteTriple settings.publishAttempts id (VotePass.Unmarked id)
      (do
        let _ ← Task.store (.completePublicationAndMarkDone id id gerritResponse false))
      fun _ => VotePass.Mine id :=
    bind completePublicationAndMarkDone fun _ => pure fun _ known => known.2.1.1
  unfold PeReview.completeCommentPublication
  rw [about]
  refine bind (voteless Task.Voteless.ofExcept mine) ?_
  intro policy
  cases policy with
  | none => exact finishes
  | some policy =>
      dsimp only
      split
      · exact finishes
      · refine bind ensureVote ?_
        intro _
        refine bind completePublicationAndMarkDone ?_
        intro record
        refine Protocol.Triple.assuming (fun _ known => known.1) ?_
        intro same
        have voted : VoteTriple settings.publishAttempts id (VotePass.Commented id)
            (do let _ ← PeReview.publishVote settings record allowVote voteSkipReason)
            fun _ => VotePass.Mine id :=
          bind (publishVote same) fun _ => pure fun _ known => known
        exact voted.strengthen fun _ known => ⟨known.2.1, known.2.2 rfl⟩

/-- Moving the job on gives the record of the job. -/
theorem moveFrom {source target : JobState} (about : job.id = id) :
    VoteTriple limit id (VotePass.Unmarked id) (moveFrom job source target)
      fun moved pass => moved.id = id ∧ pass.Unmarked id := by
  unfold PeReview.moveFrom
  rw [about]
  refine ite (fun _ => ?_) fun _ => pure fun _ known => ⟨about, known⟩
  refine store (fun _ _ => True.intro) ?_
  intro pass answer kind known
  cases answer with
  | error error => exact known.1
  | ok record => exact ⟨kind record rfl, known⟩

theorem lookupSuperseded {publication : Publication} {attempt : AttemptId} :
    (lookupSuperseded settings job publication attempt).Voteless := by
  refine Task.Voteless.tryCatch ?_ ?_
  · refine Task.Voteless.bind Task.Voteless.hasPublishedReview ?_
    intro posted
    exact Task.Voteless.bind Task.Voteless.finishAttempt fun _ => Task.Voteless.pure
  · intro error
    split
    · refine Task.Voteless.bind Task.Voteless.finishAttemptIfOpen ?_
      intro _
      exact Task.Voteless.bind Task.Voteless.scheduleRetry fun _ => Task.Voteless.pure
    · split
      · split
        · refine Task.Voteless.bind Task.Voteless.finishAttemptIfOpen ?_
          intro _
          exact Task.Voteless.bind Task.Voteless.scheduleRetry fun _ => Task.Voteless.pure
        · refine Task.Voteless.bind Task.Voteless.finishAttemptIfOpen ?_
          intro _
          exact Task.Voteless.bind (Task.Voteless.store rfl) fun _ => Task.Voteless.pure
      · exact Task.Voteless.throw

theorem reconcileSuperseded {review : ReviewResult} {publication : Publication}
    (about : job.id = id) :
    VoteTriple settings.publishAttempts id (VotePass.Unmarked id)
      (reconcileSuperseded settings job review publication) fun _ => VotePass.Mine id := by
  have mine : ∀ pass : VotePass, pass.Unmarked id → pass.Mine id := fun _ known => known.1
  unfold PeReview.reconcileSuperseded
  refine bind (voteless Task.Voteless.canStartAttempt mine) ?_
  intro allowed
  split
  · exact pure mine
  · refine bind (voteless Task.Voteless.startAttempt mine) ?_
    intro attempt
    refine bind (voteless lookupSuperseded mine) ?_
    intro alreadyPosted
    split
    · exact pure mine
    · exact completeCommentPublication about
    · exact bind (voteless (Task.Voteless.store rfl) mine) fun _ => pure mine

theorem resolveSupersededPublish {review : ReviewResult} {publication : Option Publication}
    (about : job.id = id) :
    VoteTriple settings.publishAttempts id (VotePass.Unmarked id)
      (resolveSupersededPublish settings job review publication)
      fun _ => VotePass.Mine id := by
  have mine : ∀ pass : VotePass, pass.Unmarked id → pass.Mine id := fun _ known => known.1
  have superseded : VoteTriple settings.publishAttempts id (VotePass.Unmarked id)
      (do let _ ← Task.store (.markSuperseded job.id none)) fun _ => VotePass.Mine id :=
    bind (voteless (Task.Voteless.store rfl) mine) fun _ => pure mine
  unfold PeReview.resolveSupersededPublish
  cases publication with
  | none => exact superseded
  | some publication =>
      dsimp only
      split
      · exact completeCommentPublication about
      · exact superseded
      · exact reconcileSuperseded about
      · exact reconcileSuperseded about

theorem postPublication {review : ReviewResult} {publication : Publication}
    {attempt : AttemptId} (about : job.id = id) :
    VoteBlock settings.publishAttempts id (VotePass.Unmarked id)
      (postPublication settings job review publication attempt)
      fun _ => VotePass.Mine id := by
  have mine : ∀ pass : VotePass, pass.Unmarked id → pass.Mine id := fun _ known => known.1
  unfold PeReview.postPublication
  refine VoteBlock.step (voteless Task.Voteless.ensureCurrentRevision mine) ?_
  intro publishChange
  refine VoteBlock.step (voteless Task.Voteless.finishAttempt mine) ?_
  intro _
  refine VoteBlock.modify ?_
  refine VoteBlock.step (voteless Task.Voteless.canStartAttempt mine) ?_
  intro allowed
  split
  · exact VoteBlock.pure mine
  · refine VoteBlock.step (voteless Task.Voteless.startAttempt mine) ?_
    intro publishAttempt
    refine VoteBlock.modify ?_
    refine VoteBlock.step (voteless Task.Voteless.ensureLease mine) ?_
    intro _
    refine VoteBlock.step (voteless (Task.Voteless.store rfl) mine) ?_
    intro _
    refine VoteBlock.modify ?_
    refine VoteBlock.step (voteless (Task.Voteless.publishReviewInput
      Task.Voteless.publishGuard Task.Voteless.sendReview) mine) ?_
    intro response
    refine VoteBlock.step (voteless Task.Voteless.finishAttempt mine) ?_
    intro _
    exact VoteBlock.block (completeCommentPublication about)

theorem reconcileAndPost {review : ReviewResult} {publication : Publication}
    (about : job.id = id) :
    VoteBlock settings.publishAttempts id (VotePass.Unmarked id)
      (reconcileAndPost settings job review publication) fun _ => VotePass.Mine id := by
  have mine : ∀ pass : VotePass, pass.Unmarked id → pass.Mine id := fun _ known => known.1
  unfold PeReview.reconcileAndPost
  refine VoteBlock.step (voteless Task.Voteless.canStartAttempt mine) ?_
  intro allowed
  split
  · exact VoteBlock.pure mine
  · refine VoteBlock.step (voteless Task.Voteless.startAttempt mine) ?_
    intro reconcileAttempt
    refine VoteBlock.modify ?_
    refine VoteBlock.step (voteless Task.Voteless.ensureLease mine) ?_
    intro _
    refine VoteBlock.step (voteless Task.Voteless.hasPublishedReview mine) ?_
    intro alreadyPosted
    split
    · refine VoteBlock.step (voteless Task.Voteless.finishAttempt mine) ?_
      intro _
      exact VoteBlock.block (completeCommentPublication about)
    · exact VoteBlock.modify (postPublication about)

theorem recoverPublish {publication : Publication} {locals : PublishLocals} :
    (recoverPublish settings job publication locals error).Voteless := by
  have finish : ∀ {attempt : Option AttemptId} {success : Bool} {retryable : Option Bool}
      {error : Option PyError} {Value : Type} {rest : Unit → Task Value},
      (rest ()).Voteless →
        (PeReview.finishStarted attempt success retryable error >>= rest).Voteless :=
    fun later => Task.Voteless.bind Task.Voteless.finishStarted fun _ => later
  unfold PeReview.recoverPublish
  split
  · refine finish (finish ?_)
    exact Task.Voteless.bind (Task.Voteless.store rfl) fun _ => Task.Voteless.pure
  · split
    · split
      · exact finish Task.Voteless.scheduleRetry
      · refine finish ?_
        split
        · exact Task.Voteless.bind (Task.Voteless.store rfl) fun _ =>
            Task.Voteless.scheduleRetry
        · exact Task.Voteless.scheduleRetry
    · split
      · split
        · exact finish Task.Voteless.scheduleRetry
        · refine Task.Voteless.bind (Task.Voteless.store rfl) ?_
          intro _
          exact finish (finish Task.Voteless.permanentFailure)
      · exact Task.Voteless.throw

theorem startPublication {review : ReviewResult} {stored : Option Publication} :
    (startPublication settings job review stored).Voteless := by
  cases stored with
  | some publication => exact Task.Voteless.pure
  | none =>
      unfold PeReview.startPublication
      dsimp only
      exact Task.Voteless.bind Task.Voteless.ofExcept fun _ => Task.Voteless.store rfl

theorem publishLatest {review : ReviewResult} {stored : Option Publication}
    (about : job.id = id) :
    VoteTriple settings.publishAttempts id (VotePass.Unmarked id)
      (publishLatest settings job review stored) fun _ => VotePass.Mine id := by
  have mine : ∀ pass : VotePass, pass.Unmarked id → pass.Mine id := fun _ known => known.1
  unfold PeReview.publishLatest
  refine bind (moveFrom about) ?_
  intro moved
  refine Protocol.Triple.assuming (fun _ known => known.1) ?_
  intro same
  refine bind ((voteless startPublication mine).strengthen fun _ known => known.2) ?_
  intro publication
  split
  · exact completeCommentPublication same
  · exact (voteless Task.Voteless.permanentFailure mine).weaken fun _ => mine
  · exact tryWith (reconcileAndPost same) fun _ _ =>
      voteless recoverPublish fun _ known => known
  · exact tryWith (reconcileAndPost same) fun _ _ =>
      voteless recoverPublish fun _ known => known

theorem processPublish (about : job.id = id) :
    VoteTriple settings.publishAttempts id (VotePass.Unmarked id)
      (processPublish settings job) fun _ => VotePass.Mine id := by
  have mine : ∀ pass : VotePass, pass.Unmarked id → pass.Mine id := fun _ known => known.1
  unfold PeReview.processPublish
  refine bind (voteless (Task.Voteless.store rfl) mine) ?_
  intro stored
  split
  · refine bind (voteless (Task.Voteless.store rfl) mine) ?_
    intro publication
    refine bind (voteless (Task.Voteless.store rfl) mine) ?_
    intro latest
    split
    · exact publishLatest about
    · exact resolveSupersededPublish about
  · exact (voteless Task.Voteless.permanentFailure mine).weaken fun _ => mine

end VoteTriple

/-- Whatever a worker is answered, its pass keeps to the protocol of the vote of its job. -/
theorem runClaimed_keeps (worker : ReviewWorker) (job : JobRecord) :
    (runClaimed worker job).Keeps (voteProtocol worker.settings.publishAttempts)
      (fun _ _ => True) (VotePass.fresh job.id) := by
  have mine : ∀ pass : VotePass, pass.Unmarked job.id → pass.Mine job.id :=
    fun _ known => known.1
  have processed : VoteTriple worker.settings.publishAttempts job.id
      (VotePass.Unmarked job.id) (processClaimed worker job)
      fun _ => VotePass.Mine job.id := by
    unfold processClaimed
    split
    · exact (VoteTriple.voteless Task.Voteless.processReview mine).weaken fun _ => mine
    · exact (VoteTriple.voteless Task.Voteless.processReview mine).weaken fun _ => mine
    · exact (VoteTriple.voteless Task.Voteless.processReview mine).weaken fun _ => mine
    · exact (VoteTriple.voteless Task.Voteless.processReview mine).weaken fun _ => mine
    · exact VoteTriple.processPublish rfl
    · exact VoteTriple.processPublish rfl
    · exact VoteTriple.pure mine
    · exact VoteTriple.pure mine
    · exact VoteTriple.pure mine
    · exact VoteTriple.pure mine
    · exact (VoteTriple.voteless Task.Voteless.permanentFailure mine).weaken fun _ => mine
    · exact (VoteTriple.voteless Task.Voteless.permanentFailure mine).weaken fun _ => mine
  exact (processed _ ⟨rfl, rfl⟩).bind fun _ _ _ => True.intro

end PeReview
