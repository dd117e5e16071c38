import PeReview.Service.Rules

/-!
# Triples

What a coroutine of a worker knows when it starts, when it returns, and when it
raises.  The rules follow the calls of a worker one by one.
-/

namespace PeReview

open PeReview.Process

/-- What is known after a coroutine returned or raised. -/
def Knowledge.outcome {Value : Type} (post : Value → Knowledge)
    (raised : PyError → Knowledge) : Except PyError Value → Knowledge
  | .ok value => post value
  | .error error => raised error

/-- Knowledge that no action on the row has to take back. -/
theorem Knowledge.implies_after (known : Knowledge) (action : Option RowAction) :
    known.Implies (known.after action) := by
  intro fact
  cases action with
  | none => exact Implies.refl known fact
  | some action =>
      cases action with
      | post defer =>
          cases defer <;> constructor <;> simp [after, released, fact]
      | move target release =>
          constructor <;> simp +contextual [after, fact]
      | _ => constructor <;> simp [after, released, fact]

structure Site where
  reviewer : ReviewWorker
  worker : WorkerId
  id : JobId

namespace Site

variable {Value Final Locals : Type}

/-- What a program of a worker knows before and after it runs. -/
def Runs (site : Site) (known : Knowledge) (program : Program Call Answer Value)
    (post : Value → Knowledge) : Prop :=
  Spec (World.discipline site.reviewer) site.worker site.id
    (World.Knows site.worker site.id known) program
    fun value => World.Knows site.worker site.id (post value)

/-- What a coroutine of a worker knows when it starts, returns and raises. -/
def Triple (site : Site) (known : Knowledge) (task : Task Value)
    (post : Value → Knowledge) (raised : PyError → Knowledge) : Prop :=
  site.Runs known task.run (Knowledge.outcome post raised)

variable {site : Site} {known stronger : Knowledge}

theorem stable (known : Knowledge) :
    Stable (World.discipline site.reviewer) site.worker site.id
      (World.Knows site.worker site.id known) :=
  fun _ _ interfered _ knows => knows.rely interfered

namespace Runs

variable {program : Program Call Answer Value} {post weaker : Value → Knowledge}

theorem done {value : Value} (implies : known.Implies (post value)) :
    site.Runs known (.done value) post :=
  Spec.done (stable known) fun _ _ knows => knows.weaken implies

theorem bind {rest : Value → Program Call Answer Final}
    {final : Final → Knowledge} (first : site.Runs known program post)
    (second : ∀ value, site.Runs (post value) (rest value) final) :
    site.Runs known (program.bind rest) final :=
  Spec.bind first second

theorem consequence (runs : site.Runs known program post)
    (before : stronger.Implies known)
    (after : ∀ value, (post value).Implies (weaker value)) :
    site.Runs stronger program weaker :=
  Spec.consequence runs (fun _ _ knows => knows.weaken before)
    fun value _ _ knows => knows.weaken (after value)

theorem weaken (runs : site.Runs known program post)
    (after : ∀ value, (post value).Implies (weaker value)) :
    site.Runs known program weaker :=
  runs.consequence (Knowledge.Implies.refl known) after

theorem strengthen (runs : site.Runs known program post)
    (before : stronger.Implies known) :
    site.Runs stronger program post :=
  runs.consequence before fun _ => Knowledge.Implies.refl _

/-- The fact of the precondition is available to the proof. -/
theorem assuming (runs : known.fact → site.Runs known program post) :
    site.Runs known program post :=
  fun world valid knows => runs knows.fact world valid knows

/-- What rules out an open outcome settles it. -/
theorem settle (resolved : known.Resolved)
    (runs : site.Runs { known with settled := true } program post) :
    site.Runs known program post :=
  fun world valid knows =>
    runs world valid { knows with settled := fun _ => knows.resolved valid resolved }

/-- The rule of a single call. -/
theorem perform {request : Call} {post : Answer request → Knowledge}
    (allowed : ∀ world, world.Valid site.reviewer.settings.claimLease →
      World.Knows site.worker site.id known world →
        world.Allowed site.worker request)
    (performed : ∀ source target answer choice,
      source.Valid site.reviewer.settings.claimLease →
        target.Valid site.reviewer.settings.claimLease →
          World.Knows site.worker site.id known source →
            World.act site.reviewer.hashes site.reviewer.settings.claimLease
                site.worker request choice source = some (target, answer) →
              World.Knows site.worker site.id (post answer) target) :
    site.Runs known (Program.perform request) post := by
  refine Spec.perform (stable known) allowed ?_ fun answer => stable (post answer)
  intro source choice target answer valid targetValid knows acted
  exact
    performed (source.note site.worker) target answer choice valid.note
      targetValid (knows.rely (World.note_rely site.worker site.worker site.id source))
      acted

theorem neutral {request : Call} (neutral : request.isNeutral = true) :
    site.Runs known (Program.perform request) fun _ => known := by
  refine perform ?_ ?_
  · intro world _ _
    cases request with
    | store | listMessages | messages | postReview | postOutcome => cases neutral
    | _ => simp [World.Allowed]
  · intro source target answer choice _ _ knows acted
    have outside : ∀ call, request ≠ .store call := by
      rintro call rfl
      cases neutral
    cases World.act_request outside acted with
    | same => exact knows
    | _ => cases neutral

/-- A program whose calls are answered by programs that keep what is known. -/
theorem handle {Outer : Type} {Reply : Outer → Type}
    {handler : (request : Outer) → Program Call Answer (Reply request)}
    (handled : ∀ request, site.Runs known (handler request) fun _ => known)
    (program : Program Outer Reply Value) :
    site.Runs known (program.handle handler) fun _ => known :=
  Spec.handle (stable known) handled program

/-- The rule of a transaction, with what its answer teaches. -/
theorem store {call : StoreCall} {post : call.Result → Knowledge}
    (about : call.job = site.id) (uncovered : known.covered = false)
    (permits : ∀ action ∈ call.action, known.Permits action)
    (learned : ∀ source target value,
      source.Valid site.reviewer.settings.claimLease →
        World.Knows site.worker site.id known source →
          call.run site.reviewer.hashes source.now
              site.reviewer.settings.claimLease site.worker source.system.store =
            .ok (target.system.store, value) →
          (call.grants (.ok (target.system.store, value)) = true →
            (target.sessions site.worker).granted =
              source.now + site.reviewer.settings.claimLease) →
          World.Knows site.worker site.id (known.after call.action) target →
            World.Knows site.worker site.id (post value) target) :
    site.Runs known (Program.perform (Call.store call))
      (Knowledge.outcome post fun error =>
        (known.after call.action).given (error.isPlain = true)) := by
  refine perform ?_ ?_
  · intro world valid knows
    refine ⟨by rw [about]; exact knows.claimed, ?_⟩
    intro action acts
    rw [about]
    exact knows.permits valid (permits action acts)
  · intro source target answer choice valid _ knows acted
    have paid : ∀ action ∈ call.action, source.Permits site.worker site.id action :=
      fun action acts => knows.permits valid (permits action acts)
    rcases World.act_store acted with ⟨rfl, rfl⟩ | ⟨ran, _, rfl⟩ |
      ⟨ran, rfl, granted⟩
    · exact
        knows.weaken ((known.implies_after call.action).trans (Knowledge.implies_given _ rfl))
    · exact (knows.after ran paid about valid (.inr uncovered)).weaken
          (Knowledge.implies_given _ rfl)
    · have after := knows.after ran paid about valid (.inr uncovered)
      cases outcome : call.run site.reviewer.hashes source.now
          site.reviewer.settings.claimLease site.worker source.system.store with
      | error error =>
          exact after.weaken
            (Knowledge.implies_given _
              (StoreCall.run_plain _ _ _ _ _ _ error outcome))
      | ok result =>
          obtain ⟨store, value⟩ := result
          obtain rfl : target.system.store = store := by
            rw [ran.system]
            show (source.system.commit (call.run site.reviewer.hashes source.now
              site.reviewer.settings.claimLease site.worker
              source.system.store)).store = store
            rw [outcome]
            rfl
          refine learned source target value valid knows outcome ?_ after
          intro grants
          rw [outcome] at granted
          exact granted.trans (if_pos grants)

theorem listMessages {summary tag : String} (working : known.working = true)
    (silent : known.silent = true) :
    site.Runs known (Program.perform (Call.listMessages site.id summary tag))
      fun _ => { known with lookup := true } := by
  refine perform ?_ ?_
  · intro world _ knows
    exact ⟨knows.claimed, knows.working working⟩
  · intro source target answer choice _ _ knows acted
    cases World.act_request (by simp) acted with
    | same _ _ neutral => cases neutral
    | lookup =>
        have same : (source.onSession site.worker fun session =>
            { session with
              seen := source.committed.any fun post => post.job = site.id
              lookedUp := source.dispatched site.id }).sessions site.worker =
            { source.sessions site.worker with
              seen := source.committed.any fun post => post.job = site.id
              lookedUp := source.dispatched site.id } :=
          World.onSession_self _
        refine
          { knows with
            claimed := ?_
            working := ?_
            covered := ?_
            lookup := ?_ }
        · rw [same]
          exact knows.claimed
        · rw [same]
          exact knows.working
        · rw [same]
          exact knows.covered
        · intro _ live
          refine ⟨knows.silent silent live, ?_, ?_⟩
          · rw [same]
            intro absent post member
            have each := List.any_eq_false.mp absent post member
            simpa using each
          · rw [same]
            intro _
            rfl

/-- A lookup that succeeds tells whether the review was posted. -/
theorem messages (working : known.working = true) (lookup : known.lookup = true) :
    site.Runs known (Program.perform (Call.messages site.id))
      (Knowledge.outcome
        (fun found =>
          { known with lookup := false, settled := true, uncommitted := !found })
        fun error =>
          known.given (∃ failure : GerritFailure, error = failure.toError)) := by
  refine perform ?_ ?_
  · intro world _ knows
    exact ⟨knows.claimed, knows.working working⟩
  · intro source target answer choice valid _ knows acted
    cases World.act_request (by simp) acted with
    | same _ _ neutral => cases neutral
    | failed id failure =>
        exact { knows with fact := ⟨knows.fact, failure, rfl⟩ }
    | found id found observed =>
        refine
          { knows with
            settled := ?_
            uncommitted := ?_
            lookup := fun absent => by cases absent }
        · intro _ tidy live
          obtain ⟨_, _, dispatched⟩ := knows.lookup lookup live
          have counted := valid.counted site.id
          have reached := dispatched tidy
          show Function.update source.resolved site.id _ site.id = _
          rw [Function.update_self]
          show max (source.resolved site.id) _ = source.dispatched site.id
          omega
        · intro absent live
          obtain ⟨quiet, none, _⟩ := knows.lookup lookup live
          refine ⟨quiet, none ?_⟩
          by_contra seen
          have posted := observed (by simpa using seen)
          rw [posted] at absent
          cases absent

/-- The POST of a review leaves the worker: its publication is AMBIGUOUS, its
lease was just renewed, and nothing was posted before. -/
theorem postReview {payload : ReviewInput} (working : known.working = true)
    (stored : known.payload = some payload) (covered : known.covered = true)
    (uncommitted : known.uncommitted = true)
    (publishing : ∀ state, known.states state → state = .publishing)
    (ambiguous : known.status = some (some .ambiguous)) :
    site.Runs known (Program.perform (Call.postReview site.id payload))
      fun number =>
        { known with
          settled := false
          silent := false
          uncommitted := false
          covered := false
          lookup := false
          awaiting := some number } := by
  refine perform ?_ ?_
  · intro world _ knows
    refine ⟨⟨knows.claimed, knows.working working⟩,
      knows.payload payload (by simp [stored]), ?_, ?_⟩
    · intro ahead
      obtain ⟨row, found, held⟩ := knows.covered covered ahead
      have live : world.live site.worker site.id = true :=
        World.live_iff.mpr ⟨row, found, held.live ahead⟩
      exact ⟨⟨row, found, held⟩, knows.uncommitted uncommitted live⟩
    · intro tidy row found live
      have state := publishing _ (knows.states row found live)
      exact ⟨Row.recovering_iff.mpr (.inl state),
        knows.status _ (by simp [ambiguous]) tidy row found live⟩
  · intro source target answer choice _ _ knows acted
    cases World.act_request (by simp) acted with
    | same _ _ neutral => cases neutral
    | post =>
        have sent : (source.posting site.worker site.id payload).dispatched
            site.id = source.dispatched site.id + 1 := by
          simp [World.posting]
        refine
          { knows with
            settled := fun absent => by cases absent
            silent := fun absent => by cases absent
            uncommitted := fun absent => by cases absent
            covered := fun absent => by cases absent
            lookup := fun absent => by cases absent
            awaiting := ?_ }
        rintro number ⟨⟩
        refine ⟨by rw [sent]; exact Nat.lt_succ_self _, ?_⟩
        intro live
        obtain ⟨quiet, _⟩ := knows.uncommitted uncommitted live
        refine ⟨?_, fun _ => sent⟩
        intro post member same ahead
        rcases List.mem_cons.mp member with rfl | earlier
        · rfl
        · exact absurd ahead (Nat.not_lt.mpr (quiet post earlier same))

/-- What the outcome of a POST tells; only an unknown one leaves it open. -/
theorem postOutcome {number : Nat} (working : known.working = true)
    (awaiting : known.awaiting = some number) :
    site.Runs known (Program.perform (Call.postOutcome site.id number))
      fun outcome =>
        { known with
          silent := true
          settled :=
            match outcome with
            | .accepted _ | .rejected _ => true
            | .unknown _ _ => false
          uncommitted := false
          lookup := false
          awaiting := none } := by
  refine perform ?_ ?_
  · intro world _ knows
    exact ⟨⟨knows.claimed, knows.working working⟩,
      (knows.awaiting number (by simp [awaiting])).1⟩
  · intro source target answer choice valid _ knows acted
    obtain ⟨_, while_⟩ := knows.awaiting number (by simp [awaiting])
    have settles : ∀ world : World, world.stale = source.stale →
        world.live site.worker site.id = source.live site.worker site.id →
          world.resolved = Function.update source.resolved site.id
            (max (source.resolved site.id) (number + 1)) →
            world.dispatched = source.dispatched →
              world.Settled site.worker site.id := by
      intro world stale same resolved dispatched tidy live
      rw [stale] at tidy
      rw [same] at live
      have counted := valid.counted site.id
      have sent := (while_ live).2 tidy
      rw [resolved, dispatched, Function.update_self]
      omega
    -- The POST that was awaited can no longer commit.
    have withdrawn : source.live site.worker site.id = true →
        (source.withdraw site.id number).Quiet site.id := by
      intro live post member same
      obtain ⟨earlier, other⟩ := World.mem_withdraw member
      by_contra late
      have ahead : source.now < post.deadline := Nat.lt_of_not_le late
      have awaited := (while_ live).1 post earlier same ahead
      simp [Post.matches, same, awaited] at other
    cases World.act_request (by simp) acted with
    | same _ _ neutral => cases neutral
    | accepted id _ response committed =>
        obtain ⟨post, member, matched⟩ := List.any_eq_true.mp committed
        have about : post.job = site.id := by
          simp only [Post.matches, Bool.and_eq_true, decide_eq_true_eq] at matched
          exact matched.1
        refine
          { knows with
            silent := ?_
            settled := fun _ => settles _ rfl rfl rfl rfl
            uncommitted := fun absent => by cases absent
            lookup := fun absent => by cases absent
            awaiting := fun _ absent => by cases absent }
        intro _ _ other otherMember same
        by_contra late
        have ahead : source.now < other.deadline := Nat.lt_of_not_le late
        exact valid.uncommitted other otherMember ahead post member
          (about.trans same.symm)
    | rejected id _ status absent =>
        exact
          { knows with
            silent := fun _ live => withdrawn live
            settled := fun _ => settles _ rfl rfl rfl rfl
            uncommitted := fun absent => by cases absent
            lookup := fun absent => by cases absent
            awaiting := fun _ absent => by cases absent }
    | unknown id _ message retryAfterSeconds =>
        exact
          { knows with
            silent := fun _ live => withdrawn live
            settled := fun absent => by cases absent
            uncommitted := fun absent => by cases absent
            lookup := fun absent => by cases absent
            awaiting := fun _ absent => by cases absent }

end Runs

namespace Triple

variable {task : Task Value} {post weaker : Value → Knowledge}
  {raised raisedWeaker : PyError → Knowledge}

theorem pure {value : Value} (implies : known.Implies (post value)) :
    site.Triple known (Pure.pure value) post raised :=
  Runs.done implies

theorem throw {error : PyError} (implies : known.Implies (raised error)) :
    site.Triple known (MonadExcept.throw error : Task Value) post raised :=
  Runs.done implies

theorem ofExcept {value : Except PyError Value}
    (implies : known.Implies (Knowledge.outcome post raised value)) :
    site.Triple known (ExceptT.mk (.done value)) post raised :=
  Runs.done implies

theorem bind {rest : Value → Task Final} {final : Final → Knowledge}
    (first : site.Triple known task post raised)
    (second : ∀ value, site.Triple (post value) (rest value) final raised) :
    site.Triple known (task >>= rest) final raised :=
  Spec.bindExcept first
    (fun _ => Runs.done (Knowledge.Implies.refl _)) second

theorem tryCatch {handler : PyError → Task Value}
    (body : site.Triple known task post raised)
    (handled : ∀ error,
      site.Triple (raised error) (handler error) post raisedWeaker) :
    site.Triple known (MonadExcept.tryCatch task handler) post raisedWeaker :=
  Spec.tryCatch body
    (fun _ => Runs.done (Knowledge.Implies.refl _)) handled

theorem consequence (triple : site.Triple known task post raised)
    (before : stronger.Implies known)
    (returns : ∀ value, (post value).Implies (weaker value))
    (raises : ∀ error, (raised error).Implies (raisedWeaker error)) :
    site.Triple stronger task weaker raisedWeaker := by
  refine Runs.consequence triple before ?_
  intro result
  cases result with
  | ok value => exact returns value
  | error error => exact raises error

theorem strengthen (triple : site.Triple known task post raised)
    (before : stronger.Implies known) :
    site.Triple stronger task post raised :=
  triple.consequence before (fun _ => .refl _) fun _ => .refl _

theorem returns (triple : site.Triple known task post raised)
    (returns : ∀ value, (post value).Implies (weaker value)) :
    site.Triple known task weaker raised :=
  triple.consequence (.refl known) returns fun _ => .refl _

theorem raises (triple : site.Triple known task post raised)
    (raises : ∀ error, (raised error).Implies (raisedWeaker error)) :
    site.Triple known task post raisedWeaker :=
  triple.consequence (.refl known) (fun _ => .refl _) raises

theorem assuming (triple : known.fact → site.Triple known task post raised) :
    site.Triple known task post raised :=
  Runs.assuming triple

/-- A call that cannot raise. -/
theorem plain {request : Call} {post : Answer request → Knowledge}
    (runs : site.Runs known (Program.perform request) post) :
    site.Triple known (Task.plain request) post raised :=
  Runs.bind runs fun _ => Runs.done (.refl _)

end Triple

/-- A block: what is known may depend on its local variables. -/
def BlockTriple (site : Site) (known : Knowledge) (locals : Locals)
    (block : Task.Block Locals Value) (post : Value → Locals → Knowledge)
    (raised : PyError → Locals → Knowledge) : Prop :=
  site.Runs known (block.run locals) fun result =>
    Knowledge.outcome (fun value => post value result.2)
      (fun error => raised error result.2) result.1

namespace BlockTriple

variable {body : Task.Block Locals Value} {locals : Locals}
  {post : Value → Locals → Knowledge} {raised : PyError → Locals → Knowledge}

theorem pure {value : Value} (implies : known.Implies (post value locals)) :
    site.BlockTriple known locals (Pure.pure value) post raised :=
  Runs.done implies

theorem throw {error : PyError} (implies : known.Implies (raised error locals)) :
    site.BlockTriple known locals
      (MonadExcept.throw error : Task.Block Locals Value) post raised :=
  Runs.done implies

theorem bind {rest : Value → Task.Block Locals Final}
    {final : Final → Locals → Knowledge}
    (first : site.BlockTriple known locals body post raised)
    (second : ∀ value after,
      site.BlockTriple (post value after) after (rest value) final raised) :
    site.BlockTriple known locals (body >>= rest) final raised := by
  refine Runs.bind first ?_
  rintro ⟨result, after⟩
  cases result with
  | error error => exact Runs.done (.refl _)
  | ok value => exact second value after

/-- A step that leaves the local variables alone, as the last one. -/
theorem last {task : Task Value}
    (triple : site.Triple known task (fun value => post value locals)
      fun error => raised error locals) :
    site.BlockTriple known locals (Task.block task) post raised := by
  refine Runs.bind triple ?_
  intro result
  refine Runs.done ?_
  cases result with
  | error error => exact .refl _
  | ok value => exact .refl _

/-- A step that leaves the local variables alone. -/
theorem step {task : Task Value} {middle : Value → Knowledge}
    {rest : Value → Task.Block Locals Final}
    {final : Final → Locals → Knowledge}
    (first : site.Triple known task middle fun error => raised error locals)
    (second : ∀ value,
      site.BlockTriple (middle value) locals (rest value) final raised) :
    site.BlockTriple known locals (Task.block task >>= rest) final raised := by
  have noted : site.BlockTriple known locals (Task.block task)
      (fun value after => (middle value).given (after = locals)) raised :=
    last (first.returns fun _ => Knowledge.implies_given _ rfl)
  refine bind noted ?_
  intro value after
  refine Runs.assuming ?_
  rintro ⟨_, rfl⟩
  exact Runs.strengthen (second value) (Knowledge.given_implies fun _ => .refl _)

theorem strengthen (triple : site.BlockTriple known locals body post raised)
    (before : stronger.Implies known) :
    site.BlockTriple stronger locals body post raised :=
  Runs.strengthen triple before

theorem assuming
    (triple : known.fact → site.BlockTriple known locals body post raised) :
    site.BlockTriple known locals body post raised :=
  Runs.assuming triple

theorem set {final : Locals} {rest : PUnit → Task.Block Locals Final}
    {post : Final → Locals → Knowledge}
    (second : site.BlockTriple known final (rest ⟨⟩) post raised) :
    site.BlockTriple known locals (MonadStateOf.set final >>= rest) post raised :=
  second

theorem modify {change : Locals → Locals} {rest : PUnit → Task.Block Locals Final}
    {post : Final → Locals → Knowledge}
    (second : site.BlockTriple known (change locals) (rest ⟨⟩) post raised) :
    site.BlockTriple known locals (modify change >>= rest) post raised :=
  second

end BlockTriple

theorem Triple.tryWith {locals : Locals} {body : Task.Block Locals Value}
    {handler : Locals → PyError → Task Value} {post : Value → Knowledge}
    {middle : PyError → Locals → Knowledge} {raised : PyError → Knowledge}
    (inside : site.BlockTriple known locals body (fun value _ => post value) middle)
    (handled : ∀ error after,
      site.Triple (middle error after) (handler after error) post raised) :
    site.Triple known (Task.tryWith locals body handler) post raised := by
  refine Runs.bind inside ?_
  rintro ⟨result, after⟩
  cases result with
  | ok value => exact Runs.done (.refl _)
  | error error => exact handled error after

end Site

end PeReview
