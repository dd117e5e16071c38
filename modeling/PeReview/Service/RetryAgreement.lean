import PeReview.Service.RetryScheduling

/-!
# A retry in a worker and on the store

`_schedule_retry` is a coroutine of the worker, to whom the clock and the backoff answer
some times, and a computation on the store with the delays of the code.  A worker that is
alone with the store does what is computed, where the arithmetic does not overflow.
-/

namespace PeReview

open PeReview.Data PeReview.Process

/-- The store, and what the clock will show next. -/
structure RetryWorld where
  store : Store
  readings : List Time

def RetryClock.readings (clock : RetryClock) (request : RetryRequest) : List Time :=
  if request.error.cls = .providerUnavailableError && request.stage = .review then
    [clock.failedAt, clock.scheduledAt]
  else [clock.scheduledAt]

/-- A delay in microseconds; an infinite one is longer than a provider is waited for. -/
def delayTime : PyFloat → Time
  | .finite value => (microseconds value).toNat
  | .infinite _ => tellable
  | .nan => 0

section Running

variable (hashes : Hashes) (lease : Time) (clock : RetryClock) (worker : WorkerId)
  (backoff : BackoffSettings) (draw : Draw)

/-- What `exponential_backoff` answers. -/
def backoffTime (attempt : Nat) : Time :=
  match backoff.exponentialBackoff attempt draw with
  | .error _ => 0
  | .ok delay => delayTime delay

def RetryWorld.respond (world : RetryWorld) :
    (request : Call) → Option (RetryWorld × Answer request)
  | .store call =>
      match call.run hashes clock.committedAt lease worker world.store with
      | .ok (store, result) => some ({ world with store }, .ok result)
      | .error raised => some (world, .error raised)
  | .clock =>
      match world.readings with
      | [] => none
      | now :: later => some ({ world with readings := later }, now)
  | .backoff attempt => some (world, backoffTime backoff draw attempt)
  | _ => none

def RetryWorld.run {Value : Type} (task : Task Value) (world : RetryWorld) :
    Option (RetryWorld × Except PyError Value) :=
  (ExceptT.run task).exec (RetryWorld.respond hashes lease clock worker backoff draw) world

/-- The coroutine ends with what is computed; where the arithmetic overflows, its times
have no counterpart. -/
def Ends (store : Store) (ended : Option (RetryWorld × Except PyError Unit)) :
    Except ScheduleError Store → Prop
  | .ok target => ∃ world, ended = some (world, .ok ()) ∧ world.store = target
  | .error (.raised raised) => ∃ world, ended = some (world, .error raised) ∧ world.store = store
  | .error (.arithmetic _) => True

end Running

section Rules

variable {hashes : Hashes} {lease : Time} {clock : RetryClock} {worker : WorkerId}
  {backoff : BackoffSettings} {draw : Draw} {Value Final : Type} {store : Store}
  {readings : List Time}

theorem RetryWorld.run_throw (raised : PyError) (world : RetryWorld) :
    world.run hashes lease clock worker backoff draw (throw raised : Task Value) =
      some (world, .error raised) :=
  rfl

theorem RetryWorld.run_bind (task : Task Value) (rest : Value → Task Final)
    (world : RetryWorld) :
    world.run hashes lease clock worker backoff draw (task >>= rest) =
      (world.run hashes lease clock worker backoff draw task).bind fun
        | (next, .ok value) => next.run hashes lease clock worker backoff draw (rest value)
        | (next, .error raised) => some (next, .error raised) := by
  unfold RetryWorld.run
  rw [ExceptT.run_bind, Program.bind_eq, Program.exec_bind]
  congr 1
  funext ran
  obtain ⟨next, result⟩ := ran
  cases result with
  | ok value => rfl
  | error raised => rfl

/-- A committed transaction. -/
theorem RetryWorld.run_store {call : StoreCall} {target : Store} {result : call.Result}
    (committed : call.run hashes clock.committedAt lease worker store = .ok (target, result)) :
    RetryWorld.run hashes lease clock worker backoff draw (Task.store call)
        ⟨store, readings⟩ =
      some (⟨target, readings⟩, .ok result) := by
  show (RetryWorld.respond hashes lease clock worker backoff draw ⟨store, readings⟩
    (.store call)).bind _ = _
  unfold RetryWorld.respond
  dsimp only
  rw [committed]
  rfl

/-- A transaction that is rolled back. -/
theorem RetryWorld.run_store_error {call : StoreCall} {raised : PyError}
    (failed : call.run hashes clock.committedAt lease worker store = .error raised) :
    RetryWorld.run hashes lease clock worker backoff draw (Task.store call)
        ⟨store, readings⟩ =
      some (⟨store, readings⟩, .error raised) := by
  show (RetryWorld.respond hashes lease clock worker backoff draw ⟨store, readings⟩
    (.store call)).bind _ = _
  unfold RetryWorld.respond
  dsimp only
  rw [failed]
  rfl

/-- The attempts are counted. -/
theorem RetryWorld.run_count (id : JobId) (stage : AttemptStage) (rest : Nat → Task Final) :
    RetryWorld.run hashes lease clock worker backoff draw
        (do
          let stageAttempts : Nat ← Task.store (.countConsumedRetryAttempts id stage)
          rest stageAttempts)
        ⟨store, readings⟩ =
      RetryWorld.run hashes lease clock worker backoff draw
        (rest (store.countConsumedRetryAttempts id stage)) ⟨store, readings⟩ :=
  RetryWorld.run_bind (Task.store (.countConsumedRetryAttempts id stage)) rest
    ⟨store, readings⟩

theorem RetryWorld.run_plain {request : Call} {answer : Answer request}
    {world next : RetryWorld}
    (answered : world.respond hashes lease clock worker backoff draw request =
      some (next, answer)) :
    world.run hashes lease clock worker backoff draw (Task.plain request) =
      some (next, .ok answer) := by
  show (world.respond hashes lease clock worker backoff draw request).bind _ = _
  rw [answered]
  rfl

/-- The clock is read. -/
theorem RetryWorld.run_clock (now : Time) (rest : Time → Task Final) :
    RetryWorld.run hashes lease clock worker backoff draw
        (do
          let now : Time ← Task.plain .clock
          rest now)
        ⟨store, now :: readings⟩ =
      RetryWorld.run hashes lease clock worker backoff draw (rest now) ⟨store, readings⟩ :=
  RetryWorld.run_bind (Task.plain .clock) rest ⟨store, now :: readings⟩

/-- A backoff is drawn. -/
theorem RetryWorld.run_backoff (attempt : Nat) (world : RetryWorld) :
    world.run hashes lease clock worker backoff draw
        (Task.plain (.backoff attempt) : Task Time) =
      some (world, .ok (backoffTime backoff draw attempt)) := by
  have answered : RetryWorld.respond hashes lease clock worker backoff draw world
      (.backoff attempt) = some (world, backoffTime backoff draw attempt) := by
    unfold RetryWorld.respond
    rfl
  exact RetryWorld.run_plain answered

end Rules

section Agreement

variable {hashes : Hashes} {lease : Time} {clock : RetryClock} {backoff : BackoffSettings}
  {draw : Draw} {settings : Settings} {store : Store} {readings : List Time}
  {request : RetryRequest} {delay : PyFloat}

/-- The end of a delay is so many microseconds from now. -/
theorem datetimeAfter_delayTime {now moment : Time} (nonneg : PyFloat.zero.le delay = true)
    (reached : datetimeAfter now delay = .ok moment) : moment = now + delayTime delay := by
  obtain ⟨value, isFinite, _, ends⟩ := (datetimeAfter_eq_ok nonneg).mp reached
  have positive : 0 ≤ microseconds value := by
    apply microseconds_nonneg
    rw [isFinite] at nonneg
    simpa [PyFloat.le, PyFloat.zero] using nonneg
  rw [ends, isFinite, delayTime, Int.toNat_add (Int.natCast_nonneg now) positive,
    Int.toNat_natCast]

/-- The end of `_schedule_retry`. -/
theorem parkJob_ends (nonneg : PyFloat.zero.le delay = true) :
    Ends store
      (RetryWorld.run hashes lease clock request.worker backoff draw
        (parkJob request.id request.stage request.error (delayTime delay))
        ⟨store, clock.scheduledAt :: readings⟩)
      (parkAt clock store request (.ok delay)) := by
  have got : (StoreCall.get request.id).run hashes clock.committedAt lease request.worker
      store = .ok (store, store.get request.id) := rfl
  unfold parkJob parkAt
  rw [RetryWorld.run_bind, RetryWorld.run_store got, Option.bind_some]
  dsimp only
  unfold Store.get
  cases found : store.jobs[request.id]? with
  | none => exact ⟨_, rfl, rfl⟩
  | some job =>
      have state : (Job.record request.id job).state = job.state := rfl
      dsimp only [Option.map_some]
      rw [state]
      by_cases resumes : resumableStates.contains (resumeState request.stage job.state) = true
      · rw [if_pos resumes, if_pos resumes]
        cases reached : datetimeAfter clock.scheduledAt delay with
        | error raised => trivial
        | ok retryAt =>
            have ends := datetimeAfter_delayTime nonneg reached
            rw [RetryWorld.run_clock, ← ends, RetryWorld.run_bind]
            dsimp only
            have call : (StoreCall.scheduleRetry request.id
                (resumeState request.stage job.state) retryAt (.raised request.error)).run
                  hashes clock.committedAt lease request.worker store =
                store.scheduleRetry clock.committedAt request.id
                  (resumeState request.stage job.state) retryAt (.raised request.error)
                  request.worker := rfl
            cases parked : store.scheduleRetry clock.committedAt request.id
                (resumeState request.stage job.state) retryAt (.raised request.error)
                request.worker with
            | error raised =>
                rw [RetryWorld.run_store_error (call.trans parked)]
                exact ⟨_, rfl, rfl⟩
            | ok committed =>
                rw [RetryWorld.run_store (call.trans parked)]
                exact ⟨_, rfl, rfl⟩
      · rw [if_neg resumes, if_neg resumes, RetryWorld.run_throw]
        exact ⟨_, rfl, rfl⟩

/-- The job is closed. -/
theorem closeFailed_ends (message : String) :
    Ends store
      (RetryWorld.run hashes lease clock request.worker backoff draw
        (do
          let _ ← Task.store
            (.markFailedPermanent request.id (.raised (.permanent message)))
          pure ())
        ⟨store, readings⟩)
      (closeFailed clock store request message) := by
  have call : (StoreCall.markFailedPermanent request.id (.raised (.permanent message))).run
      hashes clock.committedAt lease request.worker store =
    store.markFailedPermanent clock.committedAt request.id (.raised (.permanent message))
      request.worker := rfl
  unfold closeFailed
  rw [RetryWorld.run_bind]
  cases closed : store.markFailedPermanent clock.committedAt request.id
      (.raised (.permanent message)) request.worker with
  | error raised =>
      rw [RetryWorld.run_store_error (call.trans closed)]
      exact ⟨_, rfl, rfl⟩
  | ok committed =>
      rw [RetryWorld.run_store (call.trans closed)]
      exact ⟨_, rfl, rfl⟩

def askedTime (backoff : BackoffSettings) (draw : Draw) (asked : Option Nat)
    (attempt : Nat) : Time :=
  match asked with
  | some seconds => seconds * second
  | none => backoffTime backoff draw attempt

theorem RetryWorld.run_retryDelay (asked : Option Nat) (attempt : Nat) (world : RetryWorld) :
    world.run hashes lease clock request.worker backoff draw (retryDelay asked attempt) =
      some (world, .ok (askedTime backoff draw asked attempt)) := by
  unfold retryDelay
  cases asked with
  | some seconds => rfl
  | none => exact RetryWorld.run_backoff attempt world

def askedSeconds (asked : Option Nat) : Option PyFloat :=
  asked.map fun seconds => .finite seconds

theorem askedTime_eq {asked : Option Nat} {attempt : Nat}
    (computed : delayAfter backoff draw (askedSeconds asked) attempt = .ok delay) :
    askedTime backoff draw asked attempt = delayTime delay := by
  cases asked with
  | some seconds =>
      cases computed
      unfold askedTime delayTime
      dsimp only
      rw [microseconds_natCast]
      rfl
  | none =>
      have drawn : backoff.exponentialBackoff attempt draw = .ok delay := computed
      unfold askedTime backoffTime
      rw [drawn]

theorem delayAfter_nonneg {asked : Option Nat} {attempt : Nat}
    (computed : delayAfter backoff draw (askedSeconds asked) attempt = .ok delay) :
    PyFloat.zero.le delay = true := by
  cases asked with
  | some seconds =>
      cases computed
      simp [PyFloat.le, PyFloat.zero]
  | none => exact (BackoffSettings.exponentialBackoff_range computed).1

/-- The wait for a provider ends for the coroutine when it ends in seconds. -/
theorem providerExhausted_eq (small : settings.llmProviderMaxWait ≤ tellable)
    (provider : ProviderRetryStatus) :
    providerExhausted settings provider.count (provider.elapsed clock.failedAt) =
      providerSpent settings clock provider := by
  have seconds : decide (settings.llmProviderMaxWait ≤ provider.elapsed clock.failedAt) =
      (totalSeconds settings.llmProviderMaxWait).le
        (totalSeconds (provider.elapsed clock.failedAt)) := by
    rw [Bool.eq_iff_iff, decide_eq_true_eq, totalSeconds_le_iff small]
  unfold providerExhausted providerSpent
  rw [seconds]

theorem toNat_capped (asked : Int) (left : Nat) :
    (min (max 1000000 asked) (left : Int)).toNat =
      min (max 1000000 asked.toNat) left := by
  omega

/-- The delay after a failure of the provider, in microseconds. -/
theorem delayTime_providerDelay (small : settings.llmProviderMaxWait ≤ tellable)
    {provider : ProviderRetryStatus}
    (waits : provider.elapsed clock.failedAt ≤ settings.llmProviderMaxWait)
    (nonneg : PyFloat.zero.le delay = true) :
    delayTime (providerDelay settings clock provider delay) =
      min (max second (delayTime delay))
        (settings.llmProviderMaxWait - provider.elapsed clock.failedAt) := by
  obtain ⟨rest, restIs, restNonneg, restTime⟩ := microseconds_sub small waits
  have remaining : remainingProviderWait settings clock provider = .finite rest := by
    unfold remainingProviderWait
    rw [restIs]
    apply PyFloat.zero_max
    simpa [PyFloat.le, PyFloat.zero] using restNonneg
  unfold providerDelay
  rw [remaining]
  rcases PyFloat.nonneg_cases nonneg with isInfinite | ⟨value, isFinite, valueNonneg⟩
  · have shorter : ((PyFloat.finite 1).max (.infinite false)).min (.finite rest) =
        .finite rest := rfl
    rw [isInfinite, shorter, delayTime, delayTime, restTime, Int.toNat_natCast]
    exact (min_eq_right ((Nat.sub_le _ _).trans (small.trans (le_max_right _ _)))).symm
  · have one : microseconds 1 = 1000000 := by
      have known := microseconds_natCast 1
      rw [Nat.cast_one] at known
      exact known
    rw [isFinite, PyFloat.finite_max, PyFloat.finite_min, delayTime, delayTime,
      microseconds_min (le_max_of_le_left zero_le_one) restNonneg,
      microseconds_max zero_le_one valueNonneg, restTime, one]
    exact toNat_capped _ _

/-- Parking after a delay that is computed. -/
theorem parkJob_computed_ends {computed : Except PyException PyFloat} {retryAfter : Time}
    (timed : ∀ seconds, computed = .ok seconds →
      PyFloat.zero.le seconds = true ∧ retryAfter = delayTime seconds) :
    Ends store
      (RetryWorld.run hashes lease clock request.worker backoff draw
        (parkJob request.id request.stage request.error retryAfter)
        ⟨store, clock.scheduledAt :: readings⟩)
      (parkAt clock store request computed) := by
  cases computed with
  | error raised => trivial
  | ok seconds =>
      obtain ⟨nonneg, same⟩ := timed seconds rfl
      rw [same]
      exact parkJob_ends nonneg

/-- The provider is waited for. -/
theorem RetryWorld.run_providerRetryAfter {job : JobRecord} (same : job.id = request.id)
    (waits : providerExhausted settings
      (store.providerRetryStatus request.id request.stage).count
      ((store.providerRetryStatus request.id request.stage).elapsed clock.failedAt) = false) :
    RetryWorld.run hashes lease clock request.worker backoff draw
        (providerRetryAfter settings job request.stage request.error)
        ⟨store, clock.failedAt :: readings⟩ =
      some (⟨store, readings⟩,
        .ok (some
          (min
            (max second
              (askedTime backoff draw request.error.retryAfterSeconds
                (store.providerRetryStatus request.id request.stage).count))
            (settings.llmProviderMaxWait -
              (store.providerRetryStatus request.id request.stage).elapsed
                clock.failedAt)))) := by
  have status : (StoreCall.providerRetryStatus job.id request.stage).run hashes
      clock.committedAt lease request.worker store =
    .ok (store, store.providerRetryStatus request.id request.stage) := by
    rw [same]
    rfl
  unfold providerRetryAfter
  rw [RetryWorld.run_bind, RetryWorld.run_store status, Option.bind_some]
  dsimp only
  rw [RetryWorld.run_clock, waits]
  simp only [Bool.false_eq_true, if_false]
  rw [RetryWorld.run_bind, RetryWorld.run_retryDelay]
  rfl

def providerText (count : Nat) (elapsed : Time) (error : PyError) : String :=
  s!"LLM provider remained unavailable after {count} provider retries " ++
    s!"over {elapsed / second}s; last error: " ++ error.message

/-- The provider has been waited for too long. -/
theorem providerRetryExhausted_ends {job : JobRecord} (same : job.id = request.id)
    (count : Nat) (elapsed : Time) :
    Ends store
      (RetryWorld.run hashes lease clock request.worker backoff draw
        (providerRetryExhausted job count elapsed (some request.error))
        ⟨store, readings⟩)
      (closeFailed clock store request (providerText count elapsed request.error)) := by
  have joined : s!"LLM provider remained unavailable after {count} provider retries " ++
      s!"over {elapsed / second}s" ++ ("; last error: " ++ request.error.message) =
        providerText count elapsed request.error := by
    have label : "s; last error: " = "s" ++ "; last error: " := by decide
    unfold providerText
    simp only [toString, label, String.append_assoc]
  unfold providerRetryExhausted
  dsimp only
  rw [same, joined]
  exact closeFailed_ends _

/-- A coroutine that ends after a part of it ends as the part does. -/
theorem Ends.after {ended : Option (RetryWorld × Except PyError Unit)}
    {outcome : Except ScheduleError Store} (ends : Ends store ended outcome)
    {rest : RetryWorld × Except PyError Unit → Option (RetryWorld × Except PyError Unit)}
    (stops : ∀ world, rest (world, .ok ()) = some (world, .ok ()))
    (raises : ∀ world raised, rest (world, .error raised) = some (world, .error raised)) :
    Ends store (ended.bind rest) outcome := by
  cases outcome with
  | ok target =>
      obtain ⟨world, same, stored⟩ := ends
      rw [same]
      exact ⟨world, stops world, stored⟩
  | error error =>
      cases error with
      | raised raised =>
          obtain ⟨world, same, stored⟩ := ends
          rw [same]
          exact ⟨world, raises world raised, stored⟩
      | arithmetic raised => trivial

/-- A failure of the provider that has been waited for too long. -/
theorem providerSpent_ends (small : settings.llmProviderMaxWait ≤ tellable)
    {job : JobRecord} (same : job.id = request.id)
    (spent : providerSpent settings clock
      (store.providerRetryStatus request.id request.stage) = true) :
    Ends store
      (RetryWorld.run hashes lease clock request.worker backoff draw
        (do
          let some retryAfter ←
              providerRetryAfter settings job request.stage request.error
            | return
          parkJob request.id request.stage request.error retryAfter)
        ⟨store, clock.failedAt :: readings⟩)
      (closeFailed clock store request
        (providerText (store.providerRetryStatus request.id request.stage).count
          ((store.providerRetryStatus request.id request.stage).elapsed clock.failedAt)
          request.error)) := by
  have status : (StoreCall.providerRetryStatus job.id request.stage).run hashes
      clock.committedAt lease request.worker store =
    .ok (store, store.providerRetryStatus request.id request.stage) := by
    rw [same]
    rfl
  have decided := (providerExhausted_eq small
    (store.providerRetryStatus request.id request.stage)).trans spent
  unfold providerRetryAfter
  rw [RetryWorld.run_bind, RetryWorld.run_bind, RetryWorld.run_store status,
    Option.bind_some]
  dsimp only
  rw [RetryWorld.run_clock, decided, if_pos rfl, RetryWorld.run_bind, Option.bind_assoc]
  apply (providerRetryExhausted_ends same _ _).after
  · intro world
    rfl
  · intro world raised
    rfl

/-- A failure of the provider that is still waited for. -/
theorem providerWaits_ends (small : settings.llmProviderMaxWait ≤ tellable)
    {job : JobRecord} (same : job.id = request.id)
    (asked : request.asked = askedSeconds request.error.retryAfterSeconds)
    (waits : providerSpent settings clock
      (store.providerRetryStatus request.id request.stage) = false) :
    Ends store
      (RetryWorld.run hashes lease clock request.worker backoff draw
        (do
          let some retryAfter ←
              providerRetryAfter settings job request.stage request.error
            | return
          parkJob request.id request.stage request.error retryAfter)
        ⟨store, clock.failedAt :: clock.scheduledAt :: readings⟩)
      (parkAt clock store request
        ((delayAfter backoff draw request.asked
            (store.providerRetryStatus request.id request.stage).count).map
          (providerDelay settings clock
            (store.providerRetryStatus request.id request.stage)))) := by
  have decided := (providerExhausted_eq small
    (store.providerRetryStatus request.id request.stage)).trans waits
  have within : (store.providerRetryStatus request.id request.stage).elapsed
      clock.failedAt ≤ settings.llmProviderMaxWait := by
    rw [providerExhausted, Bool.or_eq_false_iff, decide_eq_false_iff_not,
      decide_eq_false_iff_not] at decided
    exact (Nat.not_le.mp decided.2).le
  rw [RetryWorld.run_bind, RetryWorld.run_providerRetryAfter same decided,
    Option.bind_some, asked]
  apply parkJob_computed_ends
  intro seconds computed
  cases delayed : delayAfter backoff draw
      (askedSeconds request.error.retryAfterSeconds)
      (store.providerRetryStatus request.id request.stage).count with
  | error raised =>
      rw [delayed] at computed
      cases computed
  | ok delay =>
      rw [delayed] at computed
      cases computed
      refine ⟨providerDelay_nonneg _ _, ?_⟩
      rw [delayTime_providerDelay small within (delayAfter_nonneg delayed),
        askedTime_eq delayed]

/-- A worker that is alone with the store schedules the retry that is computed. -/
theorem scheduleRetry_ends (small : settings.llmProviderMaxWait ≤ tellable)
    (asked : request.asked =
      if request.error.isTransient then askedSeconds request.error.retryAfterSeconds
      else none) :
    Ends store
      (RetryWorld.run hashes lease clock request.worker backoff draw
        (scheduleRetry settings request.id request.stage request.error
          request.allowRecoveryPass)
        ⟨store, clock.readings request⟩)
      (scheduleRetryAt settings backoff clock draw store request) := by
  have got : (StoreCall.get request.id).run hashes clock.committedAt lease request.worker
      store = .ok (store, store.get request.id) := rfl
  unfold scheduleRetry scheduleRetryAt
  rw [RetryWorld.run_bind, RetryWorld.run_store got, Option.bind_some]
  dsimp only
  unfold Store.get
  cases found : store.jobs[request.id]? with
  | none => exact ⟨_, rfl, rfl⟩
  | some job =>
      dsimp only [Option.map_some]
      rw [RetryWorld.run_count]
      unfold RetryClock.readings
      have same : (Job.record request.id job).id = request.id := rfl
      by_cases provider :
          (decide (request.error.cls = .providerUnavailableError) &&
            decide (request.stage = .review)) = true
      · rw [if_pos provider, if_pos provider, if_pos provider]
        by_cases spent : providerSpent settings clock
            (store.providerRetryStatus request.id request.stage) = true
        · rw [if_pos spent]
          exact providerSpent_ends small same spent
        · rw [if_neg spent]
          rw [Bool.and_eq_true, decide_eq_true_eq] at provider
          have transient : request.error.isTransient = true := by
            unfold PyError.isTransient
            rw [provider.1]
          exact providerWaits_ends small same (asked.trans (if_pos transient))
            (Bool.eq_false_iff.mpr spent)
      · rw [if_neg provider, if_neg provider, if_neg provider]
        split
        · exact closeFailed_ends _
        · have known : request.asked = askedSeconds
              (if request.error.isTransient then request.error.retryAfterSeconds
                else none) := by
            rw [asked]
            split <;> rfl
          rw [RetryWorld.run_bind, RetryWorld.run_retryDelay, Option.bind_some, known]
          dsimp only
          exact parkJob_computed_ends fun seconds computed =>
            ⟨delayAfter_nonneg computed, askedTime_eq computed⟩

end Agreement

end PeReview
