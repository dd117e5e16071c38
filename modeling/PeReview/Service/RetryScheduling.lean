import PeReview.Service.Retry
import PeReview.Service.RetryDelay

/-!
# Scheduling a retry

`_schedule_retry` of `ReviewWorker` on the store, with its delays computed: when the job
is parked or closed, and when the arithmetic overflows and leaves it as it is.
-/

namespace PeReview

open PeReview.Data

/-- What the clock shows while a retry is scheduled: when the provider's streak is read,
when the end of the delay is computed, and in the transaction. -/
structure RetryClock where
  failedAt : Time
  scheduledAt : Time
  committedAt : Time

/-- How `_schedule_retry` ends without a transaction. -/
inductive ScheduleError
  | raised (error : PyError)
  | arithmetic (raised : PyException)
  deriving DecidableEq, Repr

/-- A failure that is handled by a retry.  `asked` is its `retry_after_seconds`. -/
structure RetryRequest where
  id : JobId
  stage : AttemptStage
  worker : WorkerId
  error : PyError
  asked : Option PyFloat
  allowRecoveryPass : Bool

section Scheduling

variable (settings : Settings) (backoff : BackoffSettings) (clock : RetryClock)
  (draw : Draw)

/-- `provider.count >= provider_attempt_limit or elapsed >= provider_wait_limit`. -/
def providerSpent (provider : ProviderRetryStatus) : Bool :=
  settings.llmProviderAttempts ≤ provider.count ||
    (totalSeconds settings.llmProviderMaxWait).le
      (totalSeconds (provider.elapsed clock.failedAt))

/-- `remaining_provider_wait`. -/
def remainingProviderWait (provider : ProviderRetryStatus) : PyFloat :=
  PyFloat.zero.max
    ((totalSeconds settings.llmProviderMaxWait).sub
      (totalSeconds (provider.elapsed clock.failedAt)))

/-- `min(max(1.0, retry_after), remaining_provider_wait)`. -/
def providerDelay (provider : ProviderRetryStatus) (retryAfter : PyFloat) : PyFloat :=
  ((PyFloat.finite 1).max retryAfter).min (remainingProviderWait settings clock provider)

/-- The delay that is asked for, or else a backoff. -/
def delayAfter (asked : Option PyFloat) (attempt : Nat) : Except PyException PyFloat :=
  match asked with
  | some seconds => .ok seconds
  | none => backoff.exponentialBackoff attempt draw

def closeFailed (store : Store) (request : RetryRequest) (message : String) :
    Except ScheduleError Store :=
  match store.markFailedPermanent clock.committedAt request.id
      (.raised (.permanent message)) request.worker with
  | .ok (store, _) => .ok store
  | .error raised => .error (.raised raised)

def parkAt (store : Store) (request : RetryRequest) (delay : Except PyException PyFloat) :
    Except ScheduleError Store :=
  match delay with
  | .error raised => .error (.arithmetic raised)
  | .ok retryAfter =>
      match store.jobs[request.id]? with
      | none => .ok store
      | some current =>
          let resume := resumeState request.stage current.state
          if resumableStates.contains resume then
            match datetimeAfter clock.scheduledAt retryAfter with
            | .error raised => .error (.arithmetic raised)
            | .ok retryAt =>
                match store.scheduleRetry clock.committedAt request.id resume retryAt
                    (.raised request.error) request.worker with
                | .ok (store, _) => .ok store
                | .error raised => .error (.raised raised)
          else
            .error
              (.raised
                (.runtime (s!"cannot retry job {request.id} from " ++ resume.value)))

/-- `ReviewWorker._schedule_retry`. -/
def scheduleRetryAt (store : Store) (request : RetryRequest) : Except ScheduleError Store :=
  match store.jobs[request.id]? with
  | none => .ok store
  | some _ =>
      let stage := request.stage
      let attempts := store.countConsumedRetryAttempts request.id stage
      if request.error.cls = .providerUnavailableError && stage = .review then
        let provider := store.providerRetryStatus request.id stage
        if providerSpent settings clock provider then
          closeFailed clock store request
            (s!"LLM provider remained unavailable after {provider.count} provider retries " ++
              s!"over {provider.elapsed clock.failedAt / second}s; last error: " ++
              request.error.message)
        else
          parkAt clock store request
            ((delayAfter backoff draw request.asked provider.count).map
              (providerDelay settings clock provider))
      else if stage ≠ .reconcile ∧ retryBudget settings stage ≤ attempts ∧
          request.allowRecoveryPass = false then
        closeFailed clock store request
          (stage.value ++ " retry budget exhausted after " ++ s!"{attempts} attempts: " ++
            request.error.message)
      else parkAt clock store request (delayAfter backoff draw request.asked attempts)

/-- The job waits until a moment from now on, or it is closed. -/
def Scheduled (id : JobId) (target : Store) : Prop :=
  ∃ job, target.jobs[id]? = some job ∧
    (job.state = .retryWait ∧ clock.scheduledAt ≤ job.nextAttemptAt ∧
        job.nextAttemptAt ≤ lastMoment ∨
      job.state = .failedPermanent)

/-- Whatever jitter is drawn, the failure is scheduled, and every backoff is within its
bounds. -/
structure SchedulingSucceeds (store : Store) (request : RetryRequest) : Prop where
  scheduled : ∀ draw : Draw, ∃ target,
    scheduleRetryAt settings backoff clock draw store request = .ok target ∧
      Scheduled clock request.id target
  range : ∀ (attempt : Nat) (draw : Draw) (value : PyFloat),
    backoff.exponentialBackoff attempt draw = .ok value →
      PyFloat.zero.le value = true ∧ value.le backoff.bound = true

/-- The delay that is asked for, or else the longest backoff, ends at a `datetime`, and
the power of the backoff fits into a `float`. -/
def DelayFits (asked : Option PyFloat) (attempt : Nat) (shape : PyFloat → PyFloat) : Prop :=
  match asked with
  | some seconds => Representable clock.scheduledAt (shape seconds)
  | none =>
      attempt ≤ Json.doubleExponent ∧
        Representable clock.scheduledAt (shape (backoff.longest attempt))

/-- When no step of the delay arithmetic overflows. -/
def ScheduleFits (job : Job) (request : RetryRequest) : Prop :=
  if request.error.cls = .providerUnavailableError ∧ request.stage = .review then
    let provider := job.providerStatus request.stage
    providerSpent settings clock provider = true ∨
      DelayFits backoff clock request.asked provider.count
        (providerDelay settings clock provider)
  else
    let attempts := job.countConsumed request.stage
    request.stage ≠ .reconcile ∧ retryBudget settings request.stage ≤ attempts ∧
        request.allowRecoveryPass = false ∨
      DelayFits backoff clock request.asked attempts id

end Scheduling

section Outcomes

variable {settings : Settings} {backoff : BackoffSettings} {clock : RetryClock}
  {draw : Draw} {store : Store} {request : RetryRequest} {job : Job}

theorem validRetryTarget_resumeState (stage : AttemptStage) {state : JobState}
    (active : resumableStates.contains state = true) :
    resumableStates.contains (resumeState stage state) = true ∧
      validRetryTarget (resumeState stage state) = true := by
  have targets : ∀ resumed : JobState, resumableStates.contains resumed = true →
      validRetryTarget resumed = true := by
    intro resumed known
    cases resumed with
    | fetching | reviewing | validating | readyToPublish | publishing => rfl
    | received | retryWait | failedTransient | failedPermanent | superseded | skippedScope
    | done => cases known
  have resumed : resumableStates.contains (resumeState stage state) = true := by
    unfold resumeState
    split
    · rfl
    · exact active
  exact ⟨resumed, targets _ resumed⟩

theorem mayMove_of_active {state : JobState}
    (active : resumableStates.contains state = true) :
    mayMove state .retryWait = true ∧ mayMove state .failedPermanent = true := by
  cases state with
  | fetching | reviewing | validating | readyToPublish | publishing => exact ⟨rfl, rfl⟩
  | received | retryWait | failedTransient | failedPermanent | superseded | skippedScope
  | done => cases active

/-- The row a transaction has written is found. -/
theorem getElem?_setJob {id : JobId} {written : Job} (found : store.jobs[id]? = some job) :
    (store.setJob id written).jobs[id]? = some written := by
  have inside : id < store.jobs.length := by
    by_contra outside
    rw [List.getElem?_eq_none (Nat.not_lt.mp outside)] at found
    cases found
  unfold Store.setJob
  exact List.getElem?_set_self inside

/-- A live lease closes an active job. -/
theorem closeFailed_scheduled (found : store.jobs[request.id]? = some job)
    (live : job.live request.worker clock.committedAt = true)
    (active : resumableStates.contains job.state = true) (message : String) :
    ∃ target, closeFailed clock store request message = .ok target ∧
      Scheduled clock request.id target := by
  have leased : job.requireLiveLease request.id request.worker clock.committedAt = .ok () :=
    Job.requireLiveLease_eq_ok.mpr live
  have moves : requireTransition job.state .failedPermanent = .ok () :=
    requireTransition_eq_ok.mpr (mayMove_of_active active).2
  simp only [closeFailed, Store.markFailedPermanent, Store.onJob, found, leased, moves,
    Except.ok_bind]
  exact ⟨_, rfl, _, getElem?_setJob found, Or.inr rfl⟩

/-- A live lease parks an active job when the end of the delay is a `datetime`. -/
theorem parkAt_scheduled (found : store.jobs[request.id]? = some job)
    (live : job.live request.worker clock.committedAt = true)
    (active : resumableStates.contains job.state = true) {seconds : PyFloat}
    (nonneg : PyFloat.zero.le seconds = true) :
    (∃ target, parkAt clock store request (.ok seconds) = .ok target ∧
        Scheduled clock request.id target) ↔
      Representable clock.scheduledAt seconds := by
  have resume := validRetryTarget_resumeState request.stage active
  have leased : job.requireLiveLease request.id request.worker clock.committedAt = .ok () :=
    Job.requireLiveLease_eq_ok.mpr live
  have moves : requireTransition job.state .retryWait = .ok () :=
    requireTransition_eq_ok.mpr (mayMove_of_active active).1
  rw [representable_iff nonneg]
  cases reached : datetimeAfter clock.scheduledAt seconds with
  | error raised =>
      simp only [parkAt, found, resume.1, if_true, reached]
      constructor
      · intro parked
        obtain ⟨target, impossible, _⟩ := parked
        cases impossible
      · intro reaches
        obtain ⟨moment, impossible⟩ := reaches
        cases impossible
  | ok retryAt =>
      have valid : (Except.require (validRetryTarget (resumeState request.stage job.state))
          (.value ("invalid retry target: " ++
            (resumeState request.stage job.state).value)) : Except PyError Unit) = .ok () := by
        rw [Except.require_eq_ok]
        exact resume.2
      simp only [parkAt, found, resume.1, if_true, reached, Store.scheduleRetry, Store.onJob,
        valid, leased, moves, Except.ok_bind]
      constructor
      · intro parked
        exact ⟨retryAt, rfl⟩
      · intro reaches
        have bounds := datetimeAfter_bounds nonneg reached
        exact ⟨_, rfl, _, getElem?_setJob found, Or.inl ⟨rfl, bounds.1, bounds.2⟩⟩

/-- Whatever jitter is drawn, an active job is parked, exactly when the delay fits. -/
theorem parkAt_delay (found : store.jobs[request.id]? = some job)
    (live : job.live request.worker clock.committedAt = true)
    (active : resumableStates.contains job.state = true) {asked : Option PyFloat}
    (askedNonneg : ∀ seconds ∈ asked, PyFloat.zero.le seconds = true) {attempt : Nat}
    {shape : PyFloat → PyFloat}
    (shapeNonneg : ∀ seconds, PyFloat.zero.le seconds = true →
      PyFloat.zero.le (shape seconds) = true)
    (shapeMono : ∀ first second, PyFloat.zero.le first = true → first.le second = true →
      (shape first).le (shape second) = true) :
    (∀ draw : Draw, ∃ target,
        parkAt clock store request ((delayAfter backoff draw asked attempt).map shape) =
            .ok target ∧
          Scheduled clock request.id target) ↔
      DelayFits backoff clock asked attempt shape := by
  cases asked with
  | some seconds =>
      have parked := parkAt_scheduled found live active
        (shapeNonneg seconds (askedNonneg seconds rfl))
      constructor
      · intro succeeds
        exact parked.mp (succeeds BackoffSettings.topDraw)
      · intro fits draw
        exact parked.mpr fits
  | none =>
      by_cases early : attempt ≤ Json.doubleExponent
      · constructor
        · intro succeeds
          obtain ⟨target, ran, scheduled⟩ := succeeds BackoffSettings.topDraw
          rw [delayAfter, BackoffSettings.exponentialBackoff_top early] at ran
          have nonneg : PyFloat.zero.le (shape (backoff.longest attempt)) = true :=
            shapeNonneg _ BackoffSettings.longest_nonneg
          have parked := parkAt_scheduled found live active nonneg
          exact ⟨early, parked.mp ⟨target, ran, scheduled⟩⟩
        · intro fits draw
          obtain ⟨value, computed, nonneg, atMost⟩ :=
            BackoffSettings.exponentialBackoff_spec backoff draw early
          rw [delayAfter, computed]
          apply (parkAt_scheduled found live active (shapeNonneg value nonneg)).mpr
          exact fits.2.shorter (shapeNonneg value nonneg) (shapeMono _ _ nonneg atMost)
      · constructor
        · intro succeeds
          obtain ⟨target, ran, _⟩ := succeeds BackoffSettings.topDraw
          rw [delayAfter, BackoffSettings.exponentialBackoff_overflow (by omega)] at ran
          cases ran
        · intro fits
          exact absurd fits.1 early

theorem providerDelay_nonneg (provider : ProviderRetryStatus) (seconds : PyFloat) :
    PyFloat.zero.le (providerDelay settings clock provider seconds) = true := by
  apply PyFloat.le_min
  · have one : PyFloat.zero.le (.finite 1) = true := by
      simp [PyFloat.le, PyFloat.zero]
    have number := PyFloat.le_self_of_nonneg one
    exact PyFloat.le_trans one (PyFloat.le_max_left number)
  · exact PyFloat.zero_le_max _

theorem providerDelay_mono (provider : ProviderRetryStatus) (first second : PyFloat)
    (nonneg : PyFloat.zero.le first = true) (le : first.le second = true) :
    (providerDelay settings clock provider first).le
      (providerDelay settings clock provider second) = true := by
  have one : PyFloat.zero.le (.finite 1) = true := by
    simp [PyFloat.le, PyFloat.zero]
  have number := PyFloat.le_self_of_nonneg one
  have secondNumber := PyFloat.le_self_of_nonneg (PyFloat.le_trans nonneg le)
  have upper : ((PyFloat.finite 1).max first).le ((PyFloat.finite 1).max second) = true :=
    PyFloat.max_le (PyFloat.le_max_left number)
      (PyFloat.le_trans le (PyFloat.le_max_right number secondNumber))
  have maxNumber := PyFloat.le_self_of_nonneg
    (PyFloat.le_trans one (PyFloat.le_trans (PyFloat.le_max_left number) upper))
  have maxFirst : ((PyFloat.finite 1).max first).le ((PyFloat.finite 1).max first) = true :=
    PyFloat.le_self_of_nonneg (PyFloat.le_trans one (PyFloat.le_max_left number))
  have remaining := PyFloat.le_self_of_nonneg
    (PyFloat.zero_le_max ((totalSeconds settings.llmProviderMaxWait).sub
      (totalSeconds (provider.elapsed clock.failedAt))))
  apply PyFloat.le_min
  · exact PyFloat.le_trans (PyFloat.min_le_left maxFirst) upper
  · exact PyFloat.min_le_right maxFirst remaining

theorem retryAfterSeconds_nonneg {parsedate : String → Option Int} {received : Time}
    {header : Option String} :
    ∀ seconds ∈ retryAfterSeconds parsedate received header,
      PyFloat.zero.le seconds = true := by
  intro seconds asked
  unfold retryAfterSeconds at asked
  cases header with
  | none => cases asked
  | some value =>
      simp only [Option.bind_eq_bind, Option.bind_some, Option.mem_def] at asked
      split at asked
      · cases asked
      · split at asked
        · cases asked
          exact PyFloat.zero_le_max _
        · obtain ⟨retryAt, _, same⟩ := Option.bind_eq_some_iff.mp asked
          cases same
          exact PyFloat.zero_le_max _

theorem scheduleFits_of_delay
    (other : ¬(request.error.cls = .providerUnavailableError ∧ request.stage = .review))
    (fits : DelayFits backoff clock request.asked (job.countConsumed request.stage) id) :
    ScheduleFits settings backoff clock job request := by
  unfold ScheduleFits
  rw [if_neg other]
  exact Or.inr fits

/-- Whatever jitter is drawn, a failure under a live lease is scheduled exactly when the
delay fits. -/
theorem scheduleRetryAt_scheduled (found : store.jobs[request.id]? = some job)
    (live : job.live request.worker clock.committedAt = true)
    (active : resumableStates.contains job.state = true)
    (askedNonneg : ∀ seconds ∈ request.asked, PyFloat.zero.le seconds = true) :
    (∀ draw : Draw, ∃ target,
        scheduleRetryAt settings backoff clock draw store request = .ok target ∧
          Scheduled clock request.id target) ↔
      ScheduleFits settings backoff clock job request := by
  have counted : store.countConsumedRetryAttempts request.id request.stage =
      job.countConsumed request.stage := by
    simp only [Store.countConsumedRetryAttempts, found]
  have status : store.providerRetryStatus request.id request.stage =
      job.providerStatus request.stage := by
    simp only [Store.providerRetryStatus, found]
  simp only [scheduleRetryAt, found, counted, status, ScheduleFits, Bool.and_eq_true,
    decide_eq_true_eq]
  by_cases provider : request.error.cls = .providerUnavailableError ∧ request.stage = .review
  · simp only [if_pos provider]
    by_cases spent : providerSpent settings clock (job.providerStatus request.stage) = true
    · simp only [spent, if_true, true_or, iff_true]
      intro draw
      exact closeFailed_scheduled found live active _
    · simp only [spent, Bool.false_eq_true, if_false, false_or]
      exact parkAt_delay found live active askedNonneg
        (fun seconds _ => providerDelay_nonneg _ seconds) (providerDelay_mono _)
  · simp only [if_neg provider]
    by_cases exhausted : request.stage ≠ .reconcile ∧
        retryBudget settings request.stage ≤ job.countConsumed request.stage ∧
          request.allowRecoveryPass = false
    · simp only [if_pos exhausted]
      simp only [exhausted, ne_eq, not_false_eq_true, and_self, true_or, iff_true]
      intro draw
      exact closeFailed_scheduled found live active _
    · simp only [if_neg exhausted]
      have parked :
          (∀ draw : Draw, ∃ target,
              parkAt clock store request
                  ((delayAfter backoff draw request.asked
                    (job.countConsumed request.stage)).map id) = .ok target ∧
                Scheduled clock request.id target) ↔
            DelayFits backoff clock request.asked (job.countConsumed request.stage) id :=
        parkAt_delay found live active askedNonneg (fun _ nonneg => nonneg)
          (fun _ _ _ le => le)
      simp only [or_iff_right exhausted]
      rw [← parked]
      simp only [Except.map_id, id_eq]

end Outcomes

/-! ## Reconnecting -/

section Reconnecting

variable (minSeconds maxSeconds : PyFloat)

/-- `reconnect_attempt` when a connection ends. -/
def nextReconnect (attempt : Nat) (sawInput : Bool) : Nat :=
  if sawInput then 1 else attempt + 1

def reconnectDelay (attempt : Nat) : Except PyException PyFloat := do
  let factor ← PyFloat.ofInt (2 ^ (attempt - 1))
  .ok (maxSeconds.min (minSeconds.mul factor))

/-- The delays of `GerritEventStream.events` after these connections, each with input or
without. -/
def reconnectDelays : Nat → List Bool → Except PyException (List PyFloat)
  | _, [] => .ok []
  | attempt, sawInput :: rest => do
      let attempt := nextReconnect attempt sawInput
      let delay ← reconnectDelay minSeconds maxSeconds attempt
      let delays ← reconnectDelays attempt rest
      .ok (delay :: delays)

variable {minSeconds maxSeconds}

theorem reconnectDelay_eq_ok {attempt : Nat} :
    (∃ delay, reconnectDelay minSeconds maxSeconds attempt = .ok delay) ↔
      attempt ≤ Json.doubleExponent := by
  unfold reconnectDelay
  rw [PyFloat.ofInt_two_pow]
  by_cases early : attempt ≤ Json.doubleExponent
  · have power : attempt - 1 < Json.doubleExponent := by
      unfold Json.doubleExponent at early ⊢
      omega
    simp only [if_pos power, Except.ok_bind, early, iff_true]
    exact ⟨_, rfl⟩
  · have power : ¬attempt - 1 < Json.doubleExponent := by
      omega
    simp only [if_neg power, Except.error_bind, early, iff_false]
    intro computed
    obtain ⟨delay, impossible⟩ := computed
    cases impossible

/-- The stream reconnects as long as its count of connections without input is at most
1024. -/
theorem reconnectDelays_eq_ok {attempt : Nat} {connections : List Bool} :
    (∃ delays, reconnectDelays minSeconds maxSeconds attempt connections = .ok delays) ↔
      ∀ seen, seen <+: connections → seen ≠ [] →
        seen.foldl nextReconnect attempt ≤ Json.doubleExponent := by
  induction connections generalizing attempt with
  | nil =>
      constructor
      · intro _ seen isPrefix filled
        exact absurd (List.prefix_nil.mp isPrefix) filled
      · intro _
        exact ⟨[], rfl⟩
  | cons sawInput rest inductionHypothesis =>
      constructor
      · intro succeeds seen isPrefix filled
        obtain ⟨delays, computed⟩ := succeeds
        obtain ⟨delay, first, later⟩ := Except.bind_eq_ok.mp computed
        obtain ⟨others, second, _⟩ := Except.bind_eq_ok.mp later
        cases seen with
        | nil => exact absurd rfl filled
        | cons seenInput seen =>
            obtain ⟨same, inside⟩ := List.cons_prefix_cons.mp isPrefix
            subst same
            rw [List.foldl_cons]
            by_cases alone : seen = []
            · rw [alone]
              exact reconnectDelay_eq_ok.mp ⟨delay, first⟩
            · exact inductionHypothesis.mp ⟨others, second⟩ seen inside alone
      · intro bounded
        have here : nextReconnect attempt sawInput ≤ Json.doubleExponent :=
          bounded [sawInput] (List.prefix_iff_eq_take.mpr rfl) (List.cons_ne_nil _ _)
        obtain ⟨delay, first⟩ : ∃ delay, reconnectDelay minSeconds maxSeconds
            (nextReconnect attempt sawInput) = .ok delay :=
          reconnectDelay_eq_ok.mpr here
        obtain ⟨others, second⟩ := inductionHypothesis.mpr
          fun seen inside _ =>
            bounded (sawInput :: seen) (List.cons_prefix_cons.mpr ⟨rfl, inside⟩)
              (List.cons_ne_nil _ _)
        refine ⟨delay :: others, ?_⟩
        simp only [reconnectDelays, first, second, Except.ok_bind]

end Reconnecting

/-- A transient failure under a live lease is scheduled, whatever jitter is drawn, exactly
when the delay fits; and the stream reconnects as long as its count of connections without
input is at most 1024. -/
theorem retry_scheduled_iff (settings : Settings) (backoff : BackoffSettings)
    (clock : RetryClock) {store : Store} {job : Job} {id : JobId} {worker : WorkerId}
    (found : store.jobs[id]? = some job)
    (live : job.live worker clock.committedAt = true)
    (active : resumableStates.contains job.state = true)
    (stage : AttemptStage) (error : PyError) (allowRecoveryPass : Bool)
    (parsedate : String → Option Int) (received : Time) (header : Option String)
    (minSeconds maxSeconds : PyFloat) (connections : List Bool) :
    (SchedulingSucceeds settings backoff clock store
        { id, stage, worker, error, allowRecoveryPass
          asked := retryAfterSeconds parsedate received header } ↔
      ScheduleFits settings backoff clock job
        { id, stage, worker, error, allowRecoveryPass
          asked := retryAfterSeconds parsedate received header }) ∧
    ((∃ delays, reconnectDelays minSeconds maxSeconds 0 connections = .ok delays) ↔
      ∀ seen, seen <+: connections →
        seen.foldl nextReconnect 0 ≤ Json.doubleExponent) := by
  have asked : ∀ seconds ∈ retryAfterSeconds parsedate received header,
      PyFloat.zero.le seconds = true :=
    retryAfterSeconds_nonneg
  let request : RetryRequest :=
    { id, stage, worker, error, allowRecoveryPass
      asked := retryAfterSeconds parsedate received header }
  have scheduled :
      (∀ draw : Draw, ∃ target,
          scheduleRetryAt settings backoff clock draw store request = .ok target ∧
            Scheduled clock id target) ↔
        ScheduleFits settings backoff clock job request :=
    scheduleRetryAt_scheduled found live active asked
  constructor
  · constructor
    · intro succeeds
      exact scheduled.mp succeeds.scheduled
    · intro fits
      exact
        { scheduled := scheduled.mpr fits
          range := fun _ _ _ computed => BackoffSettings.exponentialBackoff_range computed }
  · rw [reconnectDelays_eq_ok]
    constructor
    · intro bounded seen isPrefix
      by_cases none_ : seen = []
      · rw [none_]
        exact Nat.zero_le _
      · exact bounded seen isPrefix none_
    · intro bounded seen isPrefix _
      exact bounded seen isPrefix

def defaultSettings : Settings :=
  { claimLease := 900 * second, fetchAttempts := 4, reviewAttempts := 4
    publishAttempts := 8, llmProviderAttempts := 12, llmProviderMaxWait := 1800 * second
    outputLanguage := "en-US", maxFindings := 8, maxPolicyBytes := 128000
    maxContextFileBytes := 256000, reviewTag := "autogenerated:pe-ai-review"
    notify := "OWNER", maxCommentBytes := 16384 }

/-- The default backoff: two seconds at first, five minutes at most, a fifth of jitter. -/
def defaultBackoff : BackoffSettings where
  baseSeconds := .finite (2 : Nat)
  maxSeconds := .finite (300 : Nat)
  jitterRatio := 3602879701896397 / 18014398509481984
  base_pos := by simp [PyFloat.lt, PyFloat.le, PyFloat.zero]
  max_pos := by simp [PyFloat.lt, PyFloat.le, PyFloat.zero]
  jitter_nonneg := by norm_num
  jitter_le_one := by norm_num
  base_isDouble := PyFloat.isDouble_natCast (by decide)
  max_isDouble := PyFloat.isDouble_natCast (by decide)

/-- A job in publication recovery whose lookups have failed so many times. -/
def recoveringJob (failures : Nat) : Job :=
  { project := "firmware", changeNumber := 1, patchsetNumber := 1, revisionSha := "a"
    reviewPolicyVersion := "1", state := .publishing
    eventPayload :=
      { project := "firmware", changeNumber := 1, patchsetNumber := 1, revisionSha := "a" }
    attemptCount := failures, nextAttemptAt := 0, leaseOwner := some "worker"
    leaseExpiresAt := some 100, createdAt := 0
    attempts :=
      List.replicate failures
        { stage := .reconcile, workerId := "worker", startedAt := 0, finishedAt := some 0
          success := some false } }

/-- A transient failure of such a lookup. -/
def lookupFailure (asked : Option PyFloat) : RetryRequest :=
  { id := 0, stage := .reconcile, worker := "worker"
    error := .transient "Gerrit REST GET returned HTTP 503", asked
    allowRecoveryPass := false }

theorem countConsumed_recoveringJob (failures : Nat) :
    (recoveringJob failures).countConsumed .reconcile = failures := by
  simp [recoveringJob, Job.countConsumed, Job.epochAttempts, Attempt.consumesRetry,
    Attempt.isProviderFailure, List.countP_replicate]

/-- The delays of the default backoff are ten minutes at most. -/
theorem defaultBackoff_bound : defaultBackoff.bound.le (.finite (600 : Nat)) = true := by
  have most : (PyFloat.finite (300 : Nat)).IsDouble := PyFloat.isDouble_natCast (by decide)
  have twice : (PyFloat.finite (600 : Nat)).IsDouble := PyFloat.isDouble_natCast (by decide)
  have share : ((PyFloat.finite (300 : Nat)).mul (.finite defaultBackoff.jitterRatio)).le
      (.finite (300 : Nat)) = true := by
    have rounded : (toDouble ((300 : Nat) * defaultBackoff.jitterRatio)).le
        (toDouble (300 : Nat)) = true := by
      apply PyFloat.toDouble_le (by norm_num)
      exact mul_le_of_le_one_right (by norm_num) defaultBackoff.jitter_le_one
    rw [PyFloat.toDouble_of_isDouble most] at rounded
    exact rounded
  have nonneg : PyFloat.zero.le (.finite (300 : Nat)) = true := by
    simp [PyFloat.le, PyFloat.zero]
  have jitter : ¬defaultBackoff.jitterRatio ≤ 0 := by
    norm_num [defaultBackoff]
  have sum : (PyFloat.finite (300 : Nat)).add (.finite (300 : Nat)) =
      .finite (600 : Nat) := by
    rw [← PyFloat.toDouble_of_isDouble twice, PyFloat.add]
    norm_num
  unfold BackoffSettings.bound BackoffSettings.jittered
  rw [if_neg jitter, ← sum]
  exact PyFloat.add_mono (PyFloat.le_self_of_nonneg nonneg) share nonneg
    (BackoffSettings.scaled nonneg (not_le.mp jitter)).1

theorem representable_minutes : Representable 1 (.finite (600 : Nat)) := by
  have whole : ((600 : Nat) : Rat).num.tdiv ((600 : Nat) : Rat).den = 600 := by
    rfl
  refine ⟨_, rfl, ?_⟩
  unfold microseconds
  dsimp only
  rw [whole]
  norm_num [roundDouble_zero]
  have exact_ : roundHalfEven (600000000 : Rat) = 600000000 := roundHalfEven_intCast 600000000
  rw [exact_]
  decide

/-- Two failed lookups later the next failure is scheduled with a backoff, and the stream
connects again after a connection with input and two without. -/
theorem retry_scheduled_after_backoff :
    SchedulingSucceeds defaultSettings defaultBackoff ⟨1, 1, 1⟩ { jobs := [recoveringJob 2] }
        (lookupFailure none) ∧
      ∃ delays, reconnectDelays (.finite (1 : Nat)) (.finite (60 : Nat)) 0
        [true, false, false] = .ok delays := by
  have found : ({ jobs := [recoveringJob 2] } : Store).jobs[0]? = some (recoveringJob 2) := rfl
  have live : (recoveringJob 2).live "worker" 1 = true := rfl
  have active : resumableStates.contains (recoveringJob 2).state = true := rfl
  have scheduled := retry_scheduled_iff defaultSettings defaultBackoff ⟨1, 1, 1⟩ found live
    active .reconcile (.transient "Gerrit REST GET returned HTTP 503") false (fun _ => none) 1
    none (.finite (1 : Nat)) (.finite (60 : Nat)) [true, false, false]
  constructor
  · apply scheduled.1.mpr
    have other : ¬(ErrorClass.transientError = .providerUnavailableError ∧
        AttemptStage.reconcile = .review) := by
      decide
    have longest : (defaultBackoff.longest 2).le defaultBackoff.bound = true :=
      BackoffSettings.longest_le_bound
    have fits : Representable 1 (defaultBackoff.longest 2) :=
      representable_minutes.shorter BackoffSettings.longest_nonneg
        (PyFloat.le_trans longest defaultBackoff_bound)
    apply scheduleFits_of_delay other
    exact ⟨by decide, fits⟩
  · apply scheduled.2.mpr
    intro seen isPrefix
    have listed : seen ∈ [true, false, false].inits := (List.mem_inits _ _).mpr isPrefix
    have short : ∀ seen ∈ [true, false, false].inits,
        seen.foldl nextReconnect 0 ≤ Json.doubleExponent := by
      decide
    exact short seen listed

/-- After 1025 failed lookups the next failure is not scheduled. -/
theorem retry_unscheduled_from_1025 :
    ¬SchedulingSucceeds defaultSettings defaultBackoff ⟨1, 1, 1⟩
      { jobs := [recoveringJob 1025] } (lookupFailure none) := by
  intro succeeds
  obtain ⟨target, ran, _⟩ := succeeds.scheduled BackoffSettings.topDraw
  have found : ({ jobs := [recoveringJob 1025] } : Store).jobs[0]? =
      some (recoveringJob 1025) := rfl
  have late : Json.doubleExponent < 1025 := by
    decide
  simp only [scheduleRetryAt, lookupFailure, found, Store.countConsumedRetryAttempts,
    countConsumed_recoveringJob, delayAfter,
    BackoffSettings.exponentialBackoff_overflow late, parkAt] at ran
  cases ran

end PeReview
