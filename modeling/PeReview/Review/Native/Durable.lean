import PeReview.Jobs.SavedProgress
import PeReview.Review.Native.Complete

/-!
# The engine on the durable backend

The saves of the engine take its record forward, so the durable backend refuses none that it
can write, and the engine does on it what it does on the one in memory.
-/

namespace PeReview.Native

open PeReview.Data PeReview.Process PeReview.Scheduling

/-- `PostgresProgressBackend`, under a live lease. -/
def durableBackend : Backend :=
  fun old progress =>
    progress.isStorable &&
      match old with
      | none => true
      | some old => (old.admits progress).isOk

/-- The record that is being saved, if there is one, can be written. -/
def SavesStorable (state : EngineState) : Prop :=
  state.control.saves.all ReviewProgress.isStorable = true

instance (state : EngineState) : Decidable (SavesStorable state) :=
  inferInstanceAs (Decidable (_ = true))

section Backends

variable {review : NativeReview} {backend other : Backend} {event : EngineEvent}
  {state target : EngineState} {durable : Option ReviewProgress} {progress : ReviewProgress}

theorem durableBackend_iff :
    durableBackend durable progress = true ↔
      progress.isStorable = true ∧ ∀ old, durable = some old → old.Advances progress := by
  unfold durableBackend
  rw [Bool.and_eq_true]
  apply and_congr_right
  intro _
  cases durable with
  | none => simp
  | some old =>
      dsimp only
      constructor
      · intro admitted found same
        cases same
        apply ReviewProgress.admits_eq_ok_iff.mp
        cases result : old.admits progress with
        | error raised =>
            rw [result] at admitted
            cases admitted
        | ok value => rfl
      · intro advances
        rw [ReviewProgress.admits_eq_ok_iff.mpr (advances old rfl)]
        rfl

/-- The record of a phase is its saved one with more checkpoints. -/
theorem advances_record {Payload : Type} {phase : PhaseState Payload} :
    phase.saved.Advances phase.record where
  phase := Nat.le_refl _
  manifest := fun _ => rfl
  result := fun _ => rfl

/-- What the engine saves takes its record forward. -/
theorem advances_of_synced (synced : Synced review state)
    (saves : state.control.saves = some progress) {old : ReviewProgress}
    (known : state.durable = some old) : old.Advances progress := by
  unfold Synced at synced
  cases stands : state.control with
  | opening attempt opened =>
      rw [stands] at synced
      cases synced.1.symm.trans known
  | candidate phase =>
      rw [stands] at synced saves
      obtain ⟨_, rfl⟩ := saves_eq_some saves
      cases synced.saved.symm.trans known
      exact advances_record
  | freezing phase manifest =>
      rw [stands] at synced
      cases synced.1.saved.symm.trans known
      -- Whatever is frozen, it is later than a record of the candidate phase.
      have early : phase.saved.phase = .candidate := synced.1.stage
      constructor
      · rw [early]
        exact Nat.zero_le _
      · exact fun later => absurd early later
      · intro complete
        cases early.symm.trans complete
  | verification phase =>
      rw [stands] at synced saves
      obtain ⟨_, rfl⟩ := saves_eq_some saves
      cases synced.saved.symm.trans known
      exact advances_record
  | completing phase result =>
      rw [stands] at synced saves
      cases saves
      cases synced.1.saved.symm.trans known
      have stage : phase.saved.phase = .verification := synced.1.stage
      constructor
      · rw [stage]
        exact Nat.le_succ 1
      · exact fun _ => rfl
      · intro complete
        cases stage.symm.trans complete
  | idle | recovering | loading attempt | readingLegacy attempt | counting phase result
  | returned result | raised error =>
      rw [stands] at saves
      cases saves

/-- The durable backend takes what the engine saves, if it can write it. -/
theorem durableBackend_of_synced (synced : Synced review state)
    (saves : state.control.saves = some progress) :
    durableBackend state.durable progress = true ↔ progress.isStorable = true := by
  rw [durableBackend_iff]
  constructor
  · exact And.left
  · intro storable
    exact ⟨storable, fun old known => advances_of_synced synced saves known⟩

theorem commit_congr
    (agree : ∀ progress, state.control.saves = some progress →
      backend state.durable progress = other state.durable progress) :
    state.commit backend = state.commit other := by
  unfold EngineState.commit
  cases saves : state.control.saves with
  | none => rfl
  | some progress =>
      dsimp only
      rw [agree progress saves]

/-- Backends that agree on the record that is being saved let the engine do the same. -/
theorem engineStep_congr
    (agree : ∀ progress, state.control.saves = some progress →
      backend state.durable progress = other state.durable progress) :
    engineStep review backend event state = engineStep review other event state := by
  have commits := commit_congr agree
  have loses : ∀ committed, state.lose backend committed = state.lose other committed := by
    intro committed
    unfold EngineState.lose
    rw [commits]
  cases event with
  | review attempt | recover | loaded | legacy present usage | totals totals => rfl
  | crash committed =>
      unfold engineStep
      dsimp only
      rw [loses]
  | acknowledged =>
      unfold engineStep
      dsimp only
      rw [commits]
  | backendFailed error committed =>
      unfold engineStep
      dsimp only
      rw [loses]
  | phase reply committed =>
      have replies : ∀ control, state.replied backend reply committed control =
          state.replied other reply committed control := by
        intro control
        unfold EngineState.replied
        rw [commits, loses]
      unfold engineStep
      dsimp only
      split
      · rfl
      · rw [replies]

/-- From records that can be written the durable backend takes the engine where the one in
memory does. -/
theorem engineStep_durable (synced : Synced review state) (storable : SavesStorable state) :
    engineStep review durableBackend event state =
      engineStep review memoryBackend event state := by
  apply engineStep_congr
  intro progress saves
  unfold SavesStorable at storable
  rw [saves, Option.all_some] at storable
  rw [(durableBackend_of_synced synced saves).mpr storable]
  rfl

theorem run_durable {events : List EngineEvent} (synced : Synced review state)
    (storable : Along (engineStep review memoryBackend) (fun _ => SavesStorable) events state) :
    run (engineStep review durableBackend) events state =
      run (engineStep review memoryBackend) events state := by
  induction events generalizing state with
  | nil => rfl
  | cons event rest inductionHypothesis =>
      obtain ⟨first, others⟩ := storable
      unfold run
      rw [engineStep_durable synced first]
      cases stepped : engineStep review memoryBackend event state with
      | none => rfl
      | some middle =>
          rw [Option.bind_some, Option.bind_some]
          apply inductionHypothesis
          · exact synced_steps synced (.of_step stepped)
          · exact others middle stepped

/-- A record that takes the saved one forward is saved, if it can be written. -/
theorem flushProgress_iff {store : Store} {now : Time} {id : JobId} {worker : WorkerId}
    {job : Job} (found : store.jobs[id]? = some job) (live : job.live worker now = true)
    (known : store.loadProgress id progress.inputKey = durable) :
    (∃ saved, store.flushProgress now id worker progress = .ok (saved, ()) ∧
        saved.loadProgress id progress.inputKey = some progress) ↔
      durableBackend durable progress = true := by
  unfold Store.loadProgress at known
  rw [found, Option.bind_some] at known
  rw [durableBackend_iff, ← known]
  constructor
  · rintro ⟨saved, flushed, _⟩
    obtain ⟨other, same, _, advances, storable, _⟩ := Store.flushProgress_eq_ok.mp flushed
    cases found.symm.trans same
    refine ⟨storable, ?_⟩
    intro old present
    obtain ⟨row, isRow, rfl⟩ := Option.map_eq_some_iff.mp present
    exact advances row isRow
  · rintro ⟨storable, forward⟩
    have advances : ∀ old, Dict.get? job.progress progress.inputKey = some old →
        old.payload.Advances progress := by
      intro old present
      apply forward
      rw [present]
      rfl
    have flushed := Store.flushProgress_eq_ok.mpr ⟨job, found, live, advances, storable, rfl⟩
    refine ⟨_, flushed, ?_⟩
    rw [Store.loadProgress_flushProgress flushed, if_pos rfl]

/-- Accepted saves take the records forward; the saves of the engine under a live lease are
accepted if and only if they can be written; and from records that can be written the engine
does the same on the durable backend as on the one in memory. -/
theorem durable_saves_exact :
    (∀ (store final : Store) (id : JobId) (saves : List (Time × WorkerId × ReviewProgress))
        (key : String) (old : ReviewProgress),
      store.flushSaves id saves = .ok final → store.loadProgress id key = some old →
        ∃ new, final.loadProgress id key = some new ∧ old.Advances new) ∧
    (∀ (review : NativeReview) (state : EngineState) (progress : ReviewProgress)
        (store : Store) (now : Time) (id : JobId) (worker : WorkerId) (job : Job),
      EngineReached review durableBackend state → state.control.saves = some progress →
        store.jobs[id]? = some job → job.live worker now = true →
          store.loadProgress id progress.inputKey = state.durable →
            ((∃ saved, store.flushProgress now id worker progress = .ok (saved, ()) ∧
                saved.loadProgress id progress.inputKey = some progress) ↔
              progress.isStorable = true)) ∧
    ∀ (review : NativeReview) (events : List EngineEvent),
      Along (engineStep review memoryBackend) (fun _ => SavesStorable) events {} →
        run (engineStep review durableBackend) events {} =
          run (engineStep review memoryBackend) events {} := by
  refine ⟨?_, ?_, ?_⟩
  · intro store final id saves key old saved known
    exact Store.advances_of_flushSaves saved known
  · intro review state progress store now id worker job reached saves found live known
    obtain ⟨synced, _⟩ := reached.invariant True.intro (fun _ _ _ _ _ _ => True.intro)
    rw [flushProgress_iff found live known, durableBackend_of_synced synced saves]
  · intro review events storable
    exact run_durable True.intro storable

theorem durable_saves_exact_answered :
    (∃ state, run (engineStep sampleReview durableBackend)
        (.review sampleAttempt :: answeredReview) {} = some state) ∧
      Along (engineStep sampleReview memoryBackend) (fun _ => SavesStorable)
        (.review sampleAttempt :: answeredReview) {} := by
  have storable : Along (engineStep sampleReview memoryBackend) (fun _ => SavesStorable)
      (.review sampleAttempt :: answeredReview) {} := by
    decide +kernel
  refine ⟨?_, storable⟩
  rw [durable_saves_exact.2.2 sampleReview _ storable]
  have ran : (run (engineStep sampleReview memoryBackend)
      (.review sampleAttempt :: answeredReview) {}).isSome = true := by
    decide +kernel
  exact Option.isSome_iff_exists.mp ran

def answeredNull : List EngineEvent :=
  .review sampleAttempt :: openedReview ++
    [.phase .proceed false, .phase .proceed false, .phase .proceed false,
      .phase .proceed false, .phase .acknowledged false,
      .phase (.completed (.ok { content := "\x00" })) false, .phase .acknowledged false]

/-- The checkpoint of an answer with a null character is never saved. -/
theorem null_answer_not_saved :
    ∃ state progress, EngineReached sampleReview durableBackend state ∧
      state.control.saves = some progress ∧
      memoryBackend state.durable progress = true ∧
      ∀ (store : Store) (now : Time) (id : JobId) (worker : WorkerId)
        (saved : Store × Unit), store.flushProgress now id worker progress ≠ .ok saved := by
  have reached : ((run (engineStep sampleReview durableBackend) answeredNull {}).bind
      fun state => state.control.saves.map ReviewProgress.isStorable) = some false := by
    decide +kernel
  obtain ⟨state, ran, saves⟩ := Option.bind_eq_some_iff.mp reached
  obtain ⟨progress, isSaved, refused⟩ := Option.map_eq_some_iff.mp saves
  refine ⟨state, progress, ⟨{}, _, rfl, ran⟩, isSaved, rfl, ?_⟩
  intro store now id worker saved flushed
  obtain ⟨_, _, _, _, storable, _⟩ := Store.flushProgress_eq_ok.mp flushed
  rw [refused] at storable
  cases storable

end Backends

end PeReview.Native
