import PeReview.Admin.Generation
import PeReview.Admin.Validation

/-!
# Two updates of the runtime configuration

`update_runtime` of `admin/web.py`.  A request reads the configuration, lays its
form over what it has read, and replaces the sections under the row lock.  The
lock does not cover the reading: what the other request has stored in between is
replaced by what was read before it.
-/

namespace PeReview

open PeReview.Data

inductive ManagedSection
  | gerrit
  | llm
  | review
  deriving DecidableEq, Repr

namespace ManagedSection

def name : ManagedSection → String
  | gerrit => "gerrit"
  | llm => "llm"
  | review => "review"

def keys : ManagedSection → List String
  | gerrit => gerritKeys
  | llm => llmKeys
  | review => reviewKeys

def validated : ManagedSection → Dict String ConfigValue → Dict String ConfigValue →
    Except HttpError (Dict String ConfigValue)
  | gerrit => validatedGerritUpdate
  | llm => validatedLlmUpdate
  | review => validatedReviewUpdate

theorem normalizes (section_ : ManagedSection) :
    Normalizes section_.keys section_.validated := by
  cases section_ with
  | gerrit =>
      exact validatedGerritUpdate_normalizes
  | llm =>
      exact validatedLlmUpdate_normalizes
  | review =>
      exact validatedReviewUpdate_normalizes

theorem keepsDistinct (section_ : ManagedSection) : KeepsDistinct section_.validated := by
  cases section_ with
  | gerrit =>
      exact validatedGerritUpdate_distinct
  | llm =>
      exact validatedLlmUpdate_distinct
  | review =>
      exact validatedReviewUpdate_distinct

/-- A value that the check of its key leaves as it is. -/
def Valid (section_ : ManagedSection) (key : String) (value : ConfigValue) : Prop :=
  key ∈ section_.keys ∧ ∀ basic, (normalized basic key value == value) = true

instance (section_ : ManagedSection) (key : String) (value : ConfigValue) :
    Decidable (section_.Valid key value) :=
  inferInstanceAs (Decidable (_ ∧ _))

end ManagedSection

/-- The body of `PUT /api/runtime-config`. -/
structure RuntimeConfigUpdate where
  gerrit : Dict String ConfigValue := []
  llm : Dict String ConfigValue := []
  review : Dict String ConfigValue := []
  deriving DecidableEq, Repr

def RuntimeConfigUpdate.form (payload : RuntimeConfigUpdate) :
    ManagedSection → Dict String ConfigValue
  | .gerrit => payload.gerrit
  | .llm => payload.llm
  | .review => payload.review

/-- One section of the updates: an empty form is left out, and values in effect
that are no object cannot be unpacked. -/
def sectionUpdate (section_ : ManagedSection) (form : Dict String ConfigValue)
    (current : Dict String RuntimeEntry) :
    Except HttpError (Dict String (Dict String ConfigValue)) :=
  if form.isEmpty then .ok []
  else
    match Dict.get? current section_.name with
    | some (.object values) =>
        (section_.validated form values).map fun result => [(section_.name, result)]
    | _ => .error .internal

/-- `updates` of `update_runtime`. -/
def runtimeUpdates (payload : RuntimeConfigUpdate) (current : Dict String RuntimeEntry) :
    Except HttpError (Dict String (Dict String ConfigValue)) := do
  let gerrit ← sectionUpdate .gerrit payload.gerrit current
  let llm ← sectionUpdate .llm payload.llm current
  let review ← sectionUpdate .review payload.review current
  .ok (gerrit ++ llm ++ review)

inductive Requester
  | first
  | second
  deriving DecidableEq, Repr

def Requester.other : Requester → Requester
  | first => second
  | second => first

/-- How far `update_runtime` is. -/
inductive RequestStage
  | received
  /-- It has read the configuration. -/
  | current (config : Dict String RuntimeEntry)
  /-- It has laid the form over what it read. -/
  | merged (updates : Dict String (Dict String ConfigValue))
  /-- It has the row lock, and has read the row. -/
  | locked (updates : Dict String (Dict String ConfigValue))
      (row : Option (Dict String RuntimeEntry))
  | succeeded
  | failed (raised : HttpError)
  deriving DecidableEq, Repr

def RequestStage.holdsLock : RequestStage → Bool
  | locked _ _ => true
  | _ => false

structure RuntimeRequests where
  row : Option (Dict String RuntimeEntry)
  stages : Requester → RequestStage

namespace RuntimeRequests

def start (row : Option (Dict String RuntimeEntry)) : RuntimeRequests where
  row := row
  stages _ := .received

def move (state : RuntimeRequests) (requester : Requester) (stage : RequestStage) :
    RuntimeRequests :=
  { state with stages := Function.update state.stages requester stage }

section Steps

variable (settings : BootstrapSettings) (payloads : Requester → RuntimeConfigUpdate)
  (changedAt : Requester → String)

/-- The next step of a request, unless it is over or waits for the lock. -/
def step (state : RuntimeRequests) (requester : Requester) : Option RuntimeRequests :=
  match state.stages requester with
  | .received => some (state.move requester (.current (runtimeConfig settings state.row)))
  | .current config =>
      match runtimeUpdates (payloads requester) config with
      | .error raised => some (state.move requester (.failed raised))
      | .ok [] => some (state.move requester .succeeded)
      | .ok updates => some (state.move requester (.merged updates))
  | .merged updates =>
      if (state.stages requester.other).holdsLock then none
      else some (state.move requester (.locked updates state.row))
  | .locked updates row =>
      match replaceRuntimeSections settings (changedAt requester) updates row with
      | .error _ => some (state.move requester (.failed .internal))
      | .ok stored => some { state.move requester .succeeded with row := some stored }
  | .succeeded | .failed _ => none

def run (schedule : List Requester) (state : RuntimeRequests) : Option RuntimeRequests :=
  schedule.foldlM (step settings payloads changedAt) state

end Steps

end RuntimeRequests

def sectionValues (settings : BootstrapSettings) (row : Option (Dict String RuntimeEntry))
    (section_ : ManagedSection) : Dict String ConfigValue :=
  match Dict.get? (runtimeConfig settings row) section_.name with
  | some (.object values) => values
  | _ => []

/-- A stored object has each key once. -/
def RuntimeEntry.Proper : RuntimeEntry → Prop
  | object values => values.Distinct
  | _ => True

instance (entry : RuntimeEntry) : Decidable entry.Proper :=
  match entry with
  | .object values => inferInstanceAs (Decidable values.Distinct)
  | .value _ => isTrue trivial
  | .names _ => isTrue trivial

/-- The stored row and its objects have each key once. -/
def ProperRow (stored : Dict String RuntimeEntry) : Prop :=
  stored.Distinct ∧ ∀ item ∈ stored, item.2.Proper

instance (stored : Dict String RuntimeEntry) : Decidable (ProperRow stored) :=
  inferInstanceAs (Decidable (_ ∧ _))

namespace ProperRow

variable {stored : Dict String RuntimeEntry} {key : String}

theorem set {entry : RuntimeEntry} (proper : ProperRow stored) (value : entry.Proper) :
    ProperRow (Dict.set stored key entry) := by
  refine ⟨Dict.distinct_set proper.1, ?_⟩
  intro item member
  rcases Dict.mem_set member with old | rfl
  · exact proper.2 item old
  · exact value

theorem erase (proper : ProperRow stored) : ProperRow (Dict.erase stored key) := by
  refine ⟨Dict.distinct_erase proper.1, ?_⟩
  intro item member
  exact proper.2 item (List.mem_of_mem_filter member)

theorem withGeneration (proper : ProperRow stored) :
    ProperRow (withGeneration stored) := by
  unfold PeReview.withGeneration
  split
  · exact proper.set (True.intro : RuntimeEntry.Proper (.value _))
  · exact proper

theorem finish {write : RuntimeWrite} (proper : ProperRow write.stored)
    (changedAt : String) : ProperRow (write.finish changedAt) := by
  unfold RuntimeWrite.finish
  apply ProperRow.set
  · split
    · exact proper
    · apply ProperRow.set
      · apply ProperRow.set
        · apply ProperRow.set proper
          trivial
        · trivial
      · trivial
  · trivial

theorem storeLegacy (proper : ProperRow stored) (legacy : List String) :
    ProperRow (storeLegacy legacy stored) := by
  unfold PeReview.storeLegacy
  split
  · exact proper.erase
  · exact proper.set (True.intro : RuntimeEntry.Proper (.names _))

theorem replaceSection {settings : BootstrapSettings} {write target : RuntimeWrite}
    {item : String × Dict String ConfigValue} (proper : ProperRow write.stored)
    (values : item.2.Distinct) (ran : replaceSection settings write item = .ok target) :
    ProperRow target.stored := by
  unfold PeReview.replaceSection at ran
  split at ran
  · dsimp only at ran
    split at ran
    · split at ran
      · cases ran
        exact proper.erase
      · cases ran
        exact proper
    · split at ran
      · cases ran
        exact proper
      · cases ran
        exact proper.set (Dict.distinct_filter values _)
  · cases ran

theorem replaceRuntimeSections {settings : BootstrapSettings} {changedAt : String}
    {updates : Dict String (Dict String ConfigValue)}
    {row : Option (Dict String RuntimeEntry)} {target : Dict String RuntimeEntry}
    (proper : ProperRow (row.getD (initialRuntime settings)))
    (values : ∀ item ∈ updates, item.2.Distinct)
    (ran : replaceRuntimeSections settings changedAt updates row = .ok target) :
    ProperRow target := by
  simp only [PeReview.replaceRuntimeSections] at ran
  obtain ⟨legacy, _, ran⟩ := Except.bind_eq_ok.mp ran
  obtain ⟨write, folded, ran⟩ := Except.bind_eq_ok.mp ran
  cases ran
  have replaces : ∀ item ∈ updates, ∀ source next : RuntimeWrite,
      ProperRow source.stored →
        PeReview.replaceSection settings source item = .ok next →
          ProperRow next.stored := by
    intro item member source next before stepped
    exact before.replaceSection (values item member) stepped
  have written : ProperRow write.stored :=
    Except.foldlM_preserves replaces proper.withGeneration folded
  exact (written.finish changedAt).storeLegacy _

theorem entry {name : String} {found : RuntimeEntry} (proper : ProperRow stored)
    (known : Dict.get? stored name = some found) : found.Proper :=
  proper.2 (name, found) (Dict.mem_of_get? known)

end ProperRow

section Values

variable {settings : BootstrapSettings} {row : Option (Dict String RuntimeEntry)}
  {section_ : ManagedSection}

theorem ManagedSection.nodup_keys (section_ : ManagedSection) : section_.keys.Nodup := by
  cases section_ with
  | gerrit =>
      exact (by decide : gerritKeys.Nodup)
  | llm =>
      exact (by decide : llmKeys.Nodup)
  | review =>
      exact (by decide : reviewKeys.Nodup)

/-- The section has its keys by default. -/
theorem ManagedSection.defaults (settings : BootstrapSettings)
    (section_ : ManagedSection) :
    ∃ base, Dict.get? (defaultsFromSettings settings) section_.name =
        some (.object base) ∧ base.map Prod.fst = section_.keys := by
  cases section_ with
  | gerrit =>
      exact ⟨_, rfl, rfl⟩
  | llm =>
      exact ⟨_, rfl, rfl⟩
  | review =>
      exact ⟨_, rfl, rfl⟩

theorem sectionValues_of_get? {values : Dict String ConfigValue}
    (known : Dict.get? (runtimeConfig settings row) section_.name =
      some (.object values)) :
    sectionValues settings row section_ = values := by
  rw [sectionValues, known]

/-- The values in effect have each key once, and every key of the section. -/
theorem sectionValues_proper {values : Dict String ConfigValue}
    (proper : ProperRow (row.getD (initialRuntime settings)))
    (known : Dict.get? (runtimeConfig settings row) section_.name =
      some (.object values)) :
    values.Distinct ∧ ∀ key ∈ section_.keys, (Dict.get? values key).isSome = true := by
  obtain ⟨base, default, names⟩ := section_.defaults settings
  have distinct : base.Distinct := by
    rw [Dict.Distinct, names]
    exact section_.nodup_keys
  have complete : ∀ key ∈ section_.keys, (Dict.get? base key).isSome = true := by
    intro key member
    rw [Option.isSome_iff_ne_none, Ne, Dict.get?_eq_none, names]
    exact not_not_intro member
  have visible := RuntimeWrite.isPublic_of_default default
  rw [runtimeConfig, get?_mergeRuntimeDefaults proper.1 visible, default] at known
  split at known
  · cases known
    exact ⟨distinct, complete⟩
  · rename_i entry stored
    have own := proper.entry stored
    cases entry with
    | object overrides =>
        cases known
        refine ⟨Dict.distinct_update distinct own, ?_⟩
        intro key member
        rw [Dict.get?_update, Option.isSome_or, complete key member, Bool.or_true]
    | value | names =>
        cases known

variable {payload : RuntimeConfigUpdate}

/-- A payload for one section updates this section. -/
theorem runtimeUpdates_only
    (only : ∀ other, other ≠ section_ → payload.form other = [])
    (current : Dict String RuntimeEntry) :
    runtimeUpdates payload current =
      sectionUpdate section_ (payload.form section_) current := by
  have empty : ∀ other, other ≠ section_ →
      sectionUpdate other (payload.form other) current = .ok [] := by
    intro other different
    rw [only other different]
    rfl
  unfold runtimeUpdates
  cases section_ with
  | gerrit =>
      rw [show payload.llm = payload.form .llm from rfl, empty .llm (by decide),
        show payload.review = payload.form .review from rfl, empty .review (by decide)]
      show (sectionUpdate .gerrit payload.gerrit current >>= fun gerrit =>
        .ok (gerrit ++ [] ++ [])) = _
      simp only [List.append_nil]
      exact bind_pure _
  | llm =>
      rw [show payload.gerrit = payload.form .gerrit from rfl, empty .gerrit (by decide),
        show payload.review = payload.form .review from rfl, empty .review (by decide)]
      show (sectionUpdate .llm payload.llm current >>= fun llm =>
        .ok ([] ++ llm ++ [])) = _
      simp only [List.nil_append, List.append_nil]
      exact bind_pure _
  | review =>
      rw [show payload.gerrit = payload.form .gerrit from rfl, empty .gerrit (by decide),
        show payload.llm = payload.form .llm from rfl, empty .llm (by decide)]
      show (sectionUpdate .review payload.review current >>= fun review =>
        .ok ([] ++ [] ++ review)) = _
      simp only [List.nil_append]
      exact bind_pure _

/-- The updates of a form: none, or the checked values of its section. -/
theorem sectionUpdate_eq_ok {form : Dict String ConfigValue}
    {updates : Dict String (Dict String ConfigValue)}
    {current : Dict String RuntimeEntry}
    (ran : sectionUpdate section_ form current = .ok updates) :
    (form = [] ∧ updates = []) ∨
      form ≠ [] ∧ ∃ values result,
        Dict.get? current section_.name = some (.object values) ∧
          section_.validated form values = .ok result ∧
            updates = [(section_.name, result)] := by
  unfold sectionUpdate at ran
  split at ran
  · rename_i empty
    cases ran
    exact .inl ⟨List.isEmpty_iff.mp empty, rfl⟩
  · rename_i filled
    apply Or.inr
    refine ⟨mt List.isEmpty_iff.mpr filled, ?_⟩
    split at ran
    · rename_i values known
      cases checked : section_.validated form values with
      | error raised =>
          rw [checked] at ran
          cases ran
      | ok result =>
          rw [checked] at ran
          cases ran
          exact ⟨values, result, known, checked, rfl⟩
    · cases ran

/-- A form has replaced the section of a row, with the values in effect for another
row at its other keys. -/
def Replaced (settings : BootstrapSettings) (section_ : ManagedSection)
    (changedAt : String) (form : Dict String ConfigValue)
    (base row : Option (Dict String RuntimeEntry))
    (stored : Dict String RuntimeEntry) : Prop :=
  ∃ values result,
    Dict.get? (runtimeConfig settings base) section_.name = some (.object values) ∧
      section_.validated form values = .ok result ∧
        replaceRuntimeSections settings changedAt [(section_.name, result)] row =
          .ok stored

namespace Replaced

variable {changedAt : String} {form : Dict String ConfigValue}
  {base : Option (Dict String RuntimeEntry)} {stored : Dict String RuntimeEntry}

theorem proper (replaced : Replaced settings section_ changedAt form base row stored)
    (fields : form.Distinct) (read_ : ProperRow (base.getD (initialRuntime settings)))
    (before : ProperRow (row.getD (initialRuntime settings))) : ProperRow stored := by
  obtain ⟨values, result, known, checked, written⟩ := replaced
  apply ProperRow.replaceRuntimeSections before _ written
  intro item member
  cases List.mem_singleton.mp member
  exact section_.keepsDistinct _ _ _ checked fields (sectionValues_proper read_ known).1

/-- What is in effect afterwards at a key of the section. -/
theorem effective (replaced : Replaced settings section_ changedAt form base row stored)
    (fields : form.Distinct) (read_ : ProperRow (base.getD (initialRuntime settings)))
    (before : ProperRow (row.getD (initialRuntime settings))) {key : String}
    (allowed : key ∈ section_.keys) {value : ConfigValue}
    (laid : (Dict.get? form key).or
      (Dict.get? (sectionValues settings base section_) key) = some value) :
    (Dict.get? (sectionValues settings (some stored) section_) key ==
      some
        (normalized
          (isBasic (mergeForm section_.keys form (sectionValues settings base section_)))
          key value)) = true := by
  have after := replaced.proper fields read_ before
  obtain ⟨values, result, known, checked, written⟩ := replaced
  rw [sectionValues_of_get? known] at laid ⊢
  rw [← get?_mergeForm allowed] at laid
  have held := section_.normalizes _ _ _ checked key allowed value laid
  have distinct :=
    section_.keepsDistinct _ _ _ checked fields (sectionValues_proper read_ known).1
  obtain ⟨defaults, default, names⟩ := section_.defaults settings
  have whole : (Dict.get? defaults key).isSome = true := by
    rw [Option.isSome_iff_ne_none, Ne, Dict.get?_eq_none, names]
    exact not_not_intro allowed
  obtain ⟨effective, found, reads⟩ :=
    replaceRuntimeSections_readsBack after.1 (by simp [Dict.Distinct])
      (List.mem_singleton_self _) default distinct written
  have equal := reads key (by rw [held, whole]; rfl)
  rw [sectionValues_of_get? found]
  rwa [held] at equal

/-- A value of the form is effective. -/
theorem own (replaced : Replaced settings section_ changedAt form base row stored)
    (fields : form.Distinct) (read_ : ProperRow (base.getD (initialRuntime settings)))
    (before : ProperRow (row.getD (initialRuntime settings))) {key : String}
    {value : ConfigValue} (submitted : Dict.get? form key = some value)
    (valid : section_.Valid key value) :
    (Dict.get? (sectionValues settings (some stored) section_) key == some value) =
      true := by
  have reads :
      (Dict.get? form key).or
          (Dict.get? (sectionValues settings base section_) key) = some value := by
    rw [submitted]
    rfl
  have held := replaced.effective fields read_ before valid.1 reads
  apply BEq.trans held
  show (normalized _ key value == value) = true
  exact valid.2 _

end Replaced

/-- A value in effect, as the check of a form with other keys reads it. -/
def readAgain (settings : BootstrapSettings) (row : Option (Dict String RuntimeEntry))
    (section_ : ManagedSection) (form : Dict String ConfigValue) (key : String) :
    Option ConfigValue :=
  let values := sectionValues settings row section_
  (Dict.get? values key).map
    (normalized (isBasic (mergeForm section_.keys form values)) key)

/-- The other keys of the section are written as they were read. -/
theorem Replaced.carried {changedAt : String} {form : Dict String ConfigValue}
    {base : Option (Dict String RuntimeEntry)} {stored : Dict String RuntimeEntry}
    (replaced : Replaced settings section_ changedAt form base row stored)
    (fields : form.Distinct) (read_ : ProperRow (base.getD (initialRuntime settings)))
    (before : ProperRow (row.getD (initialRuntime settings))) {key : String}
    (allowed : key ∈ section_.keys) (absent : Dict.get? form key = none) :
    (Dict.get? (sectionValues settings (some stored) section_) key ==
      readAgain settings base section_ form key) = true := by
  obtain ⟨values, known⟩ : ∃ values,
      Dict.get? (runtimeConfig settings base) section_.name = some (.object values) := by
    obtain ⟨values, _, known, _, _⟩ := replaced
    exact ⟨values, known⟩
  obtain ⟨value, there⟩ :=
    Option.isSome_iff_exists.mp ((sectionValues_proper read_ known).2 key allowed)
  have current : Dict.get? (sectionValues settings base section_) key = some value := by
    rw [sectionValues_of_get? known]
    exact there
  have reads :
      (Dict.get? form key).or
          (Dict.get? (sectionValues settings base section_) key) = some value := by
    rw [absent, Option.none_or, current]
  have held := replaced.effective fields read_ before allowed reads
  rwa [readAgain, current]

/-- A valid value in effect is read again as it is. -/
theorem readAgain_of_valid {form : Dict String ConfigValue} {key : String}
    {value : ConfigValue} (valid : section_.Valid key value)
    (effective : (Dict.get? (sectionValues settings row section_) key == some value) =
      true) :
    (readAgain settings row section_ form key == some value) = true := by
  simp only [readAgain]
  cases found : Dict.get? (sectionValues settings row section_) key with
  | none =>
      rw [found] at effective
      cases effective
  | some old =>
      rw [found] at effective
      have equal : (old == value) = true := effective
      show (normalized _ key old == value) = true
      exact BEq.trans (normalized_congr equal _ key) (valid.2 _)

end Values

theorem Requester.other_other (requester : Requester) :
    requester.other.other = requester := by
  cases requester with
  | first =>
      rfl
  | second =>
      rfl

theorem Requester.other_ne (requester : Requester) : requester.other ≠ requester := by
  cases requester with
  | first =>
      decide
  | second =>
      decide

theorem Requester.eq_or_other (one requester : Requester) :
    one = requester ∨ one = requester.other := by
  cases one with
  | first =>
      cases requester with
      | first =>
          exact .inl rfl
      | second =>
          exact .inr rfl
  | second =>
      cases requester with
      | first =>
          exact .inr rfl
      | second =>
          exact .inl rfl

/-- A request reads before the other one has made its last step, and makes its own
last step after it. -/
def StaleRead (schedule : List Requester) (reader writer : Requester) : Prop :=
  ∃ before after, schedule = before ++ writer :: after ∧ writer ∉ after ∧
    reader ∈ before ∧ reader ∈ after

section Schedules

variable {schedule earlier later before after : List Requester}
  {writer reader : Requester}

/-- The last step of a request splits a schedule in one way. -/
theorem split_unique (same : earlier ++ writer :: later = before ++ writer :: after)
    (last : writer ∉ later) (also : writer ∉ after) : earlier = before := by
  rcases List.append_eq_append_iff.mp same with ⟨middle, shape, rest⟩ | ⟨middle, shape, rest⟩
  · cases middle with
    | nil =>
        rw [shape, List.append_nil]
    | cons step middle =>
        cases rest
        exact absurd (by simp) last
  · cases middle with
    | nil =>
        rw [shape, List.append_nil]
    | cons step middle =>
        cases rest
        exact absurd (by simp) also

/-- The other request has read before the last step of the writer. -/
theorem staleRead_iff (steps : schedule = earlier ++ writer :: later)
    (last : writer ∉ later) (again : reader ∈ later) :
    StaleRead schedule reader writer ↔ reader ∈ earlier := by
  constructor
  · intro stale
    obtain ⟨before, after, shape, also, reading, _⟩ := stale
    rw [split_unique (steps.symm.trans shape) last also]
    exact reading
  · intro reading
    exact ⟨earlier, later, steps, last, reading, again⟩

/-- Nobody steps after the last request to step. -/
theorem not_staleRead (steps : schedule = earlier ++ writer :: later)
    (last : writer ∉ later) (again : reader ∈ later) (different : reader ≠ writer) :
    ¬StaleRead schedule writer reader := by
  intro stale
  obtain ⟨before, after, shape, also, _, stepping⟩ := stale
  rw [steps] at shape
  rcases List.append_eq_append_iff.mp shape with ⟨middle, _, rest⟩ | ⟨middle, _, rest⟩
  · cases middle with
    | nil =>
        cases rest
        exact different rfl
    | cons step middle =>
        cases rest
        exact last (by simp [stepping])
  · cases middle with
    | nil =>
        cases rest
        exact different rfl
    | cons step middle =>
        cases rest
        exact also (by simp [again])

end Schedules

namespace RuntimeRequests

section Runs

variable (settings : BootstrapSettings) (section_ : ManagedSection)
  (payloads : Requester → RuntimeConfigUpdate) (changedAt : Requester → String)

/-- The stage of a request that has read the configuration of `base`, and has the
lock on `row`, if it is that far. -/
def Follows (base row : Option (Dict String RuntimeEntry)) (requester : Requester) :
    RequestStage → Prop
  | .received => True
  | .current config => config = runtimeConfig settings base
  | .merged updates =>
      updates ≠ [] ∧
        runtimeUpdates (payloads requester) (runtimeConfig settings base) = .ok updates
  | .locked updates held =>
      updates ≠ [] ∧
        runtimeUpdates (payloads requester) (runtimeConfig settings base) = .ok updates ∧
          held = row
  | .succeeded =>
      runtimeUpdates (payloads requester) (runtimeConfig settings base) = .ok []
  | .failed _ => True

/-- What a step does without writing the row. -/
inductive Silent (state : RuntimeRequests) (requester : Requester) : RequestStage → Prop
  | read (stage : state.stages requester = .received) :
      Silent state requester (.current (runtimeConfig settings state.row))
  | skip {config : Dict String RuntimeEntry}
      (stage : state.stages requester = .current config)
      (nothing : runtimeUpdates (payloads requester) config = .ok []) :
      Silent state requester .succeeded
  | merge {config : Dict String RuntimeEntry}
      {updates : Dict String (Dict String ConfigValue)}
      (stage : state.stages requester = .current config)
      (laid : runtimeUpdates (payloads requester) config = .ok updates)
      (some_ : updates ≠ []) : Silent state requester (.merged updates)
  | lock {updates : Dict String (Dict String ConfigValue)}
      (stage : state.stages requester = .merged updates)
      (free : (state.stages requester.other).holdsLock = false) :
      Silent state requester (.locked updates state.row)
  | fail (raised : HttpError) (stage : state.stages requester ≠ .received) :
      Silent state requester (.failed raised)

/-- A step is silent, or writes the row under the lock. -/
theorem step_cases {state next : RuntimeRequests} {requester : Requester}
    (stepped : step settings payloads changedAt state requester = some next) :
    (∃ stage, Silent settings payloads state requester stage ∧
        next = state.move requester stage) ∨
      ∃ updates row stored, state.stages requester = .locked updates row ∧
        replaceRuntimeSections settings (changedAt requester) updates row = .ok stored ∧
          next = { state.move requester .succeeded with row := some stored } := by
  unfold step at stepped
  split at stepped
  · rename_i stage
    cases stepped
    exact .inl ⟨_, .read stage, rfl⟩
  · rename_i config stage
    split at stepped
    · rename_i raised refused
      cases stepped
      exact .inl ⟨_, .fail raised (by rw [stage]; exact RequestStage.noConfusion), rfl⟩
    · rename_i nothing
      cases stepped
      exact .inl ⟨_, .skip stage nothing, rfl⟩
    · rename_i updates some_ laid
      cases stepped
      exact .inl ⟨_, .merge stage laid some_, rfl⟩
  · rename_i updates stage
    split at stepped
    · cases stepped
    · rename_i free
      cases stepped
      exact .inl ⟨_, .lock stage (by simpa using free), rfl⟩
  · rename_i updates row stage
    split at stepped
    · rename_i raised refused
      cases stepped
      exact .inl ⟨_, .fail .internal (by rw [stage]; exact RequestStage.noConfusion), rfl⟩
    · rename_i stored written
      cases stepped
      exact .inr ⟨updates, row, stored, stage, written, rfl⟩
  · cases stepped
  · cases stepped

inductive Phase (origin : Option (Dict String RuntimeEntry)) (taken : List Requester)
    (state : RuntimeRequests) : Prop
  | before (row : state.row = origin)
      (follows : ∀ requester,
        Follows settings payloads origin origin requester (state.stages requester))
      (exclusive : ∀ requester, (state.stages requester).holdsLock = true →
        (state.stages requester.other).holdsLock = false)
  | between (writer : Requester) {earlier later : List Requester}
      {stored : Dict String RuntimeEntry} (steps : taken = earlier ++ writer :: later)
      (last : writer ∉ later) (done : state.stages writer = .succeeded)
      (row : state.row = some stored)
      (filled : (payloads writer).form section_ ≠ [])
      (replaced : Replaced settings section_ (changedAt writer)
        ((payloads writer).form section_) origin origin stored)
      (base : Option (Dict String RuntimeEntry))
      (read_ : base = if writer.other ∈ earlier then origin else some stored)
      (follows : Follows settings payloads base (some stored) writer.other
        (state.stages writer.other))
  | after (writer : Requester) {earlier later : List Requester}
      {stored final : Dict String RuntimeEntry}
      (steps : taken = earlier ++ writer :: later) (last : writer ∉ later)
      (again : writer.other ∈ later)
      (done : ∀ requester, state.stages requester = .succeeded)
      (row : state.row = some final)
      (filled : ∀ requester, (payloads requester).form section_ ≠ [])
      (replaced : Replaced settings section_ (changedAt writer)
        ((payloads writer).form section_) origin origin stored)
      (base : Option (Dict String RuntimeEntry))
      (read_ : base = if writer.other ∈ earlier then origin else some stored)
      (overwritten : Replaced settings section_ (changedAt writer.other)
        ((payloads writer.other).form section_) base (some stored) final)

structure Progress (origin : Option (Dict String RuntimeEntry)) (taken : List Requester)
    (state : RuntimeRequests) : Prop where
  begun : ∀ requester, state.stages requester = .received ↔ requester ∉ taken
  phase : Phase settings section_ payloads changedAt origin taken state

variable {settings section_ payloads changedAt}
variable {origin base row : Option (Dict String RuntimeEntry)} {taken : List Requester}
  {state next : RuntimeRequests} {requester : Requester} {stage : RequestStage}

theorem move_self : (state.move requester stage).stages requester = stage :=
  Function.update_self ..

theorem move_other : (state.move requester stage).stages requester.other =
    state.stages requester.other :=
  Function.update_of_ne requester.other_ne ..

theorem Silent.not_received (silent : Silent settings payloads state requester stage) :
    stage ≠ .received := by
  cases silent with
  | read | skip | merge | lock | fail =>
      exact RequestStage.noConfusion

/-- A silent step follows what was read. -/
theorem Follows.silent
    (follows : Follows settings payloads base row requester (state.stages requester))
    (held : state.row = row)
    (fresh : state.stages requester = .received → base = row)
    (silent : Silent settings payloads state requester stage) :
    Follows settings payloads base row requester stage := by
  cases silent with
  | read received =>
      rw [Follows, held, fresh received]
  | skip current nothing =>
      rw [current] at follows
      cases follows
      exact nothing
  | merge current laid some_ =>
      rw [current] at follows
      cases follows
      exact ⟨some_, laid⟩
  | lock merged free =>
      rw [merged] at follows
      exact ⟨follows.1, follows.2, held⟩
  | fail raised received =>
      exact trivial

/-- The write of a request that follows what was read. -/
theorem Follows.write
    (only : ∀ other, other ≠ section_ → (payloads requester).form other = [])
    {updates : Dict String (Dict String ConfigValue)}
    {held : Option (Dict String RuntimeEntry)} {stored : Dict String RuntimeEntry}
    (follows : Follows settings payloads base row requester (.locked updates held))
    (written : replaceRuntimeSections settings (changedAt requester) updates held =
      .ok stored) :
    (payloads requester).form section_ ≠ [] ∧
      Replaced settings section_ (changedAt requester)
        ((payloads requester).form section_) base row stored := by
  obtain ⟨some_, laid, rfl⟩ := follows
  rw [runtimeUpdates_only only] at laid
  rcases sectionUpdate_eq_ok laid with ⟨_, nothing⟩ | ⟨filled, values, result, known, checked, rfl⟩
  · exact absurd nothing some_
  · exact ⟨filled, values, result, known, checked, written⟩

/-- A request that is not in the lock follows with any row. -/
theorem Follows.unlocked
    (follows : Follows settings payloads base row requester stage)
    (other : Option (Dict String RuntimeEntry)) (free : stage.holdsLock = false) :
    Follows settings payloads base other requester stage := by
  cases stage with
  | locked updates held =>
      cases free
  | received | current | merged | succeeded | failed =>
      exact follows

theorem begun_step (begun : ∀ requester, state.stages requester = .received ↔ requester ∉ taken)
    (own : next.stages requester ≠ .received)
    (other : next.stages requester.other = state.stages requester.other)
    (one : Requester) :
    next.stages one = .received ↔ one ∉ taken ++ [requester] := by
  rw [List.mem_append, List.mem_singleton, not_or]
  rcases one.eq_or_other requester with rfl | rfl
  · constructor
    · intro received
      exact absurd received own
    · intro absent
      exact absurd rfl absent.2
  · rw [other, begun]
    constructor
    · intro absent
      exact ⟨absent, requester.other_ne⟩
    · intro absent
      exact absent.1

/-- A silent step before anything is written. -/
theorem Phase.before_silent (row : state.row = origin)
    (follows : ∀ requester,
      Follows settings payloads origin origin requester (state.stages requester))
    (silent : Silent settings payloads state requester stage) :
    Phase settings section_ payloads changedAt origin (taken ++ [requester])
      (state.move requester stage) := by
  refine Phase.before (by exact row) ?_ ?_
  · intro one
    rcases one.eq_or_other requester with rfl | rfl
    · rw [move_self]
      exact (follows _).silent row (fun _ => rfl) silent
    · rw [move_other]
      exact follows _
  · -- A lock is only taken while the other request has none.
    have free : stage.holdsLock = true →
        (state.stages requester.other).holdsLock = false := by
      intro holds
      cases silent with
      | lock merged free =>
          exact free
      | read | skip | merge | fail =>
          cases holds
    intro one
    rcases one.eq_or_other requester with rfl | rfl
    · rw [move_self, move_other]
      exact free
    · rw [move_other, Requester.other_other, move_self]
      intro holds
      cases taking : stage.holdsLock with
      | false =>
          rfl
      | true =>
          have none_ := free taking
          rw [holds] at none_
          cases none_

/-- The first write. -/
theorem Phase.before_write
    (only : ∀ other, other ≠ section_ → (payloads requester).form other = [])
    (begun : ∀ requester, state.stages requester = .received ↔ requester ∉ taken)
    (follows : ∀ requester,
      Follows settings payloads origin origin requester (state.stages requester))
    (exclusive : ∀ requester, (state.stages requester).holdsLock = true →
      (state.stages requester.other).holdsLock = false)
    {updates : Dict String (Dict String ConfigValue)}
    {held : Option (Dict String RuntimeEntry)} {stored : Dict String RuntimeEntry}
    (locked : state.stages requester = .locked updates held)
    (written : replaceRuntimeSections settings (changedAt requester) updates held =
      .ok stored) :
    Phase settings section_ payloads changedAt origin (taken ++ [requester])
      { state.move requester .succeeded with row := some stored } := by
  have own := follows requester
  rw [locked] at own
  obtain ⟨filled, replaced⟩ := own.write only written
  have free := exclusive requester (by rw [locked]; rfl)
  have others := (follows requester.other).unlocked (some stored) free
  by_cases reading : requester.other ∈ taken
  · refine Phase.between requester rfl List.not_mem_nil move_self rfl filled replaced
      origin (if_pos reading).symm ?_
    rw [show _ = state.stages requester.other from move_other]
    exact others
  · refine Phase.between requester rfl List.not_mem_nil move_self rfl filled replaced
      (some stored) (if_neg reading).symm ?_
    rw [show _ = state.stages requester.other from move_other,
      (begun requester.other).mpr reading]
    exact trivial

/-- The step of another request than the last writer. -/
theorem after_writer (stage : RequestStage) {writer : Requester}
    {earlier later : List Requester} (steps : taken = earlier ++ writer :: later) (last : writer ∉ later)
    (done : state.stages writer = .succeeded) :
    taken ++ [writer.other] = earlier ++ writer :: (later ++ [writer.other]) ∧
      writer ∉ later ++ [writer.other] ∧
        (state.move writer.other stage).stages writer = .succeeded := by
  refine ⟨?_, ?_, ?_⟩
  · rw [steps, List.append_assoc, List.cons_append]
  · rw [List.mem_append, List.mem_singleton, not_or]
    exact ⟨last, writer.other_ne.symm⟩
  · have kept :
        (state.move writer.other stage).stages writer.other.other =
          state.stages writer.other.other :=
      move_other
    rw [Requester.other_other] at kept
    rw [kept]
    exact done

/-- One step of one request. -/
theorem Progress.step
    (only : ∀ requester other, other ≠ section_ → (payloads requester).form other = [])
    (progress : Progress settings section_ payloads changedAt origin taken state)
    (stepped : step settings payloads changedAt state requester = some next) :
    Progress settings section_ payloads changedAt origin (taken ++ [requester]) next := by
  have running : state.stages requester ≠ .succeeded := by
    intro over_
    rw [RuntimeRequests.step, over_] at stepped
    cases stepped
  rcases step_cases settings payloads changedAt stepped with
    ⟨stage, silent, rfl⟩ | ⟨updates, held, target, locked, written, rfl⟩
  · refine ⟨begun_step progress.begun ?_ move_other, ?_⟩
    · rw [move_self]
      exact silent.not_received
    · cases progress.phase with
      | before row follows _ =>
          exact Phase.before_silent row follows silent
      | after writer steps last again done =>
          exact absurd (done requester) running
      | @between writer earlier later stored steps last done row filled replaced base
          read_ follows =>
          rcases requester.eq_or_other writer with rfl | rfl
          · exact absurd done running
          · obtain ⟨extended, unlast, still⟩ := after_writer stage steps last done
            refine Phase.between writer extended unlast still row filled replaced base
              read_ ?_
            rw [move_self]
            apply follows.silent row _ silent
            intro received
            have absent := (progress.begun _).mp received
            rw [read_, if_neg]
            intro reading
            apply absent
            rw [steps]
            exact List.mem_append_left _ reading
  · refine ⟨begun_step progress.begun ?_ move_other, ?_⟩
    · rw [show _ = RequestStage.succeeded from move_self]
      exact RequestStage.noConfusion
    · cases progress.phase with
      | before row follows exclusive =>
          exact Phase.before_write (only requester) progress.begun follows exclusive
            locked written
      | after writer steps last again done =>
          exact absurd (done requester) running
      | @between writer earlier later stored steps last done row filled replaced base
          read_ follows =>
          rcases requester.eq_or_other writer with rfl | rfl
          · exact absurd done running
          · obtain ⟨extended, unlast, still⟩ :=
              after_writer .succeeded steps last done
            rw [locked] at follows
            obtain ⟨own, overwritten⟩ := follows.write (only _) written
            refine Phase.after writer extended unlast (by simp) ?_ rfl ?_ replaced base
              read_ overwritten
            · intro one
              rcases one.eq_or_other writer with rfl | rfl
              · exact still
              · exact move_self
            · intro one
              rcases one.eq_or_other writer with rfl | rfl
              · exact filled
              · exact own

/-- Any interleaving of the steps. -/
theorem Progress.run
    (only : ∀ requester other, other ≠ section_ → (payloads requester).form other = [])
    {schedule : List Requester}
    (progress : Progress settings section_ payloads changedAt origin taken state)
    (ran : RuntimeRequests.run settings payloads changedAt schedule state = some next) :
    Progress settings section_ payloads changedAt origin (taken ++ schedule) next := by
  induction schedule generalizing taken state with
  | nil =>
      cases ran
      rw [List.append_nil]
      exact progress
  | cons requester rest inductionHypothesis =>
      rw [RuntimeRequests.run, List.foldlM_cons] at ran
      obtain ⟨middle, stepped, remaining⟩ := Option.bind_eq_some_iff.mp ran
      have after := inductionHypothesis (progress.step only stepped) remaining
      rwa [List.append_assoc] at after

theorem Progress.start (row : Option (Dict String RuntimeEntry)) :
    Progress settings section_ payloads changedAt row [] (start row) where
  begun requester := ⟨fun _ => List.not_mem_nil, fun _ => rfl⟩
  phase := .before rfl (fun _ => trivial) fun _ holds => by cases holds

/-- A request that succeeds without a write has an empty form. -/
theorem Follows.empty
    (only : ∀ other, other ≠ section_ → (payloads requester).form other = [])
    (follows : Follows settings payloads base row requester .succeeded) :
    (payloads requester).form section_ = [] := by
  rw [Follows, runtimeUpdates_only only] at follows
  rcases sectionUpdate_eq_ok follows with ⟨empty, _⟩ | ⟨_, _, _, _, _, some_⟩
  · exact empty
  · cases some_

end Runs

end RuntimeRequests

/-- Every submitted value is effective. -/
def Kept (settings : BootstrapSettings) (section_ : ManagedSection)
    (payloads : Requester → RuntimeConfigUpdate)
    (row : Option (Dict String RuntimeEntry)) : Prop :=
  ∀ requester key value, Dict.get? ((payloads requester).form section_) key = some value →
    (Dict.get? (sectionValues settings row section_) key == some value) = true

/-- No request is overtaken by one that has read before it, unless what it submits
was in effect already. -/
def NotOverwritten (settings : BootstrapSettings) (section_ : ManagedSection)
    (payloads : Requester → RuntimeConfigUpdate)
    (row : Option (Dict String RuntimeEntry)) (schedule : List Requester) : Prop :=
  ∀ requester, StaleRead schedule requester.other requester →
    (payloads requester.other).form section_ ≠ [] →
      ∀ key value, Dict.get? ((payloads requester).form section_) key = some value →
        (readAgain settings row section_ ((payloads requester.other).form section_) key ==
          some value) = true

open RuntimeRequests in
/-- Two updates of disjoint keys of a section are both effective exactly when none of
them replaces the section by what it has read before the other one's write. -/
theorem runtime_updates_kept_iff {settings : BootstrapSettings}
    {row : Option (Dict String RuntimeEntry)}
    (proper : ProperRow (row.getD (initialRuntime settings)))
    {section_ : ManagedSection} {payloads : Requester → RuntimeConfigUpdate}
    (only : ∀ requester other, other ≠ section_ → (payloads requester).form other = [])
    (fields : ∀ requester, ((payloads requester).form section_).Distinct)
    (valid : ∀ requester key value,
      Dict.get? ((payloads requester).form section_) key = some value →
        section_.Valid key value)
    (disjoint : ∀ requester key,
      Dict.get? ((payloads requester).form section_) key ≠ none →
        Dict.get? ((payloads requester.other).form section_) key = none)
    {changedAt : Requester → String} {schedule : List Requester}
    {final : RuntimeRequests}
    (ran : run settings payloads changedAt schedule (start row) = some final)
    (succeeded : ∀ requester, final.stages requester = .succeeded) :
    Kept settings section_ payloads final.row ↔
      NotOverwritten settings section_ payloads row schedule := by
  have progress := (Progress.start row).run only ran
  rw [List.nil_append] at progress
  cases progress.phase with
  | before unchanged follows exclusive =>
      have empty : ∀ requester, (payloads requester).form section_ = [] := by
        intro requester
        have own := follows requester
        rw [succeeded] at own
        exact own.empty (only requester)
      constructor
      · intro _ requester _ _ key value submitted
        rw [empty] at submitted
        cases submitted
      · intro _ requester key value submitted
        rw [empty] at submitted
        cases submitted
  | between writer steps last done written filled replaced base read_ follows =>
      rw [succeeded] at follows
      have empty := follows.empty (only _)
      rw [written]
      constructor
      · intro _ requester _ some_ key value submitted
        rcases requester.eq_or_other writer with rfl | rfl
        · exact absurd empty some_
        · rw [empty] at submitted
          cases submitted
      · intro _ requester key value submitted
        rcases requester.eq_or_other writer with rfl | rfl
        · exact replaced.own (fields _) proper proper submitted
            (valid _ key value submitted)
        · rw [empty] at submitted
          cases submitted
  | @after writer earlier later stored target steps last again done written filled replaced
      base read_ overwritten =>
      have stored_ := replaced.proper (fields _) proper proper
      have baseProper : ProperRow (base.getD (initialRuntime settings)) := by
        rw [read_]
        split
        · exact proper
        · exact stored_
      have stale := staleRead_iff steps last again
      have unread := not_staleRead steps last again writer.other_ne
      -- What the first writer submitted is written again as the other one read it.
      have carried : ∀ key value,
          Dict.get? ((payloads writer).form section_) key = some value →
            (Dict.get? (sectionValues settings final.row section_) key ==
              readAgain settings base section_ ((payloads writer.other).form section_) key) =
                true := by
        intro key value submitted
        rw [written]
        apply overwritten.carried (fields _) baseProper stored_
        · exact (valid _ key value submitted).1
        · exact disjoint writer key (by rw [submitted]; exact Option.some_ne_none _)
      constructor
      · intro kept requester overtaken _ key value submitted
        rcases requester.eq_or_other writer with rfl | rfl
        · rw [read_, if_pos (stale.mp overtaken)] at carried
          exact BEq.trans (BEq.symm (carried key value submitted))
            (kept _ key value submitted)
        · rw [Requester.other_other] at overtaken
          exact absurd overtaken unread
      · intro fresh requester key value submitted
        rcases requester.eq_or_other writer with rfl | rfl
        · apply BEq.trans (carried key value submitted)
          by_cases reading : requester.other ∈ earlier
          · rw [read_, if_pos reading]
            exact fresh _ (stale.mpr reading) (filled _) key value submitted
          · rw [read_, if_neg reading]
            apply readAgain_of_valid (valid _ key value submitted)
            exact replaced.own (fields _) proper proper submitted
              (valid _ key value submitted)
        · rw [written]
          exact overwritten.own (fields _) baseProper stored_ submitted
            (valid _ key value submitted)

/-- One request sets the SSH host, the other one the SSH user. -/
def hostAndUser : Requester → RuntimeConfigUpdate
  | .first => { gerrit := [("ssh_host", .text "x")] }
  | .second => { gerrit := [("ssh_user", .text "y")] }

def hostAndUserAfter (schedule : List Requester) : RuntimeRequests :=
  (RuntimeRequests.run bootstrapExample hostAndUser (fun _ => "t") schedule
    (.start none)).getD (.start none)

def inTurn : List Requester :=
  [.first, .first, .first, .first, .second, .second, .second, .second]

/-- The second request reads before the first one writes. -/
def overlapping : List Requester :=
  [.first, .second, .first, .first, .first, .second, .second, .second]

theorem hostAndUserAfter_eq {schedule : List Requester}
    (possible : (RuntimeRequests.run bootstrapExample hostAndUser (fun _ => "t") schedule
      (.start none)).isSome = true) :
    RuntimeRequests.run bootstrapExample hostAndUser (fun _ => "t") schedule
      (.start none) = some (hostAndUserAfter schedule) := by
  obtain ⟨final, found⟩ := Option.isSome_iff_exists.mp possible
  rw [hostAndUserAfter, found, Option.getD_some]

theorem hostAndUser_valid (requester : Requester) (key : String) (value : ConfigValue)
    (submitted : Dict.get? ((hostAndUser requester).form .gerrit) key = some value) :
    ManagedSection.gerrit.Valid key value := by
  have member := Dict.mem_of_get? submitted
  cases requester with
  | first =>
      cases List.mem_singleton.mp member
      decide
  | second =>
      cases List.mem_singleton.mp member
      decide

/-- In turn each request reads what the other one has written. -/
theorem not_staleRead_inTurn (requester : Requester) :
    ¬StaleRead inTurn requester.other requester := by
  have steps : inTurn = [.first, .first, .first] ++ .first ::
      [.second, .second, .second, .second] := rfl
  cases requester with
  | first =>
      intro stale
      have read_ := (staleRead_iff steps (by decide) (by decide)).mp stale
      exact absurd read_ (by decide)
  | second => exact not_staleRead steps (by decide) (by decide) (by decide)

theorem runtime_updates_kept_in_turn :
    Kept bootstrapExample .gerrit hostAndUser (hostAndUserAfter inTurn).row := by
  have inOrder : NotOverwritten bootstrapExample .gerrit hostAndUser none inTurn :=
    fun requester stale => absurd stale (not_staleRead_inTurn requester)
  refine (runtime_updates_kept_iff (by decide) ?_ ?_ hostAndUser_valid ?_
    (hostAndUserAfter_eq (by decide +kernel)) ?_).mpr inOrder
  · intro requester other different
    cases requester with
    | first =>
        cases other with
        | gerrit =>
            exact absurd rfl different
        | llm | review =>
            rfl
    | second =>
        cases other with
        | gerrit =>
            exact absurd rfl different
        | llm | review =>
            rfl
  · intro requester
    cases requester with
    | first =>
        decide
    | second =>
        decide
  · intro requester key submitted
    cases requester with
    | first =>
        by_cases same : "ssh_host" = key
        · subst same
          decide
        · exact absurd (if_neg same) submitted
    | second =>
        by_cases same : "ssh_user" = key
        · subst same
          decide
        · exact absurd (if_neg same) submitted
  · intro requester
    cases requester with
    | first =>
        decide +kernel
    | second =>
        decide +kernel

theorem runtime_update_lost :
    (hostAndUserAfter overlapping).stages .first = .succeeded ∧
      (hostAndUserAfter overlapping).stages .second = .succeeded ∧
        Dict.get? ((hostAndUser .first).form .gerrit) "ssh_host" = some (.text "x") ∧
        Dict.get? (sectionValues bootstrapExample (hostAndUserAfter overlapping).row .gerrit)
          "ssh_host" = some (.text "h") := by
  decide +kernel

end PeReview
