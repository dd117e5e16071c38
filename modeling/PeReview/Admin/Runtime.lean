import Mathlib.Data.List.Dedup
import Mathlib.Data.List.Sort
import Mathlib.Data.Rat.Defs
import PeReview.Data.Except
import PeReview.Data.Overlay
import PeReview.Retry

/-!
# The runtime configuration

The configuration part of `ControlStore` of `admin/store.py`: overrides of the
sections of `config.yaml`, stored in one row as a partial overlay, and the
generation by which the services see that they have changed.
-/

namespace PeReview

open PeReview.Data

/-- A JSON value inside a section.  Arrays and objects are kept as they are, by
their text. -/
inductive ConfigValue
  | null
  | bool (value : Bool)
  | int (value : Int)
  | float (value : Rat)
  | text (value : String)
  | compound (value : String)
  deriving DecidableEq, Repr

namespace ConfigValue

/-- Booleans and whole numbers as the numbers they are equal to. -/
def numeric : ConfigValue → ConfigValue
  | bool value => float (if value then 1 else 0)
  | int value => float value
  | other => other

/-- `bool(value)`. -/
def truthy : ConfigValue → Bool
  | null => false
  | bool value => value
  | int value => value ≠ 0
  | float value => value ≠ 0
  | text value => value ≠ ""
  | compound value => value ≠ "[]" && value ≠ "{}"

/-- `==`. -/
instance : BEq ConfigValue :=
  ⟨fun first second => first.numeric = second.numeric⟩

theorem beq_iff {first second : ConfigValue} :
    (first == second) = true ↔ first.numeric = second.numeric :=
  decide_eq_true_iff

instance : EquivBEq ConfigValue where
  rfl := beq_iff.mpr rfl
  symm equal := beq_iff.mpr (beq_iff.mp equal).symm
  trans first second := beq_iff.mpr ((beq_iff.mp first).trans (beq_iff.mp second))

end ConfigValue

/-- An item of the stored row: a section, a value, or a list of names. -/
inductive RuntimeEntry
  | object (values : Dict String ConfigValue)
  | value (value : ConfigValue)
  | names (values : List String)
  deriving DecidableEq, Repr

/-- `==`. -/
def RuntimeEntry.same : RuntimeEntry → RuntimeEntry → Bool
  | object first, object second => Dict.same first second
  | value first, value second => first == second
  | names first, names second => first = second
  | _, _ => false

/-- The fields of `Settings` the runtime configuration rests on. -/
structure BootstrapSettings where
  serviceEnabled : Bool := true
  sshHost : String
  sshPort : Int := 29418
  sshUser : String
  restUrl : String
  restAuthMode : String := "none"
  restUsername : Option String := none
  baseUrl : String
  model : String
  temperature : Rat := 0
  maxOutputTokens : Int
  policyVersion : String
  outputLanguage : String := "ko-KR"
  maxFindings : Int
  minConfidence : Rat
  maxCandidateChunks : Int
  maxLlmCallsPerJob : Int
  maxToolCallsPerJob : Int
  verifierBudgetFraction : Rat
  deriving DecidableEq, Repr

/-- A value that may be `None`. -/
def ConfigValue.optional : Option String → ConfigValue
  | none => null
  | some value => text value

/-- `_defaults_from_settings`. -/
def defaultsFromSettings (settings : BootstrapSettings) : Dict String RuntimeEntry :=
  [("service_enabled", .value (.bool settings.serviceEnabled)),
    ("gerrit",
      .object
        [("ssh_host", .text settings.sshHost), ("ssh_port", .int settings.sshPort),
          ("ssh_user", .text settings.sshUser), ("rest_url", .text settings.restUrl),
          ("rest_auth_mode", .text settings.restAuthMode),
          ("rest_username", .optional settings.restUsername)]),
    ("llm",
      .object
        [("base_url", .text settings.baseUrl), ("model", .text settings.model),
          ("temperature", .float settings.temperature),
          ("max_output_tokens", .int settings.maxOutputTokens)]),
    ("review",
      .object
        [("policy_version", .text settings.policyVersion),
          ("output_language", .text settings.outputLanguage),
          ("max_findings", .int settings.maxFindings),
          ("min_confidence", .float settings.minConfidence),
          ("max_candidate_chunks", .int settings.maxCandidateChunks),
          ("max_llm_calls_per_job", .int settings.maxLlmCallsPerJob),
          ("max_tool_calls_per_job", .int settings.maxToolCallsPerJob),
          ("verifier_budget_fraction", .float settings.verifierBudgetFraction)])]

/-- `_RESTART_REQUIRED_SECTIONS`. -/
def restartRequiredSections : List String :=
  ["gerrit", "llm", "review"]

/-- `key.startswith("_")`. -/
def isPrivateKey (key : String) : Bool :=
  key.toList.head? = some '_'

/-- The value of `_config_generation` in a stored row. -/
def configGeneration (stored : Dict String RuntimeEntry) : Nat :=
  match Dict.get? stored "_config_generation" with
  | some (.value (.int value)) => value.toNat
  | some (.value (.bool value)) => if value then 1 else 0
  | _ => 0

def sortedNames (names : List String) : List String :=
  names.dedup.insertionSort (· ≤ ·)

/-- `_mark_config_changed`. -/
def markConfigChanged (changedAt : String) (sections : List String)
    (stored : Dict String RuntimeEntry) : Dict String RuntimeEntry :=
  let stored :=
    Dict.set stored "_config_generation" (.value (.int (configGeneration stored + 1)))
  let stored := Dict.set stored "_config_changed_at" (.value (.text changedAt))
  Dict.set stored "_config_changed_sections" (.names (sortedNames sections))

def mergeEntry (merged : Dict String RuntimeEntry)
    (item : String × RuntimeEntry) : Dict String RuntimeEntry :=
  if isPrivateKey item.1 then merged
  else
    match item.2, Dict.get? merged item.1 with
    | .object values, some (.object base) =>
        Dict.set merged item.1 (.object (Dict.update base values))
    | entry, _ => Dict.set merged item.1 entry

/-- `_merge_runtime_defaults`. -/
def mergeRuntimeDefaults (defaults current : Dict String RuntimeEntry) :
    Dict String RuntimeEntry :=
  current.foldl mergeEntry defaults

/-- `stored.setdefault(_CONFIG_GENERATION_KEY, 0)`. -/
def withGeneration (stored : Dict String RuntimeEntry) : Dict String RuntimeEntry :=
  match Dict.get? stored "_config_generation" with
  | none => Dict.set stored "_config_generation" (.value (.int 0))
  | some _ => stored

/-- What has been written so far, and the sections that have changed. -/
structure RuntimeWrite where
  stored : Dict String RuntimeEntry
  changed : List String := []
  deriving DecidableEq, Repr

/-- The end of a write: count the change, and stamp the version of the storage. -/
def RuntimeWrite.finish (changedAt : String) (write : RuntimeWrite) :
    Dict String RuntimeEntry :=
  let stored :=
    if write.changed.isEmpty then write.stored
    else markConfigChanged changedAt write.changed write.stored
  Dict.set stored "_storage_version" (.value (.int 2))

/-- Note a section that the services must restart for. -/
def RuntimeWrite.touch (write : RuntimeWrite) (key : String) : List String :=
  if restartRequiredSections.contains key then write.changed.insert key
  else write.changed

def patchEntry (write : RuntimeWrite) (item : String × RuntimeEntry) : RuntimeWrite :=
  let previous := Dict.get? write.stored item.1
  match item.2, previous with
  | .object values, some (.object old) =>
      let merged := Dict.update old values
      if Dict.same merged old then write
      else
        { stored := Dict.set write.stored item.1 (.object merged)
          changed := write.touch item.1 }
  | entry, _ =>
      if (previous.getD (.value .null)).same entry then write
      else
        { stored := Dict.set write.stored item.1 entry
          changed := write.touch item.1 }

section Calls

variable (settings : BootstrapSettings)

def initialRuntime : Dict String RuntimeEntry :=
  [("service_enabled", .value (.bool settings.serviceEnabled)),
    ("_storage_version", .value (.int 2)), ("_config_generation", .value (.int 0))]

/-- `ControlStore.patch_runtime_config`, on the stored row if there is one. -/
def patchRuntimeConfig (changedAt : String) (updates : Dict String RuntimeEntry)
    (row : Option (Dict String RuntimeEntry)) : Dict String RuntimeEntry :=
  let stored := withGeneration (row.getD (initialRuntime settings))
  (updates.foldl patchEntry { stored }).finish changedAt

/-- `set(stored.get(_LEGACY_SECTIONS_KEY) or [])`.  The transactions write nothing
but lists of names there; what is true and cannot be iterated is a `TypeError`. -/
def legacySections (stored : Dict String RuntimeEntry) :
    Except PyError (List String) :=
  match Dict.get? stored "_legacy_sections" with
  | none => .ok []
  | some (.names names) => .ok names.dedup
  | some (.object values) => .ok (values.map Prod.fst)
  | some (.value value) =>
      if value.truthy then
        match value with
        | .text value => .ok (value.toList.map fun char => String.ofList [char]).dedup
        | _ => .error (.type "object is not iterable")
      else .ok []

def storeLegacy (legacy : List String) (stored : Dict String RuntimeEntry) :
    Dict String RuntimeEntry :=
  if legacy.isEmpty then Dict.erase stored "_legacy_sections"
  else Dict.set stored "_legacy_sections" (.names (sortedNames legacy))

/-- The values of a section that differ from its defaults. -/
def sectionOverride (base values : Dict String ConfigValue) :
    Dict String ConfigValue :=
  values.filter fun item => !(item.2 == (Dict.get? base item.1).getD .null)

/-- One section of `replace_runtime_sections`. -/
def replaceSection (write : RuntimeWrite)
    (item : String × Dict String ConfigValue) : Except PyError RuntimeWrite :=
  match Dict.get? (defaultsFromSettings settings) item.1 with
  | some (.object base) =>
      let override := sectionOverride base item.2
      let previous := Dict.get? write.stored item.1
      if override.isEmpty then
        if previous.isSome then
          .ok
            { stored := Dict.erase write.stored item.1
              changed := write.changed.insert item.1 }
        else .ok write
      else if previous.any fun entry => entry.same (.object override) then .ok write
      else
        .ok
          { stored := Dict.set write.stored item.1 (.object override)
            changed := write.changed.insert item.1 }
  | _ =>
      .error (.value ("unsupported runtime configuration section: " ++ item.1))

/-- `ControlStore.replace_runtime_sections`. -/
def replaceRuntimeSections (changedAt : String)
    (updates : Dict String (Dict String ConfigValue))
    (row : Option (Dict String RuntimeEntry)) :
    Except PyError (Dict String RuntimeEntry) := do
  let stored := withGeneration (row.getD (initialRuntime settings))
  let legacy ← legacySections stored
  let write ← updates.foldlM (replaceSection settings) { stored }
  let legacy := legacy.filter fun name => !(updates.map Prod.fst).contains name
  .ok (storeLegacy legacy (write.finish changedAt))

/-- One section of `reset_runtime_sections`. -/
def resetSection (write : RuntimeWrite) (name : String) : RuntimeWrite :=
  if (Dict.get? write.stored name).isSome then
    { stored := Dict.erase write.stored name
      changed := write.touch name }
  else write

/-- `ControlStore.reset_runtime_sections`, on a row that is there. -/
def resetRuntimeSections (changedAt : String) (sections : List String)
    (stored : Dict String RuntimeEntry) : Except PyError (Dict String RuntimeEntry) := do
  let stored := withGeneration stored
  let legacy ← legacySections stored
  let write := sections.foldl resetSection { stored }
  let legacy := legacy.filter fun name => !sections.contains name
  .ok (storeLegacy legacy (write.finish changedAt))

inductive RuntimeCall
  | patch (updates : Dict String RuntimeEntry)
  | replace (updates : Dict String (Dict String ConfigValue))
  | reset (sections : List String)
  deriving DecidableEq, Repr

/-- The row a transaction leaves; one that raises leaves it as it is. -/
def RuntimeCall.apply (changedAt : String) (call : RuntimeCall)
    (row : Option (Dict String RuntimeEntry)) : Option (Dict String RuntimeEntry) :=
  match call with
  | patch updates => some (patchRuntimeConfig settings changedAt updates row)
  | replace updates =>
      match replaceRuntimeSections settings changedAt updates row with
      | .error _ => row
      | .ok stored => some stored
  | reset sections =>
      match row with
      | none => none
      | some stored =>
          match resetRuntimeSections changedAt sections stored with
          | .error _ => row
          | .ok stored => some stored

/-- `ControlStore.runtime_config`. -/
def runtimeConfig (row : Option (Dict String RuntimeEntry)) :
    Dict String RuntimeEntry :=
  mergeRuntimeDefaults (defaultsFromSettings settings)
    (row.getD (initialRuntime settings))

/-- `ControlStore.current_config_generation`. -/
def currentConfigGeneration (row : Option (Dict String RuntimeEntry)) : Nat :=
  match row with
  | none => 0
  | some stored => configGeneration stored

end Calls

end PeReview
