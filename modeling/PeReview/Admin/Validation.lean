import PeReview.Admin.Runtime
import PeReview.Data.Double
import PeReview.Domain

/-!
# Checking a runtime configuration form

`_validated_gerrit_update`, `_validated_llm_update` and `_validated_review_update`
of `admin/web.py`: a form is laid over the values in effect, and the result is
checked as a whole.
-/

namespace PeReview

open PeReview.Data

/-- `HTTPException`. -/
structure HttpError where
  statusCode : Nat
  detail : String
  deriving DecidableEq, Repr

def HttpError.unprocessable (detail : String) : HttpError :=
  { statusCode := 422, detail }

/-- The answer to an exception that nothing handles. -/
def HttpError.internal : HttpError :=
  { statusCode := 500, detail := "Internal Server Error" }

section Numbers

/-- How `int` and `float` fail: a `TypeError` or `ValueError`, or an
`OverflowError`. -/
inductive NumberError
  | invalid
  | overflow
  deriving DecidableEq, Repr

/-- `int(value)`. -/
def pyInt : ConfigValue → Except NumberError Int
  | .bool value => .ok (if value then 1 else 0)
  | .int value => .ok value
  | .float value => .ok (value.num.tdiv value.den)
  | .text value => (intOfText value).elim (.error .invalid) .ok
  | .null | .compound _ => .error .invalid

/-- `float(value)`.  A `float` is a double, which the rounding keeps. -/
def pyFloat : ConfigValue → Except NumberError PyFloat
  | .bool value => .ok (toDouble (if value then 1 else 0))
  | .int value =>
      match toDouble value with
      | .infinite _ => .error .overflow
      | rounded => .ok rounded
  | .float value => .ok (toDouble value)
  | .text value => (doubleOfText value).elim (.error .invalid) .ok
  | .null | .compound _ => .error .invalid

def readOr {Value : Type} (detail : String) :
    Except NumberError Value → Except HttpError Value
  | .ok value => .ok value
  | .error .invalid => .error (.unprocessable detail)
  | .error .overflow => .error .internal

end Numbers

/-- `result.get(key)`. -/
def formValue (result : Dict String ConfigValue) (key : String) : ConfigValue :=
  (Dict.get? result key).getD .null

/-- `isinstance(value, str) and value.strip()`. -/
def isFilled : ConfigValue → Bool
  | .text value => pyStrip value ≠ ""
  | _ => false

/-- `value not in {...}`: an array or an object cannot be looked up in a set. -/
def requireOneOf (detail : String) (names : List String) :
    ConfigValue → Except HttpError Unit
  | .text value => Except.require (names.contains value) (.unprocessable detail)
  | .compound _ => .error .internal
  | _ => .error (.unprocessable detail)

/-- `{**current, **{key: item for key, item in value.items() if key in allowed}}`. -/
def mergeForm (allowed : List String) (form current : Dict String ConfigValue) :
    Dict String ConfigValue :=
  Dict.update current (form.filter fun item => allowed.contains item.1)

/-- `allowed` of `_validated_gerrit_update`. -/
def gerritKeys : List String :=
  ["ssh_host", "ssh_port", "ssh_user", "rest_url", "rest_auth_mode", "rest_username"]

/-- The end of `_validated_gerrit_update`. -/
def checkedUsername (result : Dict String ConfigValue) :
    Except HttpError (Dict String ConfigValue) :=
  if formValue result "rest_auth_mode" = .text "basic" then
    match formValue result "rest_username" with
    | .text username =>
        if pyStrip username = "" then
          .error (.unprocessable "Gerrit REST username is required for Basic auth")
        else .ok (Dict.set result "rest_username" (.text (pyStrip username)))
    | _ => .error (.unprocessable "Gerrit REST username is required for Basic auth")
  else if formValue result "rest_username" = .text "" then
    .ok (Dict.set result "rest_username" .null)
  else .ok result

/-- `_validated_gerrit_update`. -/
def validatedGerritUpdate (form current : Dict String ConfigValue) :
    Except HttpError (Dict String ConfigValue) := do
  let result := mergeForm gerritKeys form current
  Except.require (isFilled (formValue result "ssh_host"))
    (.unprocessable "Gerrit SSH host is required")
  let port ←
    readOr "Gerrit SSH port must be an integer" (pyInt (formValue result "ssh_port"))
  Except.require (1 ≤ port && port ≤ 65535)
    (.unprocessable "Gerrit SSH port is out of range")
  let result := Dict.set result "ssh_port" (.int port)
  requireOneOf "Unsupported Gerrit REST auth mode" ["none", "basic", "bearer"]
    (formValue result "rest_auth_mode")
  checkedUsername result

/-- `allowed` of `_validated_llm_update`. -/
def llmKeys : List String :=
  ["base_url", "model", "temperature", "max_output_tokens"]

/-- A number in a range, and so finite. -/
def requireNumber (value : PyFloat) (within : Rat → Bool) (detail : String) :
    Except HttpError Rat :=
  match value with
  | .finite value => if within value then .ok value else .error (.unprocessable detail)
  | .infinite _ | .nan => .error (.unprocessable detail)

/-- `_validated_llm_update`. -/
def validatedLlmUpdate (form current : Dict String ConfigValue) :
    Except HttpError (Dict String ConfigValue) := do
  let result := mergeForm llmKeys form current
  Except.require (isFilled (formValue result "base_url"))
    (.unprocessable "LLM base URL is required")
  Except.require (isFilled (formValue result "model"))
    (.unprocessable "LLM model is required")
  let temperature ←
    readOr "Invalid LLM numeric setting" (pyFloat (formValue result "temperature"))
  let maxTokens ←
    readOr "Invalid LLM numeric setting" (pyInt (formValue result "max_output_tokens"))
  let temperature ←
    requireNumber temperature (fun value => 0 ≤ value && value ≤ 2)
      "LLM temperature must be between 0 and 2"
  Except.require (256 ≤ maxTokens)
    (.unprocessable "LLM max output tokens must be at least 256")
  let result := Dict.set result "temperature" (.float temperature)
  .ok (Dict.set result "max_output_tokens" (.int maxTokens))

/-- `allowed` of `_validated_review_update`. -/
def reviewKeys : List String :=
  ["policy_version", "output_language", "max_findings", "min_confidence",
    "max_candidate_chunks", "max_llm_calls_per_job", "max_tool_calls_per_job",
    "verifier_budget_fraction"]

/-- `_validated_review_update`. -/
def validatedReviewUpdate (form current : Dict String ConfigValue) :
    Except HttpError (Dict String ConfigValue) := do
  let result := mergeForm reviewKeys form current
  Except.require (isFilled (formValue result "policy_version"))
    (.unprocessable "Review policy version is required")
  requireOneOf "Review output language must be ko-KR or en-US" ["ko-KR", "en-US"]
    (formValue result "output_language")
  let invalid := "Invalid review numeric setting"
  let maxFindings ← readOr invalid (pyInt (formValue result "max_findings"))
  let confidence ← readOr invalid (pyFloat (formValue result "min_confidence"))
  let maxCandidateChunks ←
    readOr invalid (pyInt (formValue result "max_candidate_chunks"))
  let maxLlmCalls ← readOr invalid (pyInt (formValue result "max_llm_calls_per_job"))
  let maxToolCalls ← readOr invalid (pyInt (formValue result "max_tool_calls_per_job"))
  let verifierFraction ←
    readOr invalid
      (pyFloat ((Dict.get? result "verifier_budget_fraction").getD (.float (1 / 3))))
  Except.require (0 ≤ maxFindings && maxFindings ≤ 50)
    (.unprocessable "max_findings must be between 0 and 50")
  let confidence ←
    requireNumber confidence (fun value => 0 ≤ value && value ≤ 1)
      "min_confidence must be between 0 and 1"
  Except.require (1 ≤ maxCandidateChunks && maxCandidateChunks ≤ 512)
    (.unprocessable "max_candidate_chunks must be between 1 and 512")
  Except.require (1 ≤ maxLlmCalls && maxLlmCalls ≤ 1000)
    (.unprocessable "max_llm_calls_per_job must be between 1 and 1000")
  Except.require (0 ≤ maxToolCalls && maxToolCalls ≤ 5000)
    (.unprocessable "max_tool_calls_per_job must be between 0 and 5000")
  let verifierFraction ←
    requireNumber verifierFraction (fun value => 0 < value && value < 1)
      "verifier_budget_fraction must be greater than 0 and less than 1"
  let result := Dict.set result "max_findings" (.int maxFindings)
  let result := Dict.set result "min_confidence" (.float confidence)
  let result := Dict.set result "max_candidate_chunks" (.int maxCandidateChunks)
  let result := Dict.set result "max_llm_calls_per_job" (.int maxLlmCalls)
  let result := Dict.set result "max_tool_calls_per_job" (.int maxToolCalls)
  let result := Dict.set result "verifier_budget_fraction" (.float verifierFraction)
  .ok (Dict.erase result "max_input_tokens_per_job")

/-- The keys whose values are read by `int`. -/
def integerKeys : List String :=
  ["ssh_port", "max_output_tokens", "max_findings", "max_candidate_chunks",
    "max_llm_calls_per_job", "max_tool_calls_per_job"]

/-- The keys whose values are read by `float`. -/
def numberKeys : List String :=
  ["temperature", "min_confidence", "verifier_budget_fraction"]

/-- What the check of the REST user name makes of it, with Basic auth or without. -/
def normalizedUsername (basic : Bool) : ConfigValue → ConfigValue
  | .text username =>
      if basic then .text (pyStrip username)
      else if username = "" then .null
      else .text username
  | value => value

def normalized (basic : Bool) (key : String) (value : ConfigValue) : ConfigValue :=
  if key ∈ integerKeys then
    match pyInt value with
    | .ok number => .int number
    | .error _ => value
  else if key ∈ numberKeys then
    match pyFloat value with
    | .ok (.finite number) => .float number
    | _ => value
  else if key = "rest_username" then normalizedUsername basic value
  else value

/-- `result["rest_auth_mode"] == "basic"`. -/
def isBasic (result : Dict String ConfigValue) : Bool :=
  formValue result "rest_auth_mode" = .text "basic"

section Normal

variable {basic : Bool} {key : String} {value : ConfigValue}

theorem normalized_int {number : Int} (integer : key ∈ integerKeys)
    (read_ : pyInt value = .ok number) : normalized basic key value = .int number := by
  rw [normalized, if_pos integer, read_]

theorem normalized_float {number : Rat} (integer : key ∉ integerKeys)
    (real : key ∈ numberKeys) (read_ : pyFloat value = .ok (.finite number)) :
    normalized basic key value = .float number := by
  rw [normalized, if_neg integer, if_pos real, read_]

theorem normalized_unread (integer : key ∉ integerKeys) (real : key ∈ numberKeys)
    (unread : ∀ number, pyFloat value ≠ .ok (.finite number)) :
    normalized basic key value = value := by
  rw [normalized, if_neg integer, if_pos real]
  split
  · rename_i number read_
    exact absurd read_ (unread number)
  · rfl

theorem normalized_plain (integer : key ∉ integerKeys) (real : key ∉ numberKeys)
    (other : key ≠ "rest_username") : normalized basic key value = value := by
  rw [normalized, if_neg integer, if_neg real, if_neg other]

theorem readOr_eq_ok {Value : Type} {detail : String}
    {read_ : Except NumberError Value} {value : Value} :
    readOr detail read_ = .ok value ↔ read_ = .ok value := by
  cases read_ with
  | ok number =>
      simp [readOr]
  | error failure =>
      cases failure with
      | invalid =>
          simp [readOr]
      | overflow =>
          simp [readOr]

theorem requireNumber_eq_ok {number : PyFloat} {within : Rat → Bool}
    {detail : String} {value : Rat}
    (ran : requireNumber number within detail = .ok value) : number = .finite value := by
  cases number with
  | finite known =>
      have checked : (if within known then Except.ok known
          else .error (HttpError.unprocessable detail)) = .ok value := ran
      split at checked
      · cases checked
        rfl
      · cases checked
  | infinite | nan =>
      cases ran

end Normal

/-- A value is a number, or equal to nothing but itself. -/
theorem ConfigValue.numeric_cases {first second : ConfigValue}
    (same : first.numeric = second.numeric) :
    first = second ∨
      ∃ number, first.numeric = .float number ∧ second.numeric = .float number := by
  cases first with
  | bool | int | float =>
      exact .inr ⟨_, rfl, same.symm⟩
  | null | text | compound =>
      cases second with
      | bool | int | float =>
          cases same
      | null | text | compound =>
          exact .inl same

theorem pyInt_of_numeric {value : ConfigValue} {number : Rat}
    (numeric : value.numeric = .float number) :
    pyInt value = .ok (number.num.tdiv number.den) := by
  cases value with
  | bool value =>
      cases numeric
      cases value with
      | false =>
          rfl
      | true =>
          rfl
  | int value =>
      cases numeric
      simp [pyInt]
  | float value =>
      cases numeric
      rfl
  | null | text | compound =>
      cases numeric

theorem pyFloat_of_numeric {value : ConfigValue} {number : Rat}
    (numeric : value.numeric = .float number) :
    pyFloat value = .ok (toDouble number) ∨
      ∃ negative, toDouble number = .infinite negative ∧
        pyFloat value = .error .overflow := by
  cases value with
  | bool value | float value =>
      cases numeric
      exact .inl rfl
  | int value =>
      cases numeric
      unfold pyFloat
      cases rounded : toDouble (value : Rat) with
      | finite | nan => simp only [rounded, true_or]
      | infinite negative => exact .inr ⟨negative, rfl, by simp only [rounded]⟩
  | null | text | compound =>
      cases numeric

/-- A check makes numbers of numbers. -/
theorem normalized_of_numeric {value : ConfigValue} {number : Rat}
    (numeric : value.numeric = .float number) (basic : Bool) (key : String) :
    (normalized basic key value).numeric =
      (normalized basic key (.float number)).numeric := by
  by_cases integer : key ∈ integerKeys
  · rw [normalized_int integer (pyInt_of_numeric numeric),
      normalized_int integer (pyInt_of_numeric rfl)]
  · by_cases real : key ∈ numberKeys
    · have float : pyFloat (.float number) = .ok (toDouble number) := rfl
      cases rounded : toDouble number with
      | finite double =>
          have read_ : pyFloat value = .ok (.finite double) := by
            rcases pyFloat_of_numeric numeric with same | ⟨_, large, _⟩
            · rw [same, rounded]
            · rw [rounded] at large
              cases large
          rw [normalized_float integer real read_,
            normalized_float integer real (float.trans (congrArg _ rounded))]
      | infinite | nan =>
          have unread : ∀ number, pyFloat value ≠ .ok (.finite number) := by
            intro other read_
            rcases pyFloat_of_numeric numeric with same | ⟨_, _, failed⟩
            · rw [same, rounded] at read_
              cases read_
            · rw [failed] at read_
              cases read_
          rw [normalized_unread integer real unread,
            normalized_unread integer real fun other read_ => by
              rw [float, rounded] at read_
              cases read_]
          exact numeric
    · by_cases username : key = "rest_username"
      · rw [normalized, normalized, if_neg integer, if_neg real, if_pos username,
          if_neg integer, if_neg real, if_pos username]
        cases value with
        | bool | int | float =>
            exact numeric
        | null | text | compound =>
            cases numeric
      · rw [normalized_plain integer real username, normalized_plain integer real username]
        exact numeric

/-- Equal values are checked alike. -/
theorem normalized_congr {first second : ConfigValue} (same : (first == second) = true)
    (basic : Bool) (key : String) :
    (normalized basic key first == normalized basic key second) = true := by
  rcases ConfigValue.numeric_cases (ConfigValue.beq_iff.mp same) with
    rfl | ⟨number, left, right⟩
  · exact BEq.rfl
  · apply ConfigValue.beq_iff.mpr
    rw [normalized_of_numeric left, normalized_of_numeric right]

/-- The check of a section: what it leaves at its keys. -/
def Normalizes (keys : List String)
    (validated : Dict String ConfigValue → Dict String ConfigValue →
      Except HttpError (Dict String ConfigValue)) : Prop :=
  ∀ form current result, validated form current = .ok result →
    ∀ key ∈ keys, ∀ value, Dict.get? (mergeForm keys form current) key = some value →
      Dict.get? result key =
        some (normalized (isBasic (mergeForm keys form current)) key value)

/-- The check of a section gives each key once. -/
def KeepsDistinct
    (validated : Dict String ConfigValue → Dict String ConfigValue →
      Except HttpError (Dict String ConfigValue)) : Prop :=
  ∀ form current result, validated form current = .ok result →
    form.Distinct → current.Distinct → result.Distinct

theorem distinct_mergeForm {keys : List String} {form current : Dict String ConfigValue}
    (fields : form.Distinct) (known : current.Distinct) :
    (mergeForm keys form current).Distinct :=
  Dict.distinct_update known (Dict.distinct_filter fields _)

/-- A key of the form, or else the value in effect. -/
theorem get?_mergeForm {keys : List String} {form current : Dict String ConfigValue}
    {key : String} (allowed : key ∈ keys) :
    Dict.get? (mergeForm keys form current) key =
      (Dict.get? form key).or (Dict.get? current key) := by
  rw [mergeForm, Dict.get?_update, Dict.get?_filter_key fun key => keys.contains key,
    if_pos (List.contains_iff_mem.mpr allowed)]

theorem formValue_of_get? {result : Dict String ConfigValue} {key : String}
    {value : ConfigValue} (known : Dict.get? result key = some value) :
    formValue result key = value := by
  rw [formValue, known, Option.getD_some]

theorem checkedUsername_other {before result : Dict String ConfigValue} {key : String}
    (ran : checkedUsername before = .ok result) (other : key ≠ "rest_username") :
    Dict.get? result key = Dict.get? before key := by
  unfold checkedUsername at ran
  split at ran
  · split at ran
    · split at ran
      · cases ran
      · cases ran
        exact Dict.get?_set_of_ne _ _ (Ne.symm other)
    · cases ran
  · split at ran
    · cases ran
      exact Dict.get?_set_of_ne _ _ (Ne.symm other)
    · cases ran
      rfl

theorem checkedUsername_self {before result : Dict String ConfigValue}
    {value : ConfigValue} (ran : checkedUsername before = .ok result)
    (known : Dict.get? before "rest_username" = some value) :
    Dict.get? result "rest_username" =
      some (normalizedUsername (isBasic before) value) := by
  unfold checkedUsername at ran
  rw [formValue_of_get? known] at ran
  split at ran
  · rename_i mode
    have basic : isBasic before = true := by simp [isBasic, mode]
    split at ran
    · split at ran
      · cases ran
      · cases ran
        simp [basic, normalizedUsername]
    · cases ran
  · rename_i mode
    have plain : isBasic before = false := by simp [isBasic, mode]
    split at ran
    · rename_i empty
      cases ran
      simp [plain, empty, normalizedUsername]
    · rename_i filled
      cases ran
      rw [known, plain]
      cases value with
      | text username =>
          have some_ : username ≠ "" := by
            rintro rfl
            exact filled rfl
          simp [normalizedUsername, some_]
      | null | bool | int | float | compound =>
          rfl

theorem checkedUsername_distinct {before result : Dict String ConfigValue}
    (ran : checkedUsername before = .ok result) (distinct : before.Distinct) :
    result.Distinct := by
  unfold checkedUsername at ran
  split at ran
  · split at ran
    · split at ran
      · cases ran
      · cases ran
        exact Dict.distinct_set distinct
    · cases ran
  · split at ran
    · cases ran
      exact Dict.distinct_set distinct
    · cases ran
      exact distinct

theorem validatedGerritUpdate_distinct : KeepsDistinct validatedGerritUpdate := by
  intro form current result ran fields known
  unfold validatedGerritUpdate at ran
  obtain ⟨_, _, ran⟩ := Except.bind_eq_ok.mp ran
  obtain ⟨port, _, ran⟩ := Except.bind_eq_ok.mp ran
  obtain ⟨_, _, ran⟩ := Except.bind_eq_ok.mp ran
  obtain ⟨_, _, checked⟩ := Except.bind_eq_ok.mp ran
  apply checkedUsername_distinct checked
  exact Dict.distinct_set (distinct_mergeForm fields known)

theorem validatedLlmUpdate_distinct : KeepsDistinct validatedLlmUpdate := by
  intro form current result ran fields known
  unfold validatedLlmUpdate at ran
  obtain ⟨_, _, ran⟩ := Except.bind_eq_ok.mp ran
  obtain ⟨_, _, ran⟩ := Except.bind_eq_ok.mp ran
  obtain ⟨_, _, ran⟩ := Except.bind_eq_ok.mp ran
  obtain ⟨_, _, ran⟩ := Except.bind_eq_ok.mp ran
  obtain ⟨_, _, ran⟩ := Except.bind_eq_ok.mp ran
  obtain ⟨_, _, ran⟩ := Except.bind_eq_ok.mp ran
  cases ran
  exact Dict.distinct_set (Dict.distinct_set (distinct_mergeForm fields known))

theorem validatedReviewUpdate_distinct : KeepsDistinct validatedReviewUpdate := by
  intro form current result ran fields known
  unfold validatedReviewUpdate at ran
  iterate 14 obtain ⟨_, _, ran⟩ := Except.bind_eq_ok.mp ran
  cases ran
  apply Dict.distinct_erase
  iterate 6 apply Dict.distinct_set
  exact distinct_mergeForm fields known

theorem validatedGerritUpdate_normalizes :
    Normalizes gerritKeys validatedGerritUpdate := by
  intro form current result ran key member value known
  unfold validatedGerritUpdate at ran
  obtain ⟨_, _, ran⟩ := Except.bind_eq_ok.mp ran
  obtain ⟨port, portRead, ran⟩ := Except.bind_eq_ok.mp ran
  obtain ⟨_, _, ran⟩ := Except.bind_eq_ok.mp ran
  obtain ⟨_, _, checked⟩ := Except.bind_eq_ok.mp ran
  have mode : isBasic (Dict.set (mergeForm gerritKeys form current) "ssh_port" (.int port)) =
      isBasic (mergeForm gerritKeys form current) := by
    rw [isBasic, isBasic, formValue, formValue,
      Dict.get?_set_of_ne _ _ (by decide : "ssh_port" ≠ "rest_auth_mode")]
  by_cases username : key = "rest_username"
  · subst username
    have before : Dict.get?
        (Dict.set (mergeForm gerritKeys form current) "ssh_port" (.int port))
        "rest_username" = some value := by
      rw [Dict.get?_set_of_ne _ _ (by decide)]
      exact known
    rw [checkedUsername_self checked before, mode]
    rfl
  · rw [checkedUsername_other checked username]
    by_cases numeric : key = "ssh_port"
    · subst numeric
      rw [formValue_of_get? known] at portRead
      rw [Dict.get?_set_self, normalized_int (by decide) (readOr_eq_ok.mp portRead)]
    · rw [Dict.get?_set_of_ne _ _ (Ne.symm numeric), known, normalized_plain _ _ username]
      · simp only [gerritKeys, List.mem_cons, List.not_mem_nil, or_false] at member
        rcases member with rfl | rfl | rfl | rfl | rfl | rfl
        all_goals first | decide | exact absurd rfl numeric
      · simp only [gerritKeys, List.mem_cons, List.not_mem_nil, or_false] at member
        rcases member with rfl | rfl | rfl | rfl | rfl | rfl
        all_goals decide

theorem validatedLlmUpdate_normalizes : Normalizes llmKeys validatedLlmUpdate := by
  intro form current result ran key member value known
  unfold validatedLlmUpdate at ran
  obtain ⟨_, _, ran⟩ := Except.bind_eq_ok.mp ran
  obtain ⟨_, _, ran⟩ := Except.bind_eq_ok.mp ran
  obtain ⟨temperature, temperatureRead, ran⟩ := Except.bind_eq_ok.mp ran
  obtain ⟨maxTokens, maxTokensRead, ran⟩ := Except.bind_eq_ok.mp ran
  obtain ⟨number, inRange, ran⟩ := Except.bind_eq_ok.mp ran
  obtain ⟨_, _, ran⟩ := Except.bind_eq_ok.mp ran
  cases ran
  cases requireNumber_eq_ok inRange
  simp only [llmKeys, List.mem_cons, List.not_mem_nil, or_false] at member
  rcases member with rfl | rfl | rfl | rfl
  · rw [Dict.get?_set_of_ne _ _ (by decide), Dict.get?_set_of_ne _ _ (by decide), known,
      normalized_plain (by decide) (by decide) (by decide)]
  · rw [Dict.get?_set_of_ne _ _ (by decide), Dict.get?_set_of_ne _ _ (by decide), known,
      normalized_plain (by decide) (by decide) (by decide)]
  · rw [formValue_of_get? known] at temperatureRead
    rw [Dict.get?_set_of_ne _ _ (by decide), Dict.get?_set_self,
      normalized_float (by decide) (by decide) (readOr_eq_ok.mp temperatureRead)]
  · rw [formValue_of_get? known] at maxTokensRead
    rw [Dict.get?_set_self, normalized_int (by decide) (readOr_eq_ok.mp maxTokensRead)]

theorem validatedReviewUpdate_normalizes :
    Normalizes reviewKeys validatedReviewUpdate := by
  intro form current result ran key member value known
  unfold validatedReviewUpdate at ran
  obtain ⟨_, _, ran⟩ := Except.bind_eq_ok.mp ran
  obtain ⟨_, _, ran⟩ := Except.bind_eq_ok.mp ran
  obtain ⟨maxFindings, findingsRead, ran⟩ := Except.bind_eq_ok.mp ran
  obtain ⟨confidence, confidenceRead, ran⟩ := Except.bind_eq_ok.mp ran
  obtain ⟨maxChunks, chunksRead, ran⟩ := Except.bind_eq_ok.mp ran
  obtain ⟨maxLlmCalls, llmCallsRead, ran⟩ := Except.bind_eq_ok.mp ran
  obtain ⟨maxToolCalls, toolCallsRead, ran⟩ := Except.bind_eq_ok.mp ran
  obtain ⟨fraction, fractionRead, ran⟩ := Except.bind_eq_ok.mp ran
  obtain ⟨_, _, ran⟩ := Except.bind_eq_ok.mp ran
  obtain ⟨confidence, confidenceIn, ran⟩ := Except.bind_eq_ok.mp ran
  obtain ⟨_, _, ran⟩ := Except.bind_eq_ok.mp ran
  obtain ⟨_, _, ran⟩ := Except.bind_eq_ok.mp ran
  obtain ⟨_, _, ran⟩ := Except.bind_eq_ok.mp ran
  obtain ⟨fraction, fractionIn, ran⟩ := Except.bind_eq_ok.mp ran
  cases ran
  cases requireNumber_eq_ok confidenceIn
  cases requireNumber_eq_ok fractionIn
  have erased : key ≠ "max_input_tokens_per_job" := by
    rintro rfl
    revert member
    decide
  rw [Dict.get?_erase, if_neg erased]
  simp only [reviewKeys, List.mem_cons, List.not_mem_nil, or_false] at member
  rcases member with rfl | rfl | rfl | rfl | rfl | rfl | rfl | rfl
  · rw [normalized_plain (by decide) (by decide) (by decide)]
    simpa [Dict.get?_set] using known
  · rw [normalized_plain (by decide) (by decide) (by decide)]
    simpa [Dict.get?_set] using known
  · rw [formValue_of_get? known] at findingsRead
    rw [normalized_int (by decide) (readOr_eq_ok.mp findingsRead)]
    simp
  · rw [formValue_of_get? known] at confidenceRead
    rw [normalized_float (by decide) (by decide) (readOr_eq_ok.mp confidenceRead)]
    simp
  · rw [formValue_of_get? known] at chunksRead
    rw [normalized_int (by decide) (readOr_eq_ok.mp chunksRead)]
    simp
  · rw [formValue_of_get? known] at llmCallsRead
    rw [normalized_int (by decide) (readOr_eq_ok.mp llmCallsRead)]
    simp
  · rw [formValue_of_get? known] at toolCallsRead
    rw [normalized_int (by decide) (readOr_eq_ok.mp toolCallsRead)]
    simp
  · rw [known, Option.getD_some] at fractionRead
    rw [normalized_float (by decide) (by decide) (readOr_eq_ok.mp fractionRead)]
    simp

end PeReview
