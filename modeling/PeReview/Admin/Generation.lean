import PeReview.Admin.Runtime

/-!
# The configuration generation

Every transaction on the runtime configuration notes the sections whose stored
overrides it has changed, and counts the generation up when there are any.  A
section that is not noted keeps its overrides, and so its effective values.
-/

namespace PeReview

open PeReview.Data

section Merge

variable {defaults current : Dict String RuntimeEntry} {name : String}

/-- What an override makes of the default of its key. -/
def overlaid (base : Option RuntimeEntry) (entry : RuntimeEntry) : RuntimeEntry :=
  match entry, base with
  | .object values, some (.object base) => .object (Dict.update base values)
  | entry, _ => entry

theorem mergeEntry_of_public {item : String × RuntimeEntry}
    (known : isPrivateKey item.1 = false) :
    mergeEntry defaults item =
      Dict.set defaults item.1 (overlaid (Dict.get? defaults item.1) item.2) := by
  obtain ⟨key, entry⟩ := item
  unfold mergeEntry overlaid
  rw [known, if_neg Bool.false_ne_true]
  dsimp only
  cases entry with
  | object values =>
      cases Dict.get? defaults key with
      | none => rfl
      | some base => cases base <;> rfl
  | value value => rfl
  | names values => rfl

/-- The effective value of a public key. -/
theorem get?_mergeRuntimeDefaults (distinct : current.Distinct)
    (known : isPrivateKey name = false) :
    Dict.get? (mergeRuntimeDefaults defaults current) name =
      match Dict.get? current name with
      | none => Dict.get? defaults name
      | some entry => some (overlaid (Dict.get? defaults name) entry) := by
  induction current generalizing defaults with
  | nil =>
      rfl
  | cons item rest inductionHypothesis =>
      obtain ⟨key, entry⟩ := item
      obtain ⟨fresh, others⟩ := List.nodup_cons.mp distinct
      have folded := @inductionHypothesis (mergeEntry defaults (key, entry)) others
      show Dict.get? (mergeRuntimeDefaults (mergeEntry defaults (key, entry)) rest) name = _
      rw [folded, Dict.get?_cons]
      by_cases same : key = name
      · subst same
        have absent : Dict.get? rest key = none := Dict.get?_eq_none.mpr fresh
        rw [absent, if_pos rfl, mergeEntry_of_public known]
        simp
      · rw [if_neg same]
        have kept : Dict.get? (mergeEntry defaults (key, entry)) name =
            Dict.get? defaults name := by
          by_cases hidden : isPrivateKey key
          · simp [mergeEntry, hidden]
          · rw [mergeEntry_of_public (by simpa using hidden), Dict.get?_set, if_neg same]
        rw [kept]

end Merge

/-- A write that has noted what it changed of a stored row. -/
structure RuntimeWrite.Notes (source : Dict String RuntimeEntry)
    (write : RuntimeWrite) : Prop where
  distinct : write.stored.Distinct
  generation : Dict.get? write.stored "_config_generation" =
    Dict.get? source "_config_generation"
  kept : ∀ name ∈ restartRequiredSections, name ∉ write.changed →
    Dict.get? write.stored name = Dict.get? source name

namespace RuntimeWrite

variable {source : Dict String RuntimeEntry} {write : RuntimeWrite}

theorem Notes.start (distinct : source.Distinct) :
    Notes source { stored := source } where
  distinct := distinct
  generation := rfl
  kept _ _ _ := rfl

theorem mem_touch_of_mem {key name : String} (member : name ∈ write.changed) :
    name ∈ write.touch key := by
  unfold touch
  split
  · exact List.mem_insert_of_mem member
  · exact member

theorem mem_touch_self {key : String} (section_ : key ∈ restartRequiredSections) :
    key ∈ write.touch key := by
  rw [touch, if_pos (List.contains_iff_mem.mpr section_)]
  exact List.mem_insert_self

/-- Changing one key and noting it. -/
theorem Notes.change {stored : Dict String RuntimeEntry} {changed : List String}
    {key : String} (notes : Notes source write) (distinct : stored.Distinct)
    (hidden : key ≠ "_config_generation")
    (others : ∀ name, name ≠ key →
      Dict.get? stored name = Dict.get? write.stored name)
    (grown : ∀ name ∈ write.changed, name ∈ changed)
    (noted : key ∈ restartRequiredSections → key ∈ changed) :
    Notes source { stored, changed } where
  distinct := distinct
  generation := (others _ (Ne.symm hidden)).trans notes.generation
  kept name section_ unnoted := by
    by_cases same : name = key
    · subst same
      exact absurd (noted section_) unnoted
    · rw [others name same]
      exact notes.kept name section_ fun member => unnoted (grown name member)

theorem Notes.set {key : String} {entry : RuntimeEntry} (notes : Notes source write)
    (hidden : key ≠ "_config_generation") {changed : List String}
    (grown : ∀ name ∈ write.changed, name ∈ changed)
    (noted : key ∈ restartRequiredSections → key ∈ changed) :
    Notes source { stored := Dict.set write.stored key entry, changed } := by
  apply notes.change (Dict.distinct_set notes.distinct) hidden _ grown noted
  intro name different
  exact Dict.get?_set_of_ne _ _ (Ne.symm different)

theorem Notes.erase {key : String} (notes : Notes source write)
    (hidden : key ≠ "_config_generation") {changed : List String}
    (grown : ∀ name ∈ write.changed, name ∈ changed)
    (noted : key ∈ restartRequiredSections → key ∈ changed) :
    Notes source { stored := Dict.erase write.stored key, changed } := by
  apply notes.change (Dict.distinct_erase notes.distinct) hidden _ grown noted
  intro name different
  rw [Dict.get?_erase, if_neg different]

theorem Notes.patchEntry {item : String × RuntimeEntry} (notes : Notes source write)
    (hidden : item.1 ≠ "_config_generation") :
    Notes source (patchEntry write item) := by
  unfold PeReview.patchEntry
  dsimp only
  split
  · split
    · exact notes
    · exact notes.set hidden (fun _ => mem_touch_of_mem) mem_touch_self
  · split
    · exact notes
    · exact notes.set hidden (fun _ => mem_touch_of_mem) mem_touch_self

theorem Notes.resetSection {name : String} (notes : Notes source write)
    (hidden : name ≠ "_config_generation") :
    Notes source (resetSection write name) := by
  unfold PeReview.resetSection
  split
  · exact notes.erase hidden (fun _ => mem_touch_of_mem) mem_touch_self
  · exact notes

/-- The private keys are no sections. -/
theorem isPublic_of_default {settings : BootstrapSettings} {name : String}
    {base : Dict String ConfigValue}
    (known : Dict.get? (defaultsFromSettings settings) name = some (.object base)) :
    isPrivateKey name = false := by
  have member := Dict.mem_of_get? known
  simp only [defaultsFromSettings, List.mem_cons, List.not_mem_nil, Prod.mk.injEq,
    or_false] at member
  rcases member with ⟨rfl, _⟩ | ⟨rfl, _⟩ | ⟨rfl, _⟩ | ⟨rfl, _⟩
  · rfl
  · rfl
  · rfl
  · rfl

theorem Notes.replaceSection {settings : BootstrapSettings}
    {item : String × Dict String ConfigValue} {target : RuntimeWrite}
    (notes : Notes source write)
    (ran : replaceSection settings write item = .ok target) :
    Notes source target := by
  unfold PeReview.replaceSection at ran
  split at ran
  · rename_i base known
    have hidden : item.1 ≠ "_config_generation" := by
      intro same
      have visible := isPublic_of_default known
      rw [same] at visible
      revert visible
      decide
    have grown : ∀ name ∈ write.changed, name ∈ write.changed.insert item.1 :=
      fun _ => List.mem_insert_of_mem
    have noted : item.1 ∈ restartRequiredSections →
        item.1 ∈ write.changed.insert item.1 :=
      fun _ => List.mem_insert_self
    dsimp only at ran
    split at ran
    · split at ran
      · cases ran
        exact notes.erase hidden grown noted
      · cases ran
        exact notes
    · split at ran
      · cases ran
        exact notes
      · cases ran
        exact notes.set hidden grown noted
  · cases ran

end RuntimeWrite

structure Counted (source target : Dict String RuntimeEntry) : Prop where
  distinct : target.Distinct
  grown : configGeneration source ≤ configGeneration target
  counts : ∀ name ∈ restartRequiredSections,
    Dict.get? target name ≠ Dict.get? source name →
      configGeneration source < configGeneration target

namespace Counted

variable {source target : Dict String RuntimeEntry} {key : String}
  {entry : RuntimeEntry}

theorem refl (distinct : source.Distinct) : Counted source source where
  distinct := distinct
  grown := Nat.le_refl _
  counts _ _ different := absurd rfl different

/-- A private key other than the generation does not matter. -/
theorem congr {changed : Dict String RuntimeEntry} (counted : Counted source target)
    (distinct : changed.Distinct)
    (same : ∀ name, name = "_config_generation" ∨ name ∈ restartRequiredSections →
      Dict.get? changed name = Dict.get? target name) :
    Counted source changed := by
  have generation : configGeneration changed = configGeneration target := by
    unfold configGeneration
    rw [same _ (.inl rfl)]
  refine ⟨distinct, ?_, ?_⟩
  · rw [generation]
    exact counted.grown
  · intro name section_ different
    rw [generation]
    rw [same name (.inr section_)] at different
    exact counted.counts name section_ different

/-- What is counted is not under another private key. -/
theorem ne_private {name : String} (hidden : isPrivateKey key)
    (other : key ≠ "_config_generation")
    (relevant : name = "_config_generation" ∨ name ∈ restartRequiredSections) :
    name ≠ key := by
  rintro rfl
  rcases relevant with same | section_
  · exact other same
  · simp only [restartRequiredSections, List.mem_cons, List.not_mem_nil, or_false]
      at section_
    rcases section_ with rfl | rfl | rfl
    · exact absurd hidden (by decide)
    · exact absurd hidden (by decide)
    · exact absurd hidden (by decide)

theorem set (counted : Counted source target) (hidden : isPrivateKey key)
    (other : key ≠ "_config_generation") :
    Counted source (Dict.set target key entry) := by
  apply counted.congr (Dict.distinct_set counted.distinct)
  intro name relevant
  exact Dict.get?_set_of_ne _ _ (Ne.symm (ne_private hidden other relevant))

theorem erase (counted : Counted source target) (hidden : isPrivateKey key)
    (other : key ≠ "_config_generation") :
    Counted source (Dict.erase target key) := by
  apply counted.congr (Dict.distinct_erase counted.distinct)
  intro name relevant
  rw [Dict.get?_erase, if_neg (ne_private hidden other relevant)]

/-- Counting up pays for every section. -/
theorem advance (distinct : target.Distinct)
    (generation : configGeneration target = configGeneration source) :
    Counted source
      (Dict.set target "_config_generation"
        (.value (.int (configGeneration target + 1)))) := by
  have advanced : configGeneration (Dict.set target "_config_generation"
      (.value (.int (configGeneration target + 1)))) = configGeneration source + 1 := by
    unfold configGeneration
    rw [Dict.get?_set_self]
    show ((configGeneration target : Int) + 1).toNat = configGeneration source + 1
    rw [generation]
    omega
  refine ⟨Dict.distinct_set distinct, ?_, ?_⟩
  · rw [advanced]
    exact Nat.le_succ _
  · intro name _ _
    rw [advanced]
    exact Nat.lt_succ_self _

end Counted

/-- The end of a write counts what was noted. -/
theorem RuntimeWrite.Notes.finish {source : Dict String RuntimeEntry}
    {write : RuntimeWrite} (notes : Notes source write) (changedAt : String) :
    Counted source (write.finish changedAt) := by
  have generation : configGeneration write.stored = configGeneration source := by
    unfold configGeneration
    rw [notes.generation]
  apply Counted.set
  · split
    · rename_i unchanged
      have nothing : write.changed = [] := List.isEmpty_iff.mp unchanged
      refine ⟨notes.distinct, Nat.le_of_eq generation.symm, ?_⟩
      intro name section_ different
      exact absurd (notes.kept name section_ (by simp [nothing])) different
    · apply Counted.set _ (by decide) (by decide)
      apply Counted.set _ (by decide) (by decide)
      exact Counted.advance notes.distinct generation
  · decide
  · decide

theorem Counted.storeLegacy {source target : Dict String RuntimeEntry}
    (counted : Counted source target) (legacy : List String) :
    Counted source (storeLegacy legacy target) := by
  unfold PeReview.storeLegacy
  split
  · exact counted.erase (by decide) (by decide)
  · exact counted.set (by decide) (by decide)

/-- A default for the generation changes nothing. -/
theorem withGeneration_same {stored : Dict String RuntimeEntry}
    (distinct : stored.Distinct) :
    (withGeneration stored).Distinct ∧
      configGeneration (withGeneration stored) = configGeneration stored ∧
        ∀ name, name ≠ "_config_generation" →
          Dict.get? (withGeneration stored) name = Dict.get? stored name := by
  unfold withGeneration
  split
  · rename_i absent
    refine ⟨Dict.distinct_set distinct, ?_, ?_⟩
    · simp [configGeneration, absent]
    · intro name different
      exact Dict.get?_set_of_ne _ _ (Ne.symm different)
  · exact ⟨distinct, rfl, fun _ _ => rfl⟩

/-- What was counted from the row with its default is counted from the row. -/
theorem Counted.ofWithGeneration {stored target : Dict String RuntimeEntry}
    (distinct : stored.Distinct) (counted : Counted (withGeneration stored) target) :
    Counted stored target := by
  obtain ⟨_, generation, same⟩ := withGeneration_same distinct
  refine ⟨counted.distinct, ?_, ?_⟩
  · rw [← generation]
    exact counted.grown
  · intro name section_ different
    have other : name ≠ "_config_generation" := by
      rintro rfl
      revert section_
      decide
    rw [← same name other] at different
    rw [← generation]
    exact counted.counts name section_ different

/-- The transaction leaves the stored generation to the storage. -/
def RuntimeCall.Public : RuntimeCall → Prop
  | patch updates => "_config_generation" ∉ updates.map Prod.fst
  | replace _ => True
  | reset sections => "_config_generation" ∉ sections

section Calls

variable {settings : BootstrapSettings}

theorem RuntimeWrite.Notes.patch {source : Dict String RuntimeEntry}
    {updates : Dict String RuntimeEntry}
    (hidden : "_config_generation" ∉ updates.map Prod.fst) {write : RuntimeWrite}
    (notes : Notes source write) :
    Notes source (updates.foldl PeReview.patchEntry write) := by
  induction updates generalizing write with
  | nil =>
      exact notes
  | cons item rest inductionHypothesis =>
      simp only [List.map_cons, List.mem_cons, not_or] at hidden
      exact inductionHypothesis hidden.2 (notes.patchEntry (Ne.symm hidden.1))

theorem RuntimeWrite.Notes.reset {source : Dict String RuntimeEntry}
    {sections : List String} (hidden : "_config_generation" ∉ sections)
    {write : RuntimeWrite} (notes : Notes source write) :
    Notes source (sections.foldl PeReview.resetSection write) := by
  induction sections generalizing write with
  | nil =>
      exact notes
  | cons name rest inductionHypothesis =>
      simp only [List.mem_cons, not_or] at hidden
      exact inductionHypothesis hidden.2 (notes.resetSection (Ne.symm hidden.1))

/-- Every transaction counts what it changes. -/
theorem RuntimeCall.counted {call : RuntimeCall} (public_ : call.Public)
    {row : Option (Dict String RuntimeEntry)}
    (distinct : (row.getD (initialRuntime settings)).Distinct) (changedAt : String) :
    Counted (row.getD (initialRuntime settings))
      ((call.apply settings changedAt row).getD (initialRuntime settings)) := by
  have start := RuntimeWrite.Notes.start (withGeneration_same distinct).1
  cases call with
  | patch updates =>
      apply Counted.ofWithGeneration distinct
      exact (start.patch public_).finish changedAt
  | replace updates =>
      simp only [apply]
      split
      · exact .refl distinct
      · rename_i stored ran
        simp only [replaceRuntimeSections] at ran
        obtain ⟨legacy, _, ran⟩ := Except.bind_eq_ok.mp ran
        obtain ⟨write, folded, ran⟩ := Except.bind_eq_ok.mp ran
        cases ran
        have notes : RuntimeWrite.Notes _ write :=
          Except.foldlM_preserves
            (fun item _ source target before stepped => before.replaceSection stepped)
            start folded
        apply Counted.ofWithGeneration distinct
        exact (notes.finish changedAt).storeLegacy _
  | reset sections =>
      simp only [apply]
      cases row with
      | none =>
          exact .refl distinct
      | some stored =>
          dsimp only
          split
          · exact .refl distinct
          · rename_i target ran
            simp only [resetRuntimeSections] at ran
            obtain ⟨legacy, _, ran⟩ := Except.bind_eq_ok.mp ran
            cases ran
            apply Counted.ofWithGeneration distinct
            exact ((start.reset public_).finish changedAt).storeLegacy _

end Calls

section ReadBack

variable {settings : BootstrapSettings} {base values : Dict String ConfigValue}

/-- A section value with the keys of the defaults. -/
def IsFull (base values : Dict String ConfigValue) : Prop :=
  ∀ key, (Dict.get? values key).isSome = (Dict.get? base key).isSome

/-- The overrides of a section, laid over its defaults, read back as a value, at
the keys that both have or both lack. -/
def ReadsBack (base values : Dict String ConfigValue)
    (entry : Option RuntimeEntry) : Prop :=
  ∃ effective, (entry.elim (.object base) (overlaid (some (.object base)))) =
      .object effective ∧
    ∀ key, (Dict.get? values key).isSome = (Dict.get? base key).isSome →
      (Dict.get? effective key == Dict.get? values key) = true

/-- The values that differ from the defaults read back over them. -/
theorem readsBack_of_same {stored : Dict String ConfigValue}
    (distinct : values.Distinct)
    (equal : Dict.same stored (sectionOverride base values) = true) :
    ReadsBack base values (some (.object stored)) := by
  refine ⟨Dict.update base stored, rfl, ?_⟩
  intro key whole
  have found := Dict.same_apply equal key
  rw [sectionOverride, Dict.get?_filter distinct] at found
  rw [Dict.get?_update]
  cases given : Dict.get? values key with
  | none =>
      rw [given, Option.isSome_none] at whole
      have absent : Dict.get? base key = none := by
        simpa using whole.symm
      rw [given] at found
      cases kept : Dict.get? stored key with
      | none =>
          simp [absent]
      | some value =>
          rw [kept] at found
          cases found
  | some value =>
      rw [given, Option.isSome_some] at whole
      obtain ⟨default, defaults⟩ := Option.isSome_iff_exists.mp whole.symm
      rw [given] at found
      cases kept : Dict.get? stored key with
      | some old =>
          rw [kept] at found
          cases differs : !(value == default) with
          | true =>
              simpa [Option.filter, defaults, differs] using found
          | false =>
              simp [Option.filter, defaults, differs] at found
      | none =>
          rw [kept] at found
          cases differs : !(value == default) with
          | true =>
              simp [Option.filter, defaults, differs] at found
          | false =>
              rw [defaults, Option.none_or]
              have equals : (value == default) = true := by simpa using differs
              exact ConfigValue.beq_iff.mpr (ConfigValue.beq_iff.mp equals).symm

/-- A section without overrides reads back as its defaults. -/
theorem readsBack_of_empty (distinct : values.Distinct)
    (empty : sectionOverride base values = []) : ReadsBack base values none := by
  obtain ⟨effective, laid, reads⟩ :=
    readsBack_of_same distinct (by rw [empty]; rfl : Dict.same [] _ = true)
  cases laid
  refine ⟨base, rfl, ?_⟩
  intro key whole
  have found := reads key whole
  rwa [Dict.get?_update, Dict.get?_nil, Option.none_or] at found

/-- Replacing a section by a value reads the value back. -/
theorem replaceSection_readsBack {write target : RuntimeWrite} {name : String}
    (known : Dict.get? (defaultsFromSettings settings) name = some (.object base))
    (distinct : values.Distinct)
    (ran : replaceSection settings write (name, values) = .ok target) :
    ReadsBack base values (Dict.get? target.stored name) := by
  simp only [replaceSection, known] at ran
  split at ran
  · rename_i empty
    have cleared := readsBack_of_empty distinct (List.isEmpty_iff.mp empty)
    split at ran
    · cases ran
      rw [Dict.get?_erase, if_pos rfl]
      exact cleared
    · rename_i absent
      cases ran
      rw [Option.not_isSome_iff_eq_none.mp absent]
      exact cleared
  · split at ran
    · rename_i kept
      cases ran
      obtain ⟨entry, found, equal⟩ := (Option.any_eq_true _ _).mp kept
      rw [found]
      cases entry with
      | object stored =>
          exact readsBack_of_same distinct equal
      | value =>
          cases equal
      | names =>
          cases equal
    · cases ran
      rw [Dict.get?_set_self]
      apply readsBack_of_same distinct
      simp [Dict.same]

/-- The other sections keep their overrides. -/
theorem replaceSection_other {write target : RuntimeWrite} {name : String}
    {item : String × Dict String ConfigValue} (different : name ≠ item.1)
    (ran : replaceSection settings write item = .ok target) :
    Dict.get? target.stored name = Dict.get? write.stored name := by
  unfold replaceSection at ran
  split at ran
  · dsimp only at ran
    split at ran
    · split at ran
      · cases ran
        rw [Dict.get?_erase, if_neg different]
      · cases ran
        rfl
    · split at ran
      · cases ran
        rfl
      · cases ran
        exact Dict.get?_set_of_ne _ _ (Ne.symm different)
  · cases ran

theorem replaceSections_other {updates : Dict String (Dict String ConfigValue)}
    {write target : RuntimeWrite} {name : String}
    (absent : name ∉ updates.map Prod.fst)
    (folded : updates.foldlM (replaceSection settings) write = .ok target) :
    Dict.get? target.stored name = Dict.get? write.stored name := by
  induction updates generalizing write with
  | nil =>
      cases folded
      rfl
  | cons item rest inductionHypothesis =>
      obtain ⟨middle, stepped, remaining⟩ := Except.bind_eq_ok.mp folded
      simp only [List.map_cons, List.mem_cons, not_or] at absent
      rw [inductionHypothesis absent.2 remaining, replaceSection_other absent.1 stepped]

theorem replaceSections_readsBack {updates : Dict String (Dict String ConfigValue)}
    (sections : updates.Distinct) {write target : RuntimeWrite} {name : String}
    (member : (name, values) ∈ updates)
    (known : Dict.get? (defaultsFromSettings settings) name = some (.object base))
    (distinct : values.Distinct)
    (folded : updates.foldlM (replaceSection settings) write = .ok target) :
    ReadsBack base values (Dict.get? target.stored name) := by
  induction updates generalizing write with
  | nil =>
      cases member
  | cons item rest inductionHypothesis =>
      obtain ⟨middle, stepped, remaining⟩ := Except.bind_eq_ok.mp folded
      obtain ⟨fresh, others⟩ := List.nodup_cons.mp sections
      rcases List.mem_cons.mp member with rfl | later
      · rw [replaceSections_other fresh remaining]
        exact replaceSection_readsBack known distinct stepped
      · exact inductionHypothesis others later remaining

/-- The private keys are written last. -/
theorem get?_finish {write : RuntimeWrite} {name changedAt : String}
    (visible : isPrivateKey name = false) :
    Dict.get? (write.finish changedAt) name = Dict.get? write.stored name := by
  have ne : ∀ {key}, isPrivateKey key = true → key ≠ name := by
    rintro key hidden rfl
    rw [visible] at hidden
    cases hidden
  unfold RuntimeWrite.finish
  dsimp only
  rw [Dict.get?_set_of_ne _ _ (ne (by decide))]
  split
  · rfl
  · simp only [markConfigChanged]
    rw [Dict.get?_set_of_ne _ _ (ne (by decide)),
      Dict.get?_set_of_ne _ _ (ne (by decide)),
      Dict.get?_set_of_ne _ _ (ne (by decide))]

theorem get?_storeLegacy {stored : Dict String RuntimeEntry} {legacy : List String}
    {name : String} (visible : isPrivateKey name = false) :
    Dict.get? (storeLegacy legacy stored) name = Dict.get? stored name := by
  have ne : name ≠ "_legacy_sections" := by
    rintro rfl
    revert visible
    decide
  unfold storeLegacy
  split
  · rw [Dict.get?_erase, if_neg ne]
  · exact Dict.get?_set_of_ne _ _ (Ne.symm ne)

/-- A value of a section is effective after the replacement, at the keys that the
defaults have as well. -/
theorem replaceRuntimeSections_readsBack {changedAt name : String}
    {updates : Dict String (Dict String ConfigValue)}
    {row : Option (Dict String RuntimeEntry)} {target : Dict String RuntimeEntry}
    (rowDistinct : target.Distinct) (sections : updates.Distinct)
    (member : (name, values) ∈ updates)
    (known : Dict.get? (defaultsFromSettings settings) name = some (.object base))
    (distinct : values.Distinct)
    (ran : replaceRuntimeSections settings changedAt updates row = .ok target) :
    ∃ effective,
      Dict.get? (runtimeConfig settings (some target)) name =
          some (.object effective) ∧
        ∀ key, (Dict.get? values key).isSome = (Dict.get? base key).isSome →
          (Dict.get? effective key == Dict.get? values key) = true := by
  have visible := RuntimeWrite.isPublic_of_default known
  have reads : ReadsBack base values (Dict.get? target name) := by
    simp only [replaceRuntimeSections] at ran
    obtain ⟨legacy, _, ran⟩ := Except.bind_eq_ok.mp ran
    obtain ⟨write, folded, ran⟩ := Except.bind_eq_ok.mp ran
    cases ran
    rw [get?_storeLegacy visible, get?_finish visible]
    exact replaceSections_readsBack sections member known distinct folded
  obtain ⟨effective, laid, found⟩ := reads
  refine ⟨effective, ?_, found⟩
  rw [runtimeConfig, Option.getD_some, get?_mergeRuntimeDefaults rowDistinct visible,
    known]
  cases stored : Dict.get? target name with
  | none =>
      rw [stored] at laid
      exact congrArg some laid
  | some entry =>
      rw [stored] at laid
      exact congrArg some laid

end ReadBack

section Runs

variable (settings : BootstrapSettings)

def runtimeAfter (row : Option (Dict String RuntimeEntry))
    (calls : List (String × RuntimeCall)) : Option (Dict String RuntimeEntry) :=
  calls.foldl (fun row call => call.2.apply settings call.1 row) row

theorem currentConfigGeneration_eq (row : Option (Dict String RuntimeEntry)) :
    currentConfigGeneration row =
      configGeneration (row.getD (initialRuntime settings)) := by
  cases row with
  | none =>
      rfl
  | some stored =>
      rfl

variable {settings}

/-- A run of transactions counts what it changes. -/
theorem Counted.run {calls : List (String × RuntimeCall)}
    (visible : ∀ call ∈ calls, call.2.Public)
    {row : Option (Dict String RuntimeEntry)}
    (distinct : (row.getD (initialRuntime settings)).Distinct) :
    ((runtimeAfter settings row calls).getD (initialRuntime settings)).Distinct ∧
      currentConfigGeneration row ≤
        currentConfigGeneration (runtimeAfter settings row calls) := by
  induction calls generalizing row with
  | nil =>
      exact ⟨distinct, Nat.le_refl _⟩
  | cons call rest inductionHypothesis =>
      have counted :=
        RuntimeCall.counted (visible call List.mem_cons_self) distinct call.1
      obtain ⟨kept, grown⟩ :=
        inductionHypothesis (fun later member => visible later (List.mem_cons_of_mem _ member))
          counted.distinct
      refine ⟨kept, Nat.le_trans ?_ grown⟩
      rw [currentConfigGeneration_eq settings row, currentConfigGeneration_eq settings]
      exact counted.grown

end Runs

/-- No change of a section is missed.  As long as no transaction writes the stored
generation itself, the generation never decreases, it increases with every
transaction that changes an effective section, and a full value that replaces a
section is read back. -/
theorem config_generation_counts_changes {settings : BootstrapSettings}
    {row : Option (Dict String RuntimeEntry)} {calls : List (String × RuntimeCall)}
    (distinct : (row.getD (initialRuntime settings)).Distinct)
    (visible : ∀ call ∈ calls, call.2.Public) :
    currentConfigGeneration row ≤
        currentConfigGeneration (runtimeAfter settings row calls) ∧
      ∀ (changedAt : String) (call : RuntimeCall), call.Public →
        let reached := runtimeAfter settings row calls
        let next := call.apply settings changedAt reached
        currentConfigGeneration reached ≤ currentConfigGeneration next ∧
          (∀ name ∈ restartRequiredSections,
            Dict.get? (runtimeConfig settings next) name ≠
                Dict.get? (runtimeConfig settings reached) name →
              currentConfigGeneration reached < currentConfigGeneration next) ∧
          ∀ updates target, call = .replace updates → updates.Distinct →
            replaceRuntimeSections settings changedAt updates reached = .ok target →
              ∀ name values base, (name, values) ∈ updates → values.Distinct →
                Dict.get? (defaultsFromSettings settings) name =
                    some (.object base) →
                  IsFull base values →
                    ∃ effective,
                      Dict.get? (runtimeConfig settings next) name =
                          some (.object effective) ∧
                        ∀ key,
                          (Dict.get? effective key == Dict.get? values key) = true := by
  obtain ⟨kept, grown⟩ := Counted.run visible distinct
  refine ⟨grown, ?_⟩
  intro changedAt call public_ reached next
  have counted := RuntimeCall.counted public_ kept changedAt
  refine ⟨?_, ?_, ?_⟩
  · rw [currentConfigGeneration_eq settings reached, currentConfigGeneration_eq settings]
    exact counted.grown
  · intro name section_ different
    have shown : isPrivateKey name = false := by
      simp only [restartRequiredSections, List.mem_cons, List.not_mem_nil, or_false]
        at section_
      rcases section_ with rfl | rfl | rfl
      · decide
      · decide
      · decide
    rw [currentConfigGeneration_eq settings reached, currentConfigGeneration_eq settings]
    apply counted.counts name section_
    intro same
    apply different
    rw [runtimeConfig, runtimeConfig, get?_mergeRuntimeDefaults counted.distinct shown,
      get?_mergeRuntimeDefaults kept shown, same]
  · intro updates target replaced sections ran name values base member proper known full
    have written : next = some target := by
      show call.apply settings changedAt reached = some target
      rw [replaced, RuntimeCall.apply, ran]
    have rowDistinct : target.Distinct := by
      have after := counted.distinct
      rw [show call.apply settings changedAt (runtimeAfter settings row calls) =
        some target from written] at after
      exact after
    rw [written]
    obtain ⟨effective, found, reads⟩ :=
      replaceRuntimeSections_readsBack rowDistinct sections member known proper ran
    exact ⟨effective, found, fun key => reads key (full key)⟩

def bootstrapExample : BootstrapSettings where
  sshHost := "h"
  sshUser := "u"
  restUrl := "r"
  baseUrl := "b"
  model := "m"
  maxOutputTokens := 1024
  policyVersion := "v"
  maxFindings := 5
  minConfidence := 1
  maxCandidateChunks := 8
  maxLlmCallsPerJob := 8
  maxToolCallsPerJob := 8
  verifierBudgetFraction := 1

def overrideAndReset : List (String × RuntimeCall) :=
  [("t", .replace [("gerrit", [("ssh_host", .text "x")])]), ("t", .reset ["gerrit"])]

theorem config_generation_counts_changes_reset :
    currentConfigGeneration none ≤
        currentConfigGeneration (runtimeAfter bootstrapExample none overrideAndReset) ∧
      currentConfigGeneration (runtimeAfter bootstrapExample none overrideAndReset) =
        2 :=
  ⟨(config_generation_counts_changes
      (by decide : (Option.getD none (initialRuntime bootstrapExample)).Distinct)
      (by simp [overrideAndReset, RuntimeCall.Public])).1, by decide +kernel⟩

/-- A patch that names the stored generation sets it back. -/
theorem config_generation_set_back :
    currentConfigGeneration
          (runtimeAfter bootstrapExample none
            [("t", .patch [("gerrit", .object [("ssh_host", .text "x")])])]) = 1 ∧
      currentConfigGeneration
          (runtimeAfter bootstrapExample none
            [("t", .patch [("gerrit", .object [("ssh_host", .text "x")])]),
              ("t", .patch [("_config_generation", .value (.int 0))])]) = 0 := by
  decide +kernel

end PeReview
