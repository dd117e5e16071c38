import Mathlib.Data.Finset.Max
import PeReview.Jobs.QueueRefinement

/-!
# Patch sets arriving

The patch-set events of one change, delivered to an empty queue in some order and
any number of times, with no worker running.  The states of their jobs are a
function of each event, which the rows of the store follow.
-/

namespace PeReview

open PeReview.Data

/-- The state of the job of each event, if it has one. -/
abbrev Arrivals : Type :=
  GerritPatchsetEvent → Option JobState

namespace Arrivals

variable (skips : GerritPatchsetEvent → Bool) (events : List GerritPatchsetEvent)

/-- An event gets a job when it has none. -/
def receive (states : Arrivals) (event : GerritPatchsetEvent) : Arrivals :=
  if states event = none then
    Function.update states event
      (some (if skips event then .skippedScope else .received))
  else states

/-- Some event with a greater patch-set number has a job. -/
def Outdated (states : Arrivals) (event : GerritPatchsetEvent) : Prop :=
  ∃ newer ∈ events, states newer ≠ none ∧
    event.patchsetNumber < newer.patchsetNumber

instance (states : Arrivals) (event : GerritPatchsetEvent) :
    Decidable (Outdated events states event) :=
  inferInstanceAs (Decidable (∃ newer ∈ events, _))

/-- The job of an event is ordered among the others. -/
def order (states : Arrivals) (event : GerritPatchsetEvent) : Arrivals :=
  if states event = some .skippedScope then states
  else if states event = some .received ∧ Outdated events states event then
    Function.update states event (some .superseded)
  else
    fun older =>
      if older.patchsetNumber < event.patchsetNumber ∧
          states older = some .received then
        some .superseded
      else states older

def arrive (states : Arrivals) (event : GerritPatchsetEvent) : Arrivals :=
  order events (receive skips states event) event

def after (deliveries : List GerritPatchsetEvent) : Arrivals :=
  deliveries.foldl (arrive skips events) fun _ => none

/-- The states the deliveries leave jobs in. -/
def Proper (states : Arrivals) : Prop :=
  ∀ event state, states event = some state →
    if skips event then state = .skippedScope
    else state = .received ∨ state = .superseded

section Deliveries

variable {skips : GerritPatchsetEvent → Bool} {events : List GerritPatchsetEvent}
  {states : Arrivals} {event other : GerritPatchsetEvent}

theorem receive_self : receive skips states event event ≠ none := by
  unfold receive
  by_cases absent : states event = none
  · rw [if_pos absent, Function.update_self]
    simp
  · rw [if_neg absent]
    exact absent

theorem receive_of_ne (different : other ≠ event) :
    receive skips states event other = states other := by
  unfold receive
  by_cases absent : states event = none
  · rw [if_pos absent, Function.update_of_ne different]
  · rw [if_neg absent]

theorem order_eq_none :
    order events states event other = none ↔ states other = none := by
  unfold order
  split
  · exact Iff.rfl
  · split
    · rename_i outdated
      by_cases same : other = event
      · subst same
        rw [Function.update_self, outdated.1]
        simp
      · rw [Function.update_of_ne same]
    · dsimp only
      split
      · rename_i superseded
        rw [superseded.2]
        simp
      · exact Iff.rfl

/-- A delivery gives its event a job, and no other. -/
theorem arrive_eq_none :
    arrive skips events states event other = none ↔
      states other = none ∧ other ≠ event := by
  rw [arrive, order_eq_none]
  by_cases same : other = event
  · subst same
    simp [receive_self]
  · simp [receive_of_ne same, same]

theorem Proper.receive (proper : Proper skips states) :
    Proper skips (receive skips states event) := by
  intro tested state known
  by_cases same : tested = event
  · subst same
    unfold Arrivals.receive at known
    by_cases absent : states tested = none
    · rw [if_pos absent, Function.update_self, Option.some.injEq] at known
      rw [← known]
      cases skips tested with
      | true =>
          rfl
      | false =>
          exact .inl rfl
    · rw [if_neg absent] at known
      exact proper tested state known
  · rw [receive_of_ne same] at known
    exact proper tested state known

theorem Proper.of_received (proper : Proper skips states)
    (received : states event = some .received) :
    skips event = false := by
  have allowed := proper event .received received
  by_contra skipped
  rw [Bool.not_eq_false] at skipped
  simp [skipped] at allowed

theorem Proper.order (proper : Proper skips states) :
    Proper skips (order events states event) := by
  have superseded : ∀ tested state, states tested = some .received →
      some JobState.superseded = some state →
        if skips tested then state = .skippedScope
        else state = .received ∨ state = .superseded := by
    intro tested state received known
    cases known
    simp [proper.of_received received]
  intro tested state known
  unfold Arrivals.order at known
  split at known
  · exact proper tested state known
  · split at known
    · rename_i outdated
      by_cases same : tested = event
      · subst same
        rw [Function.update_self] at known
        exact superseded tested state outdated.1 known
      · rw [Function.update_of_ne same] at known
        exact proper tested state known
    · dsimp only at known
      split at known
      · rename_i older
        exact superseded tested state older.2 known
      · exact proper tested state known

theorem Proper.arrive (proper : Proper skips states) :
    Proper skips (arrive skips events states event) :=
  proper.receive.order

theorem after_append (deliveries : List GerritPatchsetEvent)
    (event : GerritPatchsetEvent) :
    after skips events (deliveries ++ [event]) =
      arrive skips events (after skips events deliveries) event := by
  simp [after, List.foldl_append]

/-- Exactly the delivered events have a job. -/
theorem after_eq_none {deliveries : List GerritPatchsetEvent} :
    after skips events deliveries event = none ↔ event ∉ deliveries := by
  induction deliveries using List.reverseRecOn with
  | nil =>
      simp [after]
  | append_singleton deliveries last inductionHypothesis =>
      rw [after_append, arrive_eq_none, inductionHypothesis]
      simp [not_or]

theorem Proper.after (deliveries : List GerritPatchsetEvent) :
    Proper skips (after skips events deliveries) := by
  induction deliveries using List.reverseRecOn with
  | nil =>
      exact fun _ _ known => nomatch known
  | append_singleton deliveries last inductionHypothesis =>
      rw [after_append]
      exact inductionHypothesis.arrive

end Deliveries

section Latest

variable {skips : GerritPatchsetEvent → Bool} {events : List GerritPatchsetEvent}
  {states : Arrivals} {event latest : GerritPatchsetEvent}

/-- An event in scope to which no event of the change is newer. -/
structure Latest (skips : GerritPatchsetEvent → Bool)
    (events : List GerritPatchsetEvent) (latest : GerritPatchsetEvent) : Prop where
  member : latest ∈ events
  inScope : skips latest = false
  newest : ∀ newer ∈ events, newer.patchsetNumber ≤ latest.patchsetNumber

/-- Once the latest event has come its job is open, and those of older events are
not. -/
def Ordered (latest : GerritPatchsetEvent) (states : Arrivals) : Prop :=
  states latest = none ∨
    (states latest = some .received ∧
      ∀ older, older.patchsetNumber < latest.patchsetNumber →
        states older ≠ some .received)

theorem receive_latest (isLatest : Latest skips events latest)
    (ordered : Ordered latest states) :
    receive skips states latest latest = some .received := by
  unfold receive
  rcases ordered with absent | ⟨received, _⟩
  · rw [if_pos absent, Function.update_self, isLatest.inScope]
    rfl
  · rw [if_neg (by simp [received]), received]

/-- Nothing outdates the latest event. -/
theorem Latest.not_outdated (isLatest : Latest skips events latest) :
    ¬Outdated events states latest := by
  intro outdated
  obtain ⟨newer, member, _, greater⟩ := outdated
  have bound := isLatest.newest newer member
  omega

/-- A delivery of the latest event orders the queue behind it. -/
theorem Ordered.arrive_latest (isLatest : Latest skips events latest)
    (ordered : Ordered latest states) :
    Ordered latest (arrive skips events states latest) := by
  have received := receive_latest isLatest ordered
  have current : ¬(receive skips states latest latest = some .received ∧
      Outdated events (receive skips states latest) latest) :=
    fun both => isLatest.not_outdated both.2
  right
  unfold arrive order
  rw [if_neg (by simp [received]), if_neg current]
  constructor
  · rw [if_neg (fun both => absurd both.1 (Int.lt_irrefl _))]
    exact received
  · intro older smaller
    split
    · simp
    · rename_i kept
      exact fun known => kept ⟨smaller, known⟩

/-- A delivery of another event leaves the order. -/
theorem Ordered.arrive_of_ne (isLatest : Latest skips events latest)
    (ordered : Ordered latest states) (member : event ∈ events)
    (different : latest ≠ event) :
    Ordered latest (arrive skips events states event) := by
  rcases ordered with absent | ⟨received, behind⟩
  · exact .inl (arrive_eq_none.mpr ⟨absent, different⟩)
  · right
    have here : receive skips states event latest = some .received := by
      rw [receive_of_ne different, received]
    have others : ∀ older, older ≠ event →
        older.patchsetNumber < latest.patchsetNumber →
          receive skips states event older ≠ some .received := by
      intro older apart smaller
      rw [receive_of_ne apart]
      exact behind older smaller
    unfold arrive order
    split
    · rename_i skipped
      refine ⟨here, ?_⟩
      intro older smaller
      by_cases same : older = event
      · subst same
        simp [skipped]
      · exact others older same smaller
    · split
      · constructor
        · rw [Function.update_of_ne different]
          exact here
        · intro older smaller
          by_cases same : older = event
          · subst same
            simp
          · rw [Function.update_of_ne same]
            exact others older same smaller
      · rename_i current
        have bound := isLatest.newest event member
        dsimp only
        constructor
        · rw [if_neg (by omega)]
          exact here
        · intro older smaller
          split
          · simp
          · by_cases same : older = event
            · -- An older event that is received would have been outdated.
              subst same
              intro known
              have outdated : Outdated events (receive skips states older) older :=
                ⟨latest, isLatest.member, by simp [here], smaller⟩
              exact current ⟨known, outdated⟩
            · exact others older same smaller

theorem Ordered.after (isLatest : Latest skips events latest)
    {deliveries : List GerritPatchsetEvent}
    (within : ∀ event ∈ deliveries, event ∈ events) :
    Ordered latest (after skips events deliveries) := by
  induction deliveries using List.reverseRecOn with
  | nil =>
      exact .inl rfl
  | append_singleton deliveries last inductionHypothesis =>
      rw [after_append]
      have before := inductionHypothesis fun event member =>
        within event (List.mem_append_left [last] member)
      by_cases same : latest = last
      · subst same
        exact before.arrive_latest isLatest
      · exact before.arrive_of_ne isLatest (within last (by simp)) same

/-- The state of an event in scope, once the latest has come. -/
theorem after_of_latest (isLatest : Latest skips events latest)
    {deliveries : List GerritPatchsetEvent}
    (within : ∀ event ∈ deliveries, event ∈ events)
    (delivered : event ∈ deliveries) (came : latest ∈ deliveries)
    (inScope : skips event = false)
    (smaller : event.patchsetNumber < latest.patchsetNumber) :
    after skips events deliveries event = some .superseded := by
  have present : after skips events deliveries event ≠ none :=
    fun absent => after_eq_none.mp absent delivered
  obtain ⟨state, known⟩ := Option.ne_none_iff_exists'.mp present
  have allowed := Proper.after deliveries event state known
  rcases Ordered.after isLatest within with absent | ⟨_, behind⟩
  · exact absurd came (after_eq_none.mp absent)
  · rcases (by simpa [inScope] using allowed : state = .received ∨ state = .superseded)
      with rfl | rfl
    · exact absurd known (behind event smaller)
    · exact known

/-- The latest event itself stays open. -/
theorem after_latest (isLatest : Latest skips events latest)
    {deliveries : List GerritPatchsetEvent}
    (within : ∀ event ∈ deliveries, event ∈ events) (came : latest ∈ deliveries) :
    after skips events deliveries latest = some .received := by
  rcases Ordered.after isLatest within with absent | ⟨received, _⟩
  · exact absurd came (after_eq_none.mp absent)
  · exact received

theorem after_of_skips {deliveries : List GerritPatchsetEvent}
    (delivered : event ∈ deliveries) (skipped : skips event) :
    after skips events deliveries event = some .skippedScope := by
  have present : after skips events deliveries event ≠ none :=
    fun absent => after_eq_none.mp absent delivered
  obtain ⟨state, known⟩ := Option.ne_none_iff_exists'.mp present
  have allowed := Proper.after deliveries event state known
  rw [if_pos skipped] at allowed
  rw [known, allowed]

end Latest

section Independence

variable {skips : GerritPatchsetEvent → Bool} {events : List GerritPatchsetEvent}
  {states : Arrivals} {event older : GerritPatchsetEvent}

/-- A skipped event is newer than one in scope only if some event in scope is, too. -/
def Ranked (skips : GerritPatchsetEvent → Bool) (events : List GerritPatchsetEvent) :
    Prop :=
  ∀ older ∈ events, ∀ newer ∈ events, skips older = false → skips newer = true →
    older.patchsetNumber < newer.patchsetNumber →
      ∃ latest ∈ events, skips latest = false ∧
        older.patchsetNumber < latest.patchsetNumber

/-- Then an event in scope is the latest one or older than it. -/
theorem Ranked.latest (ranked : Ranked skips events) (member : event ∈ events)
    (inScope : skips event = false) :
    Latest skips events event ∨
      ∃ latest, Latest skips events latest ∧
        event.patchsetNumber < latest.patchsetNumber := by
  let candidates := (events.filter fun other => !skips other).toFinset
  have candidate : ∀ other, other ∈ candidates ↔ other ∈ events ∧ skips other = false := by
    intro other
    simp [candidates]
  obtain ⟨latest, latestMem, greatest⟩ :=
    candidates.exists_max_image GerritPatchsetEvent.patchsetNumber
      ⟨event, (candidate event).mpr ⟨member, inScope⟩⟩
  obtain ⟨latestMember, latestInScope⟩ := (candidate latest).mp latestMem
  have newest : ∀ newer ∈ events, newer.patchsetNumber ≤ latest.patchsetNumber := by
    intro newer newerMember
    by_contra greater
    rw [Int.not_le] at greater
    cases skipped : skips newer with
    | false =>
        have bound := greatest newer ((candidate newer).mpr ⟨newerMember, skipped⟩)
        omega
    | true =>
        obtain ⟨above, aboveMember, aboveInScope, higher⟩ :=
          ranked latest latestMember newer newerMember latestInScope skipped greater
        have bound := greatest above ((candidate above).mpr ⟨aboveMember, aboveInScope⟩)
        omega
  have isLatest : Latest skips events latest := ⟨latestMember, latestInScope, newest⟩
  by_cases smaller : event.patchsetNumber < latest.patchsetNumber
  · exact .inr ⟨latest, isLatest, smaller⟩
  · left
    refine ⟨member, inScope, ?_⟩
    intro newer newerMember
    have bound := newest newer newerMember
    omega

/-- The states then depend on what has been delivered only. -/
theorem Ranked.after_eq (ranked : Ranked skips events)
    {first second : List GerritPatchsetEvent}
    (covers : ∀ event, event ∈ first ↔ event ∈ events)
    (coversToo : ∀ event, event ∈ second ↔ event ∈ events) (member : event ∈ events) :
    after skips events first event = after skips events second event := by
  have within : ∀ event ∈ first, event ∈ events := fun event => (covers event).mp
  have withinToo : ∀ event ∈ second, event ∈ events := fun event => (coversToo event).mp
  have came := (covers event).mpr member
  have cameToo := (coversToo event).mpr member
  cases skipped : skips event with
  | true =>
      rw [after_of_skips came skipped, after_of_skips cameToo skipped]
  | false =>
      rcases ranked.latest member skipped with isLatest | ⟨latest, isLatest, smaller⟩
      · rw [after_latest isLatest within came, after_latest isLatest withinToo cameToo]
      · have latestCame := (covers latest).mpr isLatest.member
        have latestCameToo := (coversToo latest).mpr isLatest.member
        rw [after_of_latest isLatest within came latestCame skipped smaller,
          after_of_latest isLatest withinToo cameToo latestCameToo skipped smaller]

/-- An event that comes to an empty queue stays open, as long as no newer event in
scope comes. -/
theorem after_cons_received (inScope : skips older = false)
    {rest : List GerritPatchsetEvent}
    (others : ∀ event ∈ rest, event ≠ older ∧
      (skips event = true ∨ event.patchsetNumber ≤ older.patchsetNumber)) :
    after skips events (older :: rest) older = some .received := by
  induction rest using List.reverseRecOn with
  | nil =>
      have received : receive skips (fun _ => none) older older = some .received := by
        simp [receive, inScope]
      have alone : ¬Outdated events (receive skips (fun _ => none) older) older := by
        intro outdated
        obtain ⟨newer, _, present, greater⟩ := outdated
        by_cases same : newer = older
        · rw [same] at greater
          omega
        · rw [receive_of_ne same] at present
          exact present rfl
      have settled : arrive skips events (fun _ => none) older older =
          some .received := by
        unfold arrive order
        rw [if_neg (by simp [received]), if_neg (fun both => alone both.2)]
        rw [if_neg (fun both => absurd both.1 (Int.lt_irrefl _)), received]
      exact settled
  | append_singleton rest last inductionHypothesis =>
      have before := inductionHypothesis fun event member =>
        others event (List.mem_append_left [last] member)
      obtain ⟨different, behind⟩ := others last (by simp)
      rw [← List.cons_append, after_append]
      generalize known : after skips events (older :: rest) = states at before
      have proper : Proper skips states := by
        rw [← known]
        exact Proper.after _
      have here : receive skips states last older = some .received := by
        rw [receive_of_ne (Ne.symm different), before]
      unfold arrive order
      split
      · exact here
      · rename_i notSkipped
        split
        · rw [Function.update_of_ne (Ne.symm different)]
          exact here
        · have smaller : last.patchsetNumber ≤ older.patchsetNumber := by
            rcases behind with skipped | smaller
            · obtain ⟨state, present⟩ :=
                Option.ne_none_iff_exists'.mp
                  (@receive_self skips states last)
              have allowed := proper.receive last state present
              rw [if_pos skipped] at allowed
              rw [present, allowed] at notSkipped
              exact absurd rfl notSkipped
            · exact smaller
          dsimp only
          rw [if_neg (by omega)]
          exact here

/-- An event in scope that comes behind a newer one is superseded. -/
theorem arrive_outdated (proper : Proper skips states) (inScope : skips older = false)
    {newer : GerritPatchsetEvent} (member : newer ∈ events)
    (present : states newer ≠ none)
    (greater : older.patchsetNumber < newer.patchsetNumber) :
    arrive skips events states older older = some .superseded := by
  have different : newer ≠ older := by
    intro same
    rw [same] at greater
    omega
  have outdated : Outdated events (receive skips states older) older := by
    refine ⟨newer, member, ?_, greater⟩
    rw [receive_of_ne different]
    exact present
  obtain ⟨state, known⟩ :=
    Option.ne_none_iff_exists'.mp (@receive_self skips states older)
  have allowed := proper.receive older state known
  unfold arrive order
  rcases (by simpa [inScope] using allowed : state = .received ∨ state = .superseded)
    with rfl | rfl
  · rw [if_neg (by simp [known]), if_pos ⟨known, outdated⟩, Function.update_self]
  · rw [if_neg (by simp [known]), if_neg (by simp [known])]
    rw [if_neg (fun both => absurd both.1 (Int.lt_irrefl _)), known]

/-- The states depend on what has been delivered only exactly when the events are
ranked. -/
theorem after_independent_iff :
    (∀ first second : List GerritPatchsetEvent,
        (∀ event, event ∈ first ↔ event ∈ events) →
        (∀ event, event ∈ second ↔ event ∈ events) →
        ∀ event ∈ events,
          after skips events first event = after skips events second event) ↔
      Ranked skips events := by
  constructor
  · intro independent older member newer newerMember inScope skipped greater
    by_contra none_
    let others := events.filter fun event => event ≠ older
    have first : ∀ event, event ∈ older :: others ↔ event ∈ events := by
      intro event
      by_cases same : event = older
      · simp [same, member]
      · simp [others, same]
    have second : ∀ event, event ∈ others ++ [older] ↔ event ∈ events := by
      intro event
      rw [← first event]
      simp [or_comm]
    have stays : after skips events (older :: others) older = some .received := by
      apply after_cons_received inScope
      intro event eventMember
      obtain ⟨inEvents, different⟩ := List.mem_filter.mp eventMember
      refine ⟨by simpa using different, ?_⟩
      cases scope : skips event with
      | true =>
          exact .inl rfl
      | false =>
          right
          by_contra higher
          rw [Int.not_le] at higher
          exact none_ ⟨event, inEvents, scope, higher⟩
    have leaves : after skips events (others ++ [older]) older = some .superseded := by
      rw [after_append]
      apply arrive_outdated (Proper.after others) inScope newerMember _ greater
      intro absent
      apply after_eq_none.mp absent
      have different : newer ≠ older := by
        intro same
        rw [same] at greater
        omega
      simp [others, newerMember, different]
    have same := independent _ _ first second older member
    rw [stays, leaves] at same
    cases same
  · intro ranked first second covers coversToo event member
    exact ranked.after_eq covers coversToo member

end Independence

end Arrivals

end PeReview
