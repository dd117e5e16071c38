import Mathlib.Data.List.Sort
import PeReview.Gerrit.Paging

/-!
# When the paging ends

The loop over the pages of a project goes on as long as the server announces more
changes.  Against a given sequence of pages it ends exactly when a page does not, or
when the query for one has grown too long.
-/

namespace PeReview

open PeReview.Data

/-- A page of well-formed changes, each with its `_more_changes`. -/
abbrev ChangesPage : Type :=
  List (StoredChange × Bool)

namespace ChangesPage

def payload (page : ChangesPage) : List (Option ChangeInfo) :=
  page.map fun entry => some (entry.1.shown entry.2)

/-- Nothing is announced after a page. -/
def isLast (page : ChangesPage) : Bool :=
  match page.getLast? with
  | none => true
  | some entry => !entry.2

def boundary (page : ChangesPage) : Option SearchBoundary :=
  page.getLast?.map fun entry => entry.1.time.searchBoundary

def numbersAt (level : SearchBoundary) (page : ChangesPage) : List Int :=
  (page.filter fun entry => entry.1.time.searchBoundary = level).map fun entry =>
    entry.1.number

/-- The changes that the latest pages ending at a boundary show there; the pages
are given latest first. -/
def excludedAt (level : SearchBoundary) : List ChangesPage → List Int
  | [] => []
  | page :: earlier =>
      if page.boundary = some level then
        page.numbersAt level ++ excludedAt level earlier
      else []

/-- The query after some pages, given latest first: before the boundary of the last
page, without the changes shown at it. -/
def nextQuery (project : String) (after : Option Nat) (earlier : List ChangesPage) :
    ChangesQuery where
  project
  after
  before := earlier.head?.bind boundary
  excluded :=
    match earlier.head?.bind boundary with
    | none => []
    | some level => (excludedAt level earlier).dedup.mergeSort

theorem mem_numbersAt {page : ChangesPage} {level : SearchBoundary}
    {number : Int} :
    (∃ stored ∈ page.map Prod.fst,
        stored.number = number ∧ stored.time.searchBoundary = level) ↔
      number ∈ page.numbersAt level := by
  simp only [ChangesPage.numbersAt, List.mem_map, List.mem_filter, decide_eq_true_eq]
  constructor
  · rintro ⟨_, ⟨other, member, rfl⟩, same, sameLevel⟩
    exact ⟨other, ⟨member, sameLevel⟩, same⟩
  · rintro ⟨other, ⟨member, sameLevel⟩, same⟩
    exact ⟨other.1, ⟨other, member, rfl⟩, same, sameLevel⟩

theorem shows (page : ChangesPage) :
    List.Forall₂ (fun item stored => ∃ more, item = StoredChange.shown stored more)
      (page.map fun entry => entry.1.shown entry.2) (page.map Prod.fst) := by
  rw [List.forall₂_map_left_iff, List.forall₂_map_right_iff, List.forall₂_same]
  intro entry member
  exact ⟨entry.2, rfl⟩

end ChangesPage

section Sequence

/-- The server that sends a sequence of pages for each project, whatever it is
asked. -/
def pageServer (pages : String → Nat → ChangesPage) : ChangesServer :=
  fun request query _ => .ok (some (pages query.project request).payload)

/-- The pages of a project from a request on, latest first. -/
def pagesBefore (pages : Nat → ChangesPage) (start : Nat) : Nat → List ChangesPage
  | 0 => []
  | count + 1 => pages (start + count) :: pagesBefore pages start count

def TooLong (pages : Nat → ChangesPage) (project : String) (after : Option Nat)
    (start count : Nat) : Prop :=
  64000 <
    (ChangesPage.nextQuery project after
      (pagesBefore pages start count)).text.utf8ByteSize

instance (pages : Nat → ChangesPage) (project : String) (after : Option Nat)
    (start count : Nat) : Decidable (TooLong pages project after start count) :=
  inferInstanceAs (Decidable (64000 < _))

/-- The loop of a project is over with its first such page: the query for it is too
long, or it is a last page. -/
structure StopsAt (pages : Nat → ChangesPage) (project : String)
    (after : Option Nat) (start count : Nat) : Prop where
  before : ∀ earlier < count, ¬TooLong pages project after start earlier ∧
    (pages (start + earlier)).isLast = false
  stops : TooLong pages project after start count ∨
    (pages (start + count)).isLast = true

/-- The loops of all projects end, the first of them at a request. -/
inductive Ending (pages : String → Nat → ChangesPage)
    (after : String → Option Nat) : List String → Nat → Prop
  | finished (start : Nat) : Ending pages after [] start
  | tooLong {project : String} {rest : List String} {start count : Nat}
      (stops : StopsAt (pages project) project (after project) start count)
      (long : TooLong (pages project) project (after project) start count) :
      Ending pages after (project :: rest) start
  | next {project : String} {rest : List String} {start count : Nat}
      (stops : StopsAt (pages project) project (after project) start count)
      (others : Ending pages after rest (start + count + 1)) :
      Ending pages after (project :: rest) start

end Sequence

namespace Paging

variable {project : String} {paging : Paging} {page : ChangesPage}

/-- Reading a page of a project moves neither the boundary nor the exclusions. -/
theorem read_changes (about : ∀ entry ∈ page, entry.1.change.project = project) :
    ∃ changes seen, page.payload.foldlM (read project) paging =
      .ok { paging with changes := changes, seenChangeNumbers := seen } := by
  induction page generalizing paging with
  | nil =>
      exact ⟨paging.changes, paging.seenChangeNumbers, rfl⟩
  | cons entry rest inductionHypothesis =>
      rw [List.forall_mem_cons] at about
      obtain ⟨first, others⟩ := about
      have parsed := entry.1.parse_shown entry.2
      rw [first] at parsed
      have required := entry.1.required_shown entry.2
      have shown : ∃ changes seen,
          read project paging (some (entry.1.shown entry.2)) =
            .ok { paging with changes := changes, seenChangeNumbers := seen } := by
        simp only [read, required, parsed, Except.ok_bind]
        split
        · exact ⟨paging.changes, paging.seenChangeNumbers, rfl⟩
        · exact ⟨_, _, rfl⟩
      obtain ⟨changes, seen, shown⟩ := shown
      obtain ⟨laterChanges, laterSeen, folded⟩ :=
        @inductionHypothesis
          { paging with changes := changes, seenChangeNumbers := seen } others
      refine ⟨laterChanges, laterSeen, ?_⟩
      rw [ChangesPage.payload, List.map_cons, List.foldlM_cons, shown, Except.ok_bind]
      exact folded

/-- The exclusions stay without repetitions. -/
theorem nodup_exclude {boundary : SearchBoundary} {excluded after : List Int}
    {payload : List (Option ChangeInfo)} (single : excluded.Nodup)
    (folded : payload.foldlM (exclude boundary) excluded = .ok after) :
    after.Nodup := by
  refine Except.foldlM_preserves ?_ single folded
  intro item member source target nodup stepped
  unfold exclude at stepped
  split at stepped
  · cases stepped
    exact nodup
  · split at stepped
    · cases stepped
      exact nodup
    · obtain ⟨level, _, same⟩ := Except.bind_eq_ok.mp stepped
      cases same
      split
      · exact nodup.insert
      · exact nodup

/-- The paging stands where some pages, given latest first, have left it. -/
structure Stands (earlier : List ChangesPage) (paging : Paging) : Prop where
  boundary : paging.beforeBoundary = earlier.head?.bind ChangesPage.boundary
  single : paging.excludedAtBoundary.Nodup
  excluded : ∀ number, number ∈ paging.excludedAtBoundary ↔
    ∃ level, paging.beforeBoundary = some level ∧
      number ∈ ChangesPage.excludedAt level earlier

theorem stands_start (changes : List OpenChange) :
    Stands [] { changes } where
  boundary := rfl
  single := List.nodup_nil
  excluded number := by
    simp

/-- The next query is the one after the pages. -/
theorem Stands.query_eq {earlier : List ChangesPage} (stands : Stands earlier paging)
    (after : Option Nat) :
    paging.query project after = ChangesPage.nextQuery project after earlier := by
  have sorted : paging.excludedAtBoundary.mergeSort =
      match earlier.head?.bind ChangesPage.boundary with
      | none => []
      | some level => (ChangesPage.excludedAt level earlier).dedup.mergeSort := by
    rw [← stands.boundary]
    cases known : paging.beforeBoundary with
    | none =>
        have nothing : paging.excludedAtBoundary = [] := by
          refine List.eq_nil_iff_forall_not_mem.mpr ?_
          intro number member
          obtain ⟨level, some_, _⟩ := (stands.excluded number).mp member
          rw [known] at some_
          cases some_
        rw [nothing, List.mergeSort_nil]
    | some level =>
        have same : paging.excludedAtBoundary.Perm
            (ChangesPage.excludedAt level earlier).dedup := by
          refine
            (List.perm_ext_iff_of_nodup stands.single (List.nodup_dedup _)).mpr ?_
          intro number
          rw [stands.excluded, List.mem_dedup, known]
          simp
        have sorted : paging.excludedAtBoundary.mergeSort.Perm
            (ChangesPage.excludedAt level earlier).dedup.mergeSort :=
          (List.mergeSort_perm _ _).trans (same.trans (List.mergeSort_perm _ _).symm)
        exact
          sorted.eq_of_pairwise' (List.pairwise_mergeSort' (· ≤ ·) _)
            (List.pairwise_mergeSort' (· ≤ ·) _)
  unfold query ChangesPage.nextQuery
  rw [sorted, stands.boundary]

/-- Pages below which a boundary is searched have it as the boundary of the latest one. -/
theorem Stands.mem_excludedAt {earlier : List ChangesPage} (stands : Stands earlier paging)
    {level : SearchBoundary} {number : Int} :
    (paging.beforeBoundary = some level ∧ number ∈ paging.excludedAtBoundary) ↔
      number ∈ ChangesPage.excludedAt level earlier := by
  constructor
  · rintro ⟨same, member⟩
    obtain ⟨other, otherLevel, isIn⟩ := (stands.excluded number).mp member
    cases same.symm.trans otherLevel
    exact isIn
  · intro member
    have same : paging.beforeBoundary = some level := by
      rw [stands.boundary]
      cases earlier with
      | nil =>
          cases member
      | cons first rest =>
          unfold ChangesPage.excludedAt at member
          split at member
          · rename_i sameLevel
            exact sameLevel
          · cases member
    exact ⟨same, (stands.excluded number).mpr ⟨_, same, member⟩⟩

/-- The last entry of a page, as the client sees it. -/
theorem getLast?_payload (page : ChangesPage) :
    page.payload.getLast? =
      page.getLast?.map fun entry => some (entry.1.shown entry.2) := by
  unfold ChangesPage.payload
  rw [List.getLast?_map]

/-- After the last page of a project its loop is over. -/
theorem turn_last (about : ∀ entry ∈ page, entry.1.change.project = project)
    (last : page.isLast = true) :
    ∃ next, paging.turn project page.payload = .ok (next, false) := by
  unfold turn
  rw [getLast?_payload]
  cases known : page.getLast? with
  | none =>
      exact ⟨paging, rfl⟩
  | some entry =>
      have quiet : entry.2 = false := by
        simpa [ChangesPage.isLast, known] using last
      obtain ⟨changes, seen, folded⟩ := @read_changes project paging page about
      refine ⟨{ paging with changes := changes, seenChangeNumbers := seen }, ?_⟩
      simp only [Option.map_some, folded, Except.ok_bind, StoredChange.shown, quiet,
        Bool.false_eq_true, if_false]

/-- After any other page it goes on below the page. -/
theorem turn_more {earlier : List ChangesPage} (stands : Stands earlier paging)
    (about : ∀ entry ∈ page, entry.1.change.project = project)
    (more : page.isLast = false) :
    ∃ next, paging.turn project page.payload = .ok (next, true) ∧
      Stands (page :: earlier) next := by
  unfold turn
  rw [getLast?_payload]
  cases known : page.getLast? with
  | none =>
      simp [ChangesPage.isLast, known] at more
  | some entry =>
      have announces : entry.2 = true := by
        simpa [ChangesPage.isLast, known] using more
      obtain ⟨changes, seen, folded⟩ := @read_changes project paging page about
      let read_ : Paging := { paging with changes := changes, seenChangeNumbers := seen }
      have payload : page.payload =
          (page.map fun entry => entry.1.shown entry.2).map some := by
        rw [List.map_map]
        rfl
      obtain ⟨after, descended, members⟩ := descend_page read_ entry.1 page.shows
      rw [← payload] at descended
      have level : page.boundary = some entry.1.time.searchBoundary := by
        simp [ChangesPage.boundary, known]
      refine
        ⟨{ read_ with
            beforeBoundary := some entry.1.time.searchBoundary
            excludedAtBoundary := after }, ?_, ?_⟩
      · have dated : (entry.1.shown entry.2).updated = .valid entry.1.time :=
          entry.1.dated
        have announced : (entry.1.shown entry.2).moreChanges = true := announces
        simp only [Option.map_some, folded, Except.ok_bind, announced, if_true, dated]
        change (read_.descend page.payload (.valid entry.1.time) >>= _) = _
        rw [descended]
        rfl
      · refine ⟨?_, ?_, ?_⟩
        · exact level.symm
        · unfold descend at descended
          simp only [gerritSearchBoundary, entry.1.bounded, if_true, Except.ok_bind] at descended
          obtain ⟨excluded, excludes, same⟩ := Except.bind_eq_ok.mp descended
          cases same
          refine nodup_exclude ?_ excludes
          split
          · exact List.nodup_nil
          · exact stands.single
        · intro number
          have old : (read_.beforeBoundary = some entry.1.time.searchBoundary ∧
                number ∈ read_.excludedAtBoundary) ↔
              number ∈ ChangesPage.excludedAt entry.1.time.searchBoundary earlier :=
            stands.mem_excludedAt
          rw [members, old, ChangesPage.mem_numbersAt]
          simp only [Option.some.injEq, exists_eq_left', ChangesPage.excludedAt, level,
            if_true, List.mem_append]
          exact or_comm

end Paging

section Loop

variable {pages : String → Nat → ChangesPage} {pageSize : Int} {project : String}
  {after : Option Nat}

/-- The page the server sends is the next of the project. -/
theorem requestPage_pageServer (request : Nat) (paging : Paging) :
    requestPage (pageServer pages) pageSize request (paging.query project after) =
      .ok (pages project request).payload :=
  rfl

/-- One turn of the loop before it is over. -/
theorem queryPages_more
    (wellFormed : ∀ request, ∀ entry ∈ pages project request,
      entry.1.change.project = project)
    {start count : Nat} {paging : Paging}
    (stands : paging.Stands (pagesBefore (pages project) start count))
    (short : ¬TooLong (pages project) project after start count)
    (more : (pages project (start + count)).isLast = false) :
    ∃ next : Paging, next.Stands (pagesBefore (pages project) start (count + 1)) ∧
      ∀ fuel,
        queryPages (pageServer pages) pageSize project after (fuel + 1) (start + count)
            paging =
          queryPages (pageServer pages) pageSize project after fuel
            (start + (count + 1)) next := by
  obtain ⟨next, turned, standsNext⟩ :=
    Paging.turn_more stands (wellFormed (start + count)) more
  refine ⟨next, standsNext, ?_⟩
  intro fuel
  have query := @Paging.Stands.query_eq project paging _ stands after
  have fits : ¬64000 < (paging.query project after).text.utf8ByteSize := by
    rw [query]
    exact short
  simp only [queryPages, if_neg fits,
    requestPage_pageServer,
    Except.ok_bind, turned]
  rfl

/-- The turn with which the loop is over. -/
theorem queryPages_stop
    (wellFormed : ∀ request, ∀ entry ∈ pages project request,
      entry.1.change.project = project)
    {start count : Nat} {paging : Paging}
    (stands : paging.Stands (pagesBefore (pages project) start count))
    (stops : TooLong (pages project) project after start count ∨
      (pages project (start + count)).isLast = true) :
    ∃ result,
      (∀ fuel,
        queryPages (pageServer pages) pageSize project after (fuel + 1) (start + count)
          paging = some result) ∧
      ((TooLong (pages project) project after start count ∧
          result = .error queryTooLong) ∨
        (¬TooLong (pages project) project after start count ∧
          ∃ next, result = .ok (next, start + count + 1))) := by
  have query := @Paging.Stands.query_eq project paging _ stands after
  by_cases long : TooLong (pages project) project after start count
  · refine ⟨.error queryTooLong, ?_, .inl ⟨long, rfl⟩⟩
    intro fuel
    have tooLong : 64000 < (paging.query project after).text.utf8ByteSize := by
      rw [query]
      exact long
    simp only [queryPages, if_pos tooLong]
  · have last := stops.resolve_left long
    have fits : ¬64000 < (paging.query project after).text.utf8ByteSize := by
      rw [query]
      exact long
    obtain ⟨next, turned⟩ :=
      @Paging.turn_last project paging _ (wellFormed (start + count)) last
    refine ⟨.ok (next, start + count + 1), ?_, .inr ⟨long, next, rfl⟩⟩
    intro fuel
    simp only [queryPages, if_neg fits, requestPage_pageServer, Except.ok_bind, turned]

/-- The loop of a project with a first page to stop at: it has a result once the fuel
exceeds the number of pages before that one. -/
theorem queryPages_stopsAt
    (wellFormed : ∀ request, ∀ entry ∈ pages project request,
      entry.1.change.project = project)
    {start count rest : Nat} {paging : Paging}
    (stands : paging.Stands (pagesBefore (pages project) start count))
    (stopsAt : StopsAt (pages project) project after start (count + rest)) :
    ∃ result,
      (∀ fuel,
        queryPages (pageServer pages) pageSize project after fuel (start + count)
          paging = if fuel ≤ rest then none else some result) ∧
      ((TooLong (pages project) project after start (count + rest) ∧
          result = .error queryTooLong) ∨
        (¬TooLong (pages project) project after start (count + rest) ∧
          ∃ next, result = .ok (next, start + (count + rest) + 1))) := by
  induction rest generalizing count paging with
  | zero =>
      obtain ⟨result, stopped, kind⟩ :=
        @queryPages_stop pages pageSize project after wellFormed start count paging
          stands stopsAt.stops
      refine ⟨result, ?_, kind⟩
      intro fuel
      cases fuel with
      | zero =>
          rfl
      | succ fuel =>
          rw [stopped, if_neg (Nat.not_succ_le_zero fuel)]
  | succ rest inductionHypothesis =>
      have goesOn := stopsAt.before count (by omega)
      obtain ⟨next, standsNext, more⟩ :=
        @queryPages_more pages pageSize project after wellFormed start count paging
          stands goesOn.1 goesOn.2
      have shifted : count + (rest + 1) = count + 1 + rest := by omega
      rw [shifted] at stopsAt ⊢
      obtain ⟨result, ran, kind⟩ := inductionHypothesis standsNext stopsAt
      refine ⟨result, ?_, kind⟩
      intro fuel
      cases fuel with
      | zero =>
          rfl
      | succ fuel =>
          rw [more, ran]
          simp only [Nat.add_le_add_iff_right]

/-- The loop of a project with no page to stop at uses up any fuel. -/
theorem queryPages_endless
    (wellFormed : ∀ request, ∀ entry ∈ pages project request,
      entry.1.change.project = project)
    {start : Nat}
    (endless : ∀ count, ¬TooLong (pages project) project after start count ∧
      (pages project (start + count)).isLast = false)
    {count : Nat} {paging : Paging}
    (stands : paging.Stands (pagesBefore (pages project) start count)) (fuel : Nat) :
    queryPages (pageServer pages) pageSize project after fuel (start + count) paging =
      none := by
  induction fuel generalizing count paging with
  | zero =>
      rfl
  | succ fuel inductionHypothesis =>
      have goesOn := endless count
      obtain ⟨next, standsNext, more⟩ :=
        @queryPages_more pages pageSize project after wellFormed start count paging
          stands goesOn.1 goesOn.2
      rw [more]
      exact inductionHypothesis standsNext

/-- A project with a first page to stop at, from its first query on. -/
theorem queryPages_of_stopsAt
    (wellFormed : ∀ request, ∀ entry ∈ pages project request,
      entry.1.change.project = project)
    {start count : Nat} (stopsAt : StopsAt (pages project) project after start count)
    (changes : List OpenChange) :
    ∃ result,
      (∀ fuel,
        queryPages (pageServer pages) pageSize project after fuel start { changes } =
          if fuel ≤ count then none else some result) ∧
      ((TooLong (pages project) project after start count ∧
          result = .error queryTooLong) ∨
        (¬TooLong (pages project) project after start count ∧
          ∃ next, result = .ok (next, start + count + 1))) := by
  have first : StopsAt (pages project) project after start (0 + count) := by
    rw [Nat.zero_add]
    exact stopsAt
  have ended :=
    @queryPages_stopsAt pages pageSize project after wellFormed start 0 count
      { changes } (Paging.stands_start changes) first
  rw [Nat.zero_add] at ended
  exact ended

/-- Either some page is the first to stop at, or none is. -/
theorem stopsAt_or_endless (pages : Nat → ChangesPage) (project : String)
    (after : Option Nat) (start : Nat) :
    (∃ count, StopsAt pages project after start count) ∨
      ∀ count, ¬TooLong pages project after start count ∧
        (pages (start + count)).isLast = false := by
  classical
  by_cases some_ : ∃ count, TooLong pages project after start count ∨
      (pages (start + count)).isLast = true
  · refine .inl ⟨Nat.find some_, ?_, Nat.find_spec some_⟩
    intro earlier lower
    have not := Nat.find_min some_ lower
    rw [not_or, Bool.not_eq_true] at not
    exact not
  · refine .inr ?_
    intro count
    have not := not_exists.mp some_ count
    rw [not_or, Bool.not_eq_true] at not
    exact not

end Loop

section Projects

variable {pages : String → Nat → ChangesPage} {pageSize : Int}
  {after : String → Option Nat} {projects : List String} {start : Nat}

/-- Once the loops of the projects end, so does the loop over them. -/
theorem queryProjects_of_ending
    (wellFormed : ∀ project request, ∀ entry ∈ pages project request,
      entry.1.change.project = project)
    (ending : Ending pages after projects start) (changes : List OpenChange) :
    ∃ bound, ∀ fuel, bound ≤ fuel →
      queryProjects (pageServer pages) pageSize after fuel projects start changes ≠
        none := by
  induction ending generalizing changes with
  | finished start =>
      exact ⟨0, fun fuel _ => Option.some_ne_none _⟩
  | @tooLong project rest start count stops long =>
      obtain ⟨result, ran, kind⟩ :=
        @queryPages_of_stopsAt pages pageSize project (after project)
          (wellFormed project) start count stops changes
      rcases kind with ⟨_, rfl⟩ | ⟨short, _⟩
      · refine ⟨count + 1, ?_⟩
        intro fuel enough
        have ended := ran fuel
        rw [if_neg (by omega)] at ended
        simp only [queryProjects, ended]
        exact Option.some_ne_none _
      · exact absurd long short
  | @next project rest start count stops others inductionHypothesis =>
      obtain ⟨result, ran, kind⟩ :=
        @queryPages_of_stopsAt pages pageSize project (after project)
          (wellFormed project) start count stops changes
      rcases kind with ⟨long, rfl⟩ | ⟨_, next, rfl⟩
      · refine ⟨count + 1, ?_⟩
        intro fuel enough
        have ended := ran fuel
        rw [if_neg (by omega)] at ended
        simp only [queryProjects, ended]
        exact Option.some_ne_none _
      · obtain ⟨bound, ends⟩ := inductionHypothesis next.changes
        refine ⟨max (count + 1) bound, ?_⟩
        intro fuel enough
        have ended := ran fuel
        rw [if_neg (by omega)] at ended
        simp only [queryProjects, ended]
        exact ends fuel (by omega)

/-- A loop over the projects that ends shows that the loops of the projects do. -/
theorem ending_of_queryProjects
    (wellFormed : ∀ project request, ∀ entry ∈ pages project request,
      entry.1.change.project = project)
    {changes : List OpenChange} {fuel : Nat}
    (ended :
      queryProjects (pageServer pages) pageSize after fuel projects start changes ≠
        none) :
    Ending pages after projects start := by
  induction projects generalizing start changes with
  | nil =>
      exact .finished start
  | cons project rest inductionHypothesis =>
      rcases stopsAt_or_endless (pages project) project (after project) start with
        ⟨count, stops⟩ | endless
      · obtain ⟨result, ran, kind⟩ :=
          @queryPages_of_stopsAt pages pageSize project (after project)
            (wellFormed project) start count stops changes
        rcases kind with ⟨long, rfl⟩ | ⟨_, next, rfl⟩
        · exact .tooLong stops long
        · apply Ending.next stops
          by_cases few : fuel ≤ count
          · have stuck := ran fuel
            rw [if_pos few] at stuck
            simp only [queryProjects, stuck] at ended
            exact absurd rfl ended
          · have finished := ran fuel
            rw [if_neg few] at finished
            simp only [queryProjects, finished] at ended
            exact inductionHypothesis ended
      · have stuck :=
          @queryPages_endless pages pageSize project (after project)
            (wellFormed project) start endless 0 { changes }
            (Paging.stands_start changes) fuel
        rw [Nat.add_zero] at stuck
        simp only [queryProjects, stuck] at ended
        exact absurd rfl ended

end Projects

/-- Against a given sequence of well-formed pages the query for open changes ends
exactly when its arguments are refused, or the loop of each project comes to a page
that announces nothing more or, before that, the query has grown too long. -/
theorem queryRecentOpenChanges_ends_iff (pages : String → Nat → ChangesPage)
    (pageSize : Int) (projects : List String) (since : Option Datetime)
    (projectSince : Option (Dict String (Option Datetime)))
    (wellFormed : ∀ project request, ∀ entry ∈ pages project request,
      entry.1.change.project = project) :
    (∃ fuel,
        queryRecentOpenChanges (pageServer pages) pageSize projects since projectSince
          fuel ≠ none) ↔
      (∃ raised, checkQuery pageSize since projectSince = .error raised) ∨
        Ending pages (cutoffSeconds since projectSince) projects 0 := by
  unfold queryRecentOpenChanges
  cases checked : checkQuery pageSize since projectSince with
  | error raised =>
      simp
  | ok _ =>
      dsimp only
      constructor
      · rintro ⟨fuel, ended⟩
        exact .inr (ending_of_queryProjects wellFormed ended)
      · intro some_
        rcases some_ with ⟨raised, refused⟩ | ending
        · cases refused
        · obtain ⟨bound, ends⟩ :=
            @queryProjects_of_ending pages pageSize _ projects 0 wellFormed ending []
          exact ⟨bound, ends bound (Nat.le_refl bound)⟩

def firstChange : StoredChange :=
  plainChange 0 firstNanosecond firstNanosecond_hasBoundary

/-- A server that sends one page with a change, announces more and has none. -/
def lastPageEmpty (project : String) (request : Nat) : ChangesPage :=
  if project = "p" ∧ request = 0 then
    [(firstChange, true)]
  else []

theorem queryRecentOpenChanges_ends_iff_lastPageEmpty :
    ∃ fuel,
      queryRecentOpenChanges (pageServer lastPageEmpty) 100 ["p"] none none fuel ≠
        none := by
  have wellFormed : ∀ project request, ∀ entry ∈ lastPageEmpty project request,
      entry.1.change.project = project := by
    intro project request entry member
    unfold lastPageEmpty at member
    split at member
    · rename_i first
      rw [List.mem_singleton] at member
      rw [member, first.1]
      rfl
    · cases member
  have short : ¬TooLong (lastPageEmpty "p") "p" none 0 0 := by
    decide +kernel
  have stops : StopsAt (lastPageEmpty "p") "p" none 0 1 := by
    refine ⟨?_, .inr (by decide)⟩
    intro earlier lower
    obtain rfl := Nat.lt_one_iff.mp lower
    exact ⟨short, by decide⟩
  apply
    (queryRecentOpenChanges_ends_iff lastPageEmpty 100 ["p"] none none wellFormed).mpr
  exact .inr (.next stops (.finished _))

/-- A server that sends the same page whatever it is asked, and always announces
more. -/
def samePage (project : String) (_ : Nat) : ChangesPage :=
  if project = "p" then
    [(firstChange, true)]
  else []

/-- Every query but the first excludes the one change at its boundary. -/
theorem nextQuery_samePage (count : Nat) :
    ChangesPage.nextQuery "p" none (pagesBefore (samePage "p") 0 (count + 1)) =
      ChangesPage.nextQuery "p" none [samePage "p" 0] := by
  let level : SearchBoundary :=
    { base := 63925131662, milliseconds := 1, bounded := by decide }
  have shown : ∀ count,
      ChangesPage.excludedAt level (pagesBefore (samePage "p") 0 count) =
        List.replicate count 1 := by
    intro count
    induction count with
    | zero =>
        rfl
    | succ count inductionHypothesis =>
        have here : (samePage "p" (0 + count)).boundary = some level := rfl
        rw [pagesBefore, ChangesPage.excludedAt, if_pos here, inductionHypothesis]
        rfl
  have single :
      (ChangesPage.excludedAt level
        (pagesBefore (samePage "p") 0 (count + 1))).dedup = [1] := by
    rw [shown, List.replicate_dedup (Nat.succ_ne_zero count)]
  have last : ((pagesBefore (samePage "p") 0 (count + 1)).head?.bind
      ChangesPage.boundary) = some level := rfl
  unfold ChangesPage.nextQuery
  rw [last]
  dsimp only
  rw [single]
  rfl

/-- Against such a server the query never ends. -/
theorem queryRecentOpenChanges_samePage :
    ¬∃ fuel,
      queryRecentOpenChanges (pageServer samePage) 100 ["p"] none none fuel ≠ none := by
  have wellFormed : ∀ request, ∀ entry ∈ samePage "p" request,
      entry.1.change.project = "p" := by
    intro request entry member
    rw [samePage, if_pos rfl, List.mem_singleton] at member
    rw [member]
    rfl
  have endless : ∀ count, ¬TooLong (samePage "p") "p" none 0 count ∧
      (samePage "p" (0 + count)).isLast = false := by
    intro count
    refine ⟨?_, rfl⟩
    cases count with
    | zero =>
        decide +kernel
    | succ count =>
        have short : ¬64000 <
            (ChangesPage.nextQuery "p" none [samePage "p" 0]).text.utf8ByteSize := by
          decide +kernel
        rw [TooLong, nextQuery_samePage]
        exact short
  intro some_
  obtain ⟨fuel, ended⟩ := some_
  have stuck :=
    @queryPages_endless samePage 100 "p" none wellFormed 0 endless 0 { changes := [] }
      (Paging.stands_start []) fuel
  apply ended
  have checked : checkQuery 100 none none = .ok () := rfl
  have cutoff : cutoffSeconds none none "p" = none := rfl
  rw [Nat.add_zero] at stuck
  simp only [queryRecentOpenChanges, checked, queryProjects, cutoff, stuck]

end PeReview
