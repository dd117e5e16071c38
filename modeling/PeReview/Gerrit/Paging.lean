import Mathlib.Data.List.Forall2
import PeReview.Data.Cursor
import PeReview.Gerrit.Query

/-!
# Paging through the open changes

The pages of a server that answers each query newest first make up every matching
change exactly once.
-/

namespace PeReview

open PeReview.Data

section Boundaries

def millisecondCeil : ClosureOperator Nat :=
  ClosureOperator.mk' (fun instant => (instant + 999999) / 1000000 * 1000000)
    (fun first second ordered => by dsimp only; omega)
    (fun instant => by omega) (fun instant => by omega)

theorem millisecondCeil_apply (instant : Nat) :
    millisecondCeil instant = (instant + 999999) / 1000000 * 1000000 :=
  rfl

/-- The search boundary of a timestamp is the timestamp rounded up to a
millisecond. -/
theorem GerritTimestamp.searchBoundary_instant (value : GerritTimestamp) :
    value.searchBoundary.instant = millisecondCeil value.instant := by
  have bounded := value.bounded
  rw [millisecondCeil_apply]
  unfold searchBoundary SearchBoundary.instant GerritTimestamp.instant
  dsimp only
  split <;> split <;> dsimp only <;> omega

theorem SearchBoundary.instant_injective {first second : SearchBoundary}
    (same : first.instant = second.instant) :
    first = second := by
  obtain ⟨base, milliseconds, bounded⟩ := first
  obtain ⟨otherBase, otherMilliseconds, otherBounded⟩ := second
  simp only [instant] at same
  obtain rfl : base = otherBase := by omega
  obtain rfl : milliseconds = otherMilliseconds := by omega
  rfl

theorem GerritTimestamp.searchBoundary_eq_iff {first second : GerritTimestamp} :
    first.searchBoundary = second.searchBoundary ↔
      millisecondCeil first.instant = millisecondCeil second.instant := by
  rw [← searchBoundary_instant, ← searchBoundary_instant]
  exact ⟨fun same => by rw [same], SearchBoundary.instant_injective⟩

/-- A boundary is at the level of a timestamp when its instant is. -/
theorem level_iff {boundary : Option SearchBoundary} {value : GerritTimestamp} :
    boundary.map SearchBoundary.instant = some (millisecondCeil value.instant) ↔
      boundary = some value.searchBoundary := by
  rw [← GerritTimestamp.searchBoundary_instant]
  cases boundary with
  | none => simp
  | some boundary =>
      simp only [Option.map_some, Option.some.injEq]
      exact ⟨SearchBoundary.instant_injective, fun same => by rw [same]⟩

end Boundaries

/-- An open change on the server, which it shows as a well-formed `ChangeInfo`. -/
structure StoredChange where
  info : ChangeInfo
  change : OpenChange
  time : GerritTimestamp
  positive : 1 ≤ change.changeNumber
  bounded : time.hasBoundary = true
  numbered : info.number = some change.changeNumber
  dated : info.updated = .valid time
  parsed : parseChange info change.project change.changeNumber = .ok change

namespace StoredChange

/-- The `ChangeInfo` in an answer. -/
def shown (stored : StoredChange) (moreChanges : Bool) : ChangeInfo :=
  { stored.info with moreChanges }

def number (stored : StoredChange) : Int :=
  stored.change.changeNumber

def instant (stored : StoredChange) : Nat :=
  stored.time.instant

variable (stored : StoredChange) (moreChanges : Bool)

theorem instant_eq : stored.instant = stored.time.instant :=
  rfl

theorem parse_shown :
    parseChange (stored.shown moreChanges) stored.change.project stored.number =
      .ok stored.change :=
  stored.parsed

theorem required_shown :
    requiredPositiveInt (stored.shown moreChanges).number "_number" =
      .ok stored.number := by
  have positive : ¬stored.change.changeNumber < 1 := Int.not_lt.mpr stored.positive
  rw [shown, stored.numbered]
  exact if_neg positive

end StoredChange

section Server

/-- The open changes a cutoff lets through, for a project. -/
def openChanges (changes : List StoredChange)
    (recent : Option Nat → StoredChange → Bool) (project : String)
    (after : Option Nat) : List StoredChange :=
  changes.filter fun stored => stored.change.project = project && recent after stored

/-- A change is at or before the boundary. -/
def StoredChange.isBefore (stored : StoredChange) : Option SearchBoundary → Bool
  | none => true
  | some boundary => stored.instant ≤ boundary.instant

/-- The changes a query matches: `before:` is inclusive, and `-change:` excludes. -/
def matchingChanges (changes : List StoredChange)
    (recent : Option Nat → StoredChange → Bool) (query : ChangesQuery) :
    List StoredChange :=
  (openChanges changes recent query.project query.after).filter fun stored =>
    stored.isBefore query.before && !query.excluded.contains stored.number

/-- An answer is the first page of the matching changes, newest first, and its last
item tells whether there are more. -/
def Answers (found : List StoredChange) (pageSize : Int)
    (answer : Except PyError (Option (List (Option ChangeInfo)))) : Prop :=
  ∃ page rest items,
    (page ++ rest).Perm found ∧
    (page ++ rest).Pairwise (fun first second => second.instant ≤ first.instant) ∧
    page.length ≤ pageSize ∧ (page = [] → rest = []) ∧
    answer = .ok (some (items.map some)) ∧
    List.Forall₂ (fun item stored => ∃ more, item = StoredChange.shown stored more)
      items page ∧
    ∀ last ∈ items.getLast?, last.moreChanges = !rest.isEmpty

/-- A server with a fixed set of open changes, whose answers may differ in the
order of changes of the same time and in the length of a page. -/
structure Serves (changes : List StoredChange)
    (recent : Option Nat → StoredChange → Bool) (server : ChangesServer) : Prop where
  distinct : (changes.map StoredChange.number).Nodup
  answers : ∀ request query pageSize, 1 ≤ pageSize →
    Answers (matchingChanges changes recent query) pageSize
      (server request query pageSize)

/-- The server that sorts the matching changes and cuts off the first page. -/
def newestFirst (changes : List StoredChange)
    (recent : Option Nat → StoredChange → Bool) : ChangesServer :=
  fun _ query pageSize =>
    let found := (matchingChanges changes recent query).insertionSort fun first second =>
      second.instant ≤ first.instant
    .ok
      (some
        ((found.take pageSize.toNat).map fun stored =>
          some (stored.shown (pageSize.toNat < found.length))))

theorem newestFirst_serves {changes : List StoredChange}
    {recent : Option Nat → StoredChange → Bool}
    (distinct : (changes.map StoredChange.number).Nodup) :
    Serves changes recent (newestFirst changes recent) where
  distinct := distinct
  answers := by
    intro request query pageSize positive
    let newer : StoredChange → StoredChange → Prop := fun first second =>
      second.instant ≤ first.instant
    let found := (matchingChanges changes recent query).insertionSort newer
    let page := found.take pageSize.toNat
    let more : Bool := decide (pageSize.toNat < found.length)
    have size : page.length ≤ pageSize.toNat := List.length_take_le _ _
    refine ⟨page, found.drop pageSize.toNat, page.map fun stored => stored.shown more,
      ?_, ?_, by omega, ?_, ?_, ?_, ?_⟩
    · rw [List.take_append_drop]
      exact List.perm_insertionSort _ _
    · rw [List.take_append_drop]
      have total : Std.Total newer :=
        ⟨fun first second => Nat.le_total second.instant first.instant⟩
      have transitive : IsTrans StoredChange newer :=
        ⟨fun _ _ _ earlier later => Nat.le_trans later earlier⟩
      exact List.pairwise_insertionSort newer _
    · intro none
      rcases List.take_eq_nil_iff.mp none with zero | empty
      · omega
      · rw [empty, List.drop_nil]
    · rw [newestFirst, List.map_map]
      rfl
    · exact List.forall₂_map_left_iff.mpr
        (List.forall₂_same.mpr fun stored _ => ⟨more, rfl⟩)
    · intro last member
      rw [List.getLast?_map] at member
      obtain ⟨stored, _, rfl⟩ := Option.map_eq_some_iff.mp member
      show more = _
      by_cases short : pageSize.toNat < found.length
      · simp [more, short]
      · simpa [more, short] using Nat.le_of_not_lt short

end Server

namespace Paging

variable {project : String} {paging : Paging} {page : List StoredChange}
  {items : List ChangeInfo}

/-- Reading a page of changes that have not been seen appends them. -/
theorem read_page
    (shows : List.Forall₂
      (fun item stored => ∃ more, item = StoredChange.shown stored more) items page)
    (about : ∀ stored ∈ page, stored.change.project = project)
    (single : (page.map StoredChange.number).Nodup)
    (unseen : ∀ stored ∈ page, stored.number ∉ paging.seenChangeNumbers) :
    ∃ seen, (items.map some).foldlM (read project) paging =
        .ok
          { paging with
            changes := paging.changes ++ page.map StoredChange.change
            seenChangeNumbers := seen } ∧
      ∀ number, number ∈ seen ↔
        number ∈ paging.seenChangeNumbers ∨
          number ∈ page.map StoredChange.number := by
  induction shows generalizing paging with
  | nil =>
      exact ⟨paging.seenChangeNumbers, by simp, by simp⟩
  | @cons item stored items page shown shows inductionHypothesis =>
      obtain ⟨more, rfl⟩ := shown
      have fresh : stored.number ∉ paging.seenChangeNumbers :=
        unseen stored List.mem_cons_self
      let next : Paging :=
        { paging with
          changes := paging.changes ++ [stored.change]
          seenChangeNumbers := stored.number :: paging.seenChangeNumbers }
      have read_ : read project paging (some (stored.shown more)) = .ok next := by
        have parsed := stored.parse_shown more
        rw [about stored List.mem_cons_self] at parsed
        simp [read, stored.required_shown more, parsed, fresh, next]
      rw [List.map_cons, List.nodup_cons] at single
      obtain ⟨seen, folded, known⟩ :=
        @inductionHypothesis next
          (fun other member => about other (List.mem_cons_of_mem _ member)) single.2
          (by
            intro other member seen
            rcases List.mem_cons.mp seen with same | before
            · apply single.1
              rw [← same]
              exact List.mem_map_of_mem member
            · exact unseen other (List.mem_cons_of_mem _ member) before)
      refine ⟨seen, ?_, ?_⟩
      · rw [List.map_cons, List.foldlM_cons, read_, Except.ok_bind, folded]
        simp [next]
      · intro number
        rw [known]
        simp [next, or_assoc, or_comm]

/-- The exclusions after a page are those from before it and its changes at the
boundary. -/
theorem exclude_page (boundary : SearchBoundary) (excluded : List Int)
    (shows : List.Forall₂
      (fun item stored => ∃ more, item = StoredChange.shown stored more) items page) :
    ∃ after, (items.map some).foldlM (exclude boundary) excluded = .ok after ∧
      ∀ number, number ∈ after ↔
        number ∈ excluded ∨
          ∃ stored ∈ page, stored.number = number ∧
            stored.time.searchBoundary = boundary := by
  induction shows generalizing excluded with
  | nil =>
      exact ⟨excluded, by simp, by simp⟩
  | @cons item stored items page shown shows inductionHypothesis =>
      obtain ⟨more, rfl⟩ := shown
      have excluded_ : exclude boundary excluded (some (stored.shown more)) =
          .ok
            (if stored.time.searchBoundary = boundary then
              excluded.insert stored.number
            else excluded) := by
        simp [exclude, StoredChange.shown, stored.numbered, stored.dated,
          gerritSearchBoundary, stored.bounded, StoredChange.number]
      obtain ⟨after, folded, known⟩ :=
        @inductionHypothesis
          (if stored.time.searchBoundary = boundary then
            excluded.insert stored.number
          else excluded)
      refine ⟨after, ?_, ?_⟩
      · rw [List.map_cons, List.foldlM_cons, excluded_, Except.ok_bind, folded]
      · intro number
        rw [known]
        by_cases level : stored.time.searchBoundary = boundary
        · simp only [level, if_true, List.mem_insert_iff, List.mem_cons,
            exists_eq_or_imp, and_true]
          tauto
        · simp [level]

/-- The paging stands where a walk over the matching changes stands. -/
structure Follows (before : List OpenChange) (all visited : List StoredChange)
    (paging : Paging) : Prop where
  walk : Walk StoredChange.instant millisecondCeil all visited
    (paging.beforeBoundary.map SearchBoundary.instant)
    fun stored => stored.number ∈ paging.excludedAtBoundary
  changes : paging.changes = before ++ visited.map StoredChange.change
  seen : ∀ number, number ∈ paging.seenChangeNumbers ↔
    number ∈ visited.map StoredChange.number
  fresh : paging.beforeBoundary = none → paging.excludedAtBoundary = []

variable {before : List OpenChange} {changes visited rest : List StoredChange}
  {recent : Option Nat → StoredChange → Bool} {after : Option Nat}

theorem Follows.begin (before : List OpenChange) (all : List StoredChange) :
    Follows before all [] { changes := before } where
  walk := Walk.begin _ _ _ _
  changes := by simp
  seen := by simp
  fresh := fun _ => rfl

/-- The next query matches what has not been visited. -/
theorem Follows.mem_matching
    (follows : Follows before (openChanges changes recent project after) visited
      paging) {stored : StoredChange} :
    stored ∈ matchingChanges changes recent (paging.query project after) ↔
      stored ∈ openChanges changes recent project after ∧ stored ∉ visited := by
  rw [matchingChanges, List.mem_filter]
  refine and_congr_right fun member => ?_
  rw [follows.walk.not_mem_iff member]
  cases known : paging.beforeBoundary with
  | none =>
      simp [query, known, follows.fresh known, StoredChange.isBefore]
  | some boundary =>
      simp [query, known, StoredChange.isBefore]

/-- The last item of a page shows its last change. -/
theorem shows_last {last : ChangeInfo}
    (shows : List.Forall₂
      (fun item stored => ∃ more, item = StoredChange.shown stored more) items page)
    (ends : items.getLast? = some last) :
    ∃ stored more, page.getLast? = some stored ∧ last = stored.shown more := by
  rw [List.getLast?_eq_head?_reverse] at ends ⊢
  have reversed := List.rel_reverse shows
  cases known : page.reverse with
  | nil =>
      rw [known, List.forall₂_nil_right_iff] at reversed
      rw [reversed] at ends
      cases ends
  | cons stored others =>
      rw [known] at reversed
      obtain ⟨item, shown, ⟨more, same⟩, _, equal⟩ :=
        List.forall₂_cons_right_iff.mp reversed
      rw [equal] at ends
      cases ends
      exact ⟨stored, more, rfl, same⟩

/-- Below a page, the boundary is the last update of the page rounded up, and the
changes of the page at the boundary are excluded. -/
theorem descend_page (paging : Paging) (last : StoredChange)
    (shows : List.Forall₂
      (fun item stored => ∃ more, item = StoredChange.shown stored more) items page) :
    ∃ after, paging.descend (items.map some) (.valid last.time) =
        .ok
          { paging with
            beforeBoundary := some last.time.searchBoundary
            excludedAtBoundary := after } ∧
      ∀ number, number ∈ after ↔
        (paging.beforeBoundary = some last.time.searchBoundary ∧
            number ∈ paging.excludedAtBoundary) ∨
          ∃ stored ∈ page, stored.number = number ∧
            stored.time.searchBoundary = last.time.searchBoundary := by
  obtain ⟨after, folded, known⟩ :=
    exclude_page last.time.searchBoundary
      (if paging.beforeBoundary = some last.time.searchBoundary then
        paging.excludedAtBoundary
      else []) shows
  refine ⟨after, by simp [descend, gerritSearchBoundary, last.bounded, folded], ?_⟩
  intro number
  rw [known]
  by_cases same : paging.beforeBoundary = some last.time.searchBoundary
  · simp [same]
  · simp [same]

section Pages

variable (distinct : (changes.map StoredChange.number).Nodup)
  (follows : Follows before (openChanges changes recent project after) visited paging)
  (split : ∀ stored, stored ∈ page ++ rest ↔
    stored ∈ openChanges changes recent project after ∧ stored ∉ visited)
  (single : (page ++ rest).Nodup)
  (shows : List.Forall₂
    (fun item stored => ∃ more, item = StoredChange.shown stored more) items page)

include follows split

/-- Everything visited is an open change of the project. -/
theorem Follows.stored_mem {stored : StoredChange} (member : stored ∈ visited ++ page) :
    stored ∈ changes ∧ stored.change.project = project := by
  have kept := List.mem_filter.mp (follows.walk.page_subset split member)
  simp only [Bool.and_eq_true, decide_eq_true_eq] at kept
  exact ⟨kept.1, kept.2.1⟩

include distinct in
theorem Follows.eq_of_number {stored other : StoredChange}
    (member : stored ∈ visited ++ page) (otherMember : other ∈ visited ++ page)
    (same : stored.number = other.number) :
    stored = other :=
  List.inj_on_of_nodup_map distinct (follows.stored_mem split member).1
    (follows.stored_mem split otherMember).1 same

include single

include distinct shows in
/-- A page is read as the changes that follow those visited before it. -/
theorem Follows.read :
    ∃ seen, (items.map some).foldlM (Paging.read project) paging =
        .ok
          { paging with
            changes := before ++ (visited ++ page).map StoredChange.change
            seenChangeNumbers := seen } ∧
      ∀ number, number ∈ seen ↔
        number ∈ (visited ++ page).map StoredChange.number := by
  have onPage : ∀ stored ∈ page, stored ∈ visited ++ page :=
    fun stored member => List.mem_append_right visited member
  have apart : (page.map StoredChange.number).Nodup :=
    List.Nodup.map_on
      (fun stored member other otherMember same =>
        follows.eq_of_number distinct split (onPage stored member)
          (onPage other otherMember) same)
      (List.nodup_append.mp single).1
  have unseen : ∀ stored ∈ page, stored.number ∉ paging.seenChangeNumbers := by
    intro stored member seen
    obtain ⟨other, earlier, same⟩ := List.mem_map.mp ((follows.seen _).mp seen)
    obtain rfl :=
      follows.eq_of_number distinct split (List.mem_append_left page earlier)
        (onPage stored member) same
    exact ((split other).mp (List.mem_append_left rest member)).2 earlier
  obtain ⟨seen, folded, known⟩ := read_page shows
    (fun stored member => (follows.stored_mem split (onPage stored member)).2) apart
    unseen
  refine ⟨seen, ?_, ?_⟩
  · rw [folded, follows.changes]
    simp
  · intro number
    rw [known, follows.seen, List.map_append, List.mem_append]

include distinct in
/-- The walk goes on below a page whose last change is the oldest. -/
theorem Follows.descend
    (ordered : (page ++ rest).Pairwise fun first second =>
      second.instant ≤ first.instant)
    {oldest : StoredChange} (ends : page.getLast? = some oldest) {next : Paging}
    (boundary : next.beforeBoundary = some oldest.time.searchBoundary)
    (excluded : ∀ number, number ∈ next.excludedAtBoundary ↔
      (paging.beforeBoundary = some oldest.time.searchBoundary ∧
          number ∈ paging.excludedAtBoundary) ∨
        ∃ stored ∈ page, stored.number = number ∧
          stored.time.searchBoundary = oldest.time.searchBoundary) :
    Walk StoredChange.instant millisecondCeil
      (openChanges changes recent project after) (visited ++ page)
      (next.beforeBoundary.map SearchBoundary.instant)
      fun stored => stored.number ∈ next.excludedAtBoundary := by
  have excludes : ∀ stored ∈ openChanges changes recent project after,
      stored.number ∈ next.excludedAtBoundary ↔
        (paging.beforeBoundary.map SearchBoundary.instant =
            some (millisecondCeil oldest.instant) ∧
            stored.number ∈ paging.excludedAtBoundary) ∨
          (stored ∈ page ∧
            millisecondCeil stored.instant = millisecondCeil oldest.instant) := by
    intro stored member
    rw [excluded, oldest.instant_eq, level_iff]
    refine or_congr_right ⟨?_, ?_⟩
    · rintro ⟨other, onPage, same, level⟩
      obtain rfl : other = stored :=
        List.inj_on_of_nodup_map distinct
          (follows.stored_mem split (List.mem_append_right visited onPage)).1
          (List.mem_filter.mp member).1 same
      exact ⟨onPage, GerritTimestamp.searchBoundary_eq_iff.mp level⟩
    · rintro ⟨onPage, level⟩
      exact
        ⟨stored, onPage, rfl, GerritTimestamp.searchBoundary_eq_iff.mpr level⟩
  have walked := follows.walk.next split single ordered ends excludes
  rw [oldest.instant_eq, ← GerritTimestamp.searchBoundary_instant] at walked
  rw [boundary]
  exact walked

end Pages

/-- One page of an honest server: either it is the last one and everything has been
visited, or the walk goes on with at least one more change visited. -/
theorem Follows.turn
    (distinct : (changes.map StoredChange.number).Nodup) {pageSize : Int}
    {answer : Except PyError (Option (List (Option ChangeInfo)))}
    (follows : Follows before (openChanges changes recent project after) visited
      paging)
    (answers : Answers
      (matchingChanges changes recent (paging.query project after)) pageSize answer) :
    ∃ payload next more page, answer = .ok (some payload) ∧
      paging.turn project payload = .ok (next, more) ∧
      (more = false →
        next.changes = before ++ (visited ++ page).map StoredChange.change ∧
        (visited ++ page).Perm (openChanges changes recent project after)) ∧
      (more = true → page ≠ [] ∧
        Follows before (openChanges changes recent project after) (visited ++ page)
          next) := by
  obtain ⟨page, rest, items, perm, ordered, _, whole, rfl, shows, flag⟩ := answers
  have nodup : (openChanges changes recent project after).Nodup :=
    (distinct.of_map _).filter _
  have split : ∀ stored, stored ∈ page ++ rest ↔
      stored ∈ openChanges changes recent project after ∧ stored ∉ visited :=
    fun stored => perm.mem_iff.trans follows.mem_matching
  have single : (page ++ rest).Nodup := perm.nodup_iff.mpr (nodup.filter _)
  refine ⟨items.map some, ?_⟩
  cases ends : items.getLast? with
  | none =>
      obtain rfl := List.getLast?_eq_none_iff.mp ends
      obtain rfl := List.forall₂_nil_left_iff.mp shows
      refine ⟨paging, false, [], rfl, rfl, ?_, nofun⟩
      intro _
      exact
        ⟨by simpa using follows.changes,
          follows.walk.finish nodup split single (whole rfl)⟩
  | some last =>
      obtain ⟨oldest, more, pageEnds, rfl⟩ := shows_last shows ends
      obtain ⟨seen, folded, known⟩ := follows.read distinct split single shows
      let read_ : Paging :=
        { paging with
          changes := before ++ (visited ++ page).map StoredChange.change
          seenChangeNumbers := seen }
      have folds : (items.map some).foldlM (Paging.read project) paging =
          .ok read_ := folded
      have shownLast : (items.map some).getLast? = some (some (oldest.shown more)) := by
        rw [List.getLast?_map, ends]
        rfl
      have flagged : more = !rest.isEmpty := flag _ ends
      have dated : (oldest.shown more).updated = .valid oldest.time := oldest.dated
      have flags : (oldest.shown more).moreChanges = more := rfl
      cases more with
      | false =>
          refine ⟨read_, false, page, rfl, ?_, ?_, nofun⟩
          · simp [Paging.turn, shownLast, folds, flags]
          · intro _
            have isOver : rest = [] := by simpa using flagged
            exact ⟨rfl, follows.walk.finish nodup split single isOver⟩
      | true =>
          obtain ⟨still, descended, excluded⟩ := descend_page read_ oldest shows
          let next : Paging :=
            { read_ with
              beforeBoundary := some oldest.time.searchBoundary
              excludedAtBoundary := still }
          refine ⟨next, true, page, rfl, ?_, nofun, ?_⟩
          · simp [Paging.turn, shownLast, folds, dated, flags, descended, next]
          · intro _
            have nonempty : page ≠ [] := by
              rintro rfl
              cases pageEnds
            exact
              ⟨nonempty,
                { walk :=
                    follows.descend distinct split single ordered pageEnds rfl
                      excluded
                  changes := rfl
                  seen := known
                  fresh := nofun }⟩

end Paging

section Queries

variable (server : ChangesServer) (pageSize : Int)

/-- A query the loop does not send. -/
def ChangesQuery.tooLong (query : ChangesQuery) : Bool :=
  64000 < query.text.utf8ByteSize

/-- The queries the loop over the pages of one project builds, in order. -/
def pageQueries (project : String) (after : Option Nat) : Nat → Nat → Paging → List ChangesQuery
  | 0, _, _ => []
  | fuel + 1, request, paging =>
      let query := paging.query project after
      if query.tooLong then [query]
      else
        match requestPage server pageSize request query >>= paging.turn project with
        | .ok (paging, true) => query :: pageQueries project after fuel (request + 1) paging
        | _ => [query]

/-- The queries the loop over the projects builds, in order. -/
def projectQueries (after : String → Option Nat) (fuel : Nat) :
    List String → Nat → List OpenChange → List ChangesQuery
  | [], _, _ => []
  | project :: rest, request, changes =>
      pageQueries server pageSize project (after project) fuel request { changes } ++
        match queryPages server pageSize project (after project) fuel request { changes } with
        | some (.ok (paging, request)) =>
            projectQueries after fuel rest request paging.changes
        | _ => []

/-- The queries of `query_recent_open_changes`, in order. -/
def recentQueries (projects : List String) (since : Option Datetime)
    (projectSince : Option (Dict String (Option Datetime))) (fuel : Nat) : List ChangesQuery :=
  projectQueries server pageSize (cutoffSeconds since projectSince) fuel projects 0 []

end Queries

section Completeness

variable {server : ChangesServer} {pageSize : Int} {project : String}
  {after : Option Nat} {before : List OpenChange}
  {changes visited : List StoredChange} {recent : Option Nat → StoredChange → Bool}

/-- The loop over the pages of a project ends, when its fuel exceeds what is left
to visit: a query has grown too long, or every change has been visited once. -/
theorem queryPages_complete (serves : Serves changes recent server)
    (positive : 1 ≤ pageSize) {fuel request : Nat} {paging : Paging}
    (follows : Paging.Follows before (openChanges changes recent project after)
      visited paging)
    (enough : (openChanges changes recent project after).length <
      fuel + visited.length) :
    (queryPages server pageSize project after fuel request paging =
        some (.error queryTooLong) ∧
      ∃ query ∈ pageQueries server pageSize project after fuel request paging,
        query.tooLong = true) ∨
      (∀ query ∈ pageQueries server pageSize project after fuel request paging,
        query.tooLong = false) ∧
      ∃ (last : Paging) (next : Nat) (found : List StoredChange),
        queryPages server pageSize project after fuel request paging =
          some (.ok (last, next)) ∧
        last.changes = before ++ found.map StoredChange.change ∧
        found.Perm (openChanges changes recent project after) := by
  induction fuel generalizing request paging visited with
  | zero =>
      have bound := (follows.walk.nodup.subperm follows.walk.subset).length_le
      omega
  | succ fuel inductionHypothesis =>
      simp only [queryPages, pageQueries]
      by_cases long : 64000 < (paging.query project after).text.utf8ByteSize
      · have tooLong : (paging.query project after).tooLong = true := decide_eq_true long
        rw [if_pos long, if_pos tooLong]
        exact .inl ⟨rfl, _, List.mem_singleton_self _, tooLong⟩
      · have short : (paging.query project after).tooLong = false := decide_eq_false long
        rw [if_neg long, if_neg (Bool.eq_false_iff.mp short)]
        obtain ⟨payload, next, more, page, answered, turned, isOver, goes⟩ :=
          follows.turn serves.distinct
            (serves.answers request (paging.query project after) pageSize positive)
        have ran : requestPage server pageSize request (paging.query project after) >>=
            paging.turn project = .ok (next, more) := by
          simp [requestPage, answered, turned]
        rw [ran]
        cases more with
        | false =>
            obtain ⟨shown, found⟩ := isOver rfl
            refine .inr ⟨?_, next, request + 1, visited ++ page, rfl, shown, found⟩
            intro query member
            rw [List.mem_singleton.mp member]
            exact short
        | true =>
            obtain ⟨nonempty, followsNext⟩ := goes rfl
            have grows := List.length_pos_of_ne_nil nonempty
            have left : (openChanges changes recent project after).length <
                fuel + (visited ++ page).length := by
              rw [List.length_append]
              omega
            rcases @inductionHypothesis _ (request + 1) next followsNext left with
              ⟨raised, query, member, tooLong⟩ | ⟨others, complete⟩
            · exact .inl ⟨raised, query, List.mem_cons_of_mem _ member, tooLong⟩
            · refine .inr ⟨?_, complete⟩
              intro query member
              rcases List.mem_cons.mp member with rfl | later
              · exact short
              · exact others query later

/-- The loop over the projects appends the changes of one project after those of
the other. -/
theorem queryProjects_complete (serves : Serves changes recent server)
    (positive : 1 ≤ pageSize) (after : String → Option Nat) {fuel : Nat}
    (enough : changes.length < fuel) (projects : List String) (request : Nat)
    (before : List OpenChange) :
    (queryProjects server pageSize after fuel projects request before =
        some (.error queryTooLong) ∧
      ∃ query ∈ projectQueries server pageSize after fuel projects request before,
        query.tooLong = true) ∨
      (∀ query ∈ projectQueries server pageSize after fuel projects request before,
        query.tooLong = false) ∧
      ∃ parts : List (List StoredChange),
        queryProjects server pageSize after fuel projects request before =
          some (.ok (before ++ (parts.flatten.map StoredChange.change))) ∧
        List.Forall₂ (fun part project =>
          part.Perm (openChanges changes recent project (after project)))
            parts projects := by
  induction projects generalizing request before with
  | nil =>
      refine .inr ⟨?_, [], by simp [queryProjects], .nil⟩
      intro query member
      cases member
  | cons project rest inductionHypothesis =>
      have few : (openChanges changes recent project (after project)).length ≤
          changes.length := List.length_filter_le _ _
      simp only [queryProjects, projectQueries]
      rcases queryPages_complete serves positive
          (Paging.Follows.begin before
            (openChanges changes recent project (after project)))
          (show _ < fuel + 0 by omega) with
        ⟨tooLong, query, member, long⟩ | ⟨short, last, next, found, ended, shown, perm⟩
      · rw [tooLong]
        exact .inl ⟨rfl, query, List.mem_append_left _ member, long⟩
      · rw [ended]
        rcases inductionHypothesis next last.changes with
          ⟨tooLong, query, member, long⟩ | ⟨others, parts, finished, complete⟩
        · exact .inl ⟨tooLong, query, List.mem_append_right _ member, long⟩
        · refine .inr ⟨?_, found :: parts, ?_, .cons perm complete⟩
          · intro query member
            rcases List.mem_append.mp member with here | later
            · exact short query here
            · exact others query later
          · show queryProjects server pageSize after fuel rest next last.changes = _
            rw [finished, shown]
            simp

theorem checkCutoffs_eq_ok {cutoffs : Dict String (Option Datetime)}
    (aware : ∀ cutoff ∈ cutoffs, cutoffAware cutoff.2 = true) :
    checkCutoffs cutoffs = .ok () := by
  induction cutoffs with
  | nil => rfl
  | cons item rest inductionHypothesis =>
      have first := aware item List.mem_cons_self
      have others := inductionHypothesis fun cutoff member =>
        aware cutoff (List.mem_cons_of_mem item member)
      simp [checkCutoffs, Except.require, first, others]

/-- The query for open changes, against a server with a fixed set of changes: it
ends.  If some query it builds is longer than 64000 bytes, it raises; otherwise the answer
holds the matching changes of each project exactly once. -/
theorem queryRecentOpenChanges_complete (serves : Serves changes recent server)
    (positive : 1 ≤ pageSize) (projects : List String) (since : Option Datetime)
    (projectSince : Option (Dict String (Option Datetime)))
    (aware : cutoffAware since = true ∧
      ∀ cutoff ∈ projectSince.getD [], cutoffAware cutoff.2 = true)
    {fuel : Nat} (enough : changes.length < fuel) :
    (queryRecentOpenChanges server pageSize projects since projectSince fuel =
        some (.error queryTooLong) ∧
      ∃ query ∈ recentQueries server pageSize projects since projectSince fuel,
        64000 < query.text.utf8ByteSize) ∨
      (∀ query ∈ recentQueries server pageSize projects since projectSince fuel,
        query.text.utf8ByteSize ≤ 64000) ∧
      ∃ parts : List (List StoredChange),
        queryRecentOpenChanges server pageSize projects since projectSince fuel =
          some (.ok (parts.flatten.map StoredChange.change)) ∧
        List.Forall₂ (fun part project =>
          part.Perm
            (openChanges changes recent project
              (cutoffSeconds since projectSince project))) parts projects := by
  have checked : checkQuery pageSize since projectSince = .ok () := by
    simp [checkQuery, Except.require, aware.1, checkCutoffs_eq_ok aware.2, positive]
  simp only [queryRecentOpenChanges, recentQueries, checked]
  rcases queryProjects_complete serves positive (cutoffSeconds since projectSince) enough
      projects 0 [] with ⟨raised, query, member, long⟩ | ⟨short, complete⟩
  · exact .inl ⟨raised, query, member, of_decide_eq_true long⟩
  · refine .inr ⟨?_, complete⟩
    intro query member
    exact Nat.le_of_not_lt (of_decide_eq_false (short query member))

end Completeness

def plainChange (predecessor : Nat) (time : GerritTimestamp)
    (bounded : time.hasBoundary = true) : StoredChange where
  info :=
    { project := some "p", number := some (predecessor + 1)
      currentRevision := some "a"
      revisions := some [("a", some { number := some 1 })]
      status := some "NEW", updated := .valid time }
  change :=
    { project := "p", changeNumber := predecessor + 1, currentRevision := "a"
      patchsetNumber := 1, status := "NEW", changeId := none
      updated := .valid time, revisionCreated := none }
  time
  positive := by dsimp only; omega
  bounded
  numbered := rfl
  dated := rfl
  parsed := by
    let revision : RevisionInfo := { number := some 1 }
    have text : ∀ value message, value ≠ "" →
        requiredString (some value) message = .ok value := by
      intro value message nonempty
      simp [requiredString, optionalString, truthy, nonempty]
    have patchset : requiredPositiveInt (some 1) "_number" = .ok 1 := rfl
    have current : Dict.get? [("a", some revision)] "a" = some (some revision) := by
      simp [Dict.get?]
    have absent : optionalString none = none := rfl
    have undated : gerritTimestamp .missing = none := rfl
    simp only [parseChange, text _ _ (show "a" ≠ "" by decide),
      text _ _ (show "NEW" ≠ "" by decide), patchset, current, absent, undated,
      revision, Except.ok_bind, decide_true, Bool.and_self, Except.require, if_true]

/-- One nanosecond after a full second. -/
def firstNanosecond : GerritTimestamp :=
  { base := 63925131662, nanoseconds := 1, bounded := by decide, representable := by decide }

theorem firstNanosecond_hasBoundary : firstNanosecond.hasBoundary = true := by
  decide

/-- Two changes within one millisecond. -/
def twoChanges : List StoredChange :=
  [plainChange 0 firstNanosecond firstNanosecond_hasBoundary,
    plainChange 1
      { base := 63925131662, nanoseconds := 2, bounded := by decide,
        representable := by decide } (by decide)]

/-- The two changes come on two pages, with one boundary between them. -/
theorem queryRecentOpenChanges_two :
    (∀ query ∈ recentQueries (newestFirst twoChanges fun _ _ => true) 1 ["p"] none none 3,
      query.text.utf8ByteSize ≤ 64000) ∧
    ∃ parts : List (List StoredChange),
      queryRecentOpenChanges (newestFirst twoChanges fun _ _ => true) 1 ["p"] none none 3 =
        some (.ok (parts.flatten.map StoredChange.change)) ∧
      List.Forall₂ (fun part project =>
        part.Perm
          (openChanges twoChanges (fun _ _ => true) project
            (cutoffSeconds none none project))) parts ["p"] := by
  have short : (recentQueries (newestFirst twoChanges fun _ _ => true) 1 ["p"] none none 3).all
      (fun query => query.text.utf8ByteSize ≤ 64000) = true := by
    decide +kernel
  have serves : Serves twoChanges (fun _ _ => true) (newestFirst twoChanges fun _ _ => true) :=
    newestFirst_serves (by decide)
  have positive : (1 : Int) ≤ 1 := by decide
  have enough : twoChanges.length < 3 := by decide
  rcases queryRecentOpenChanges_complete serves positive ["p"] none none ⟨rfl, nofun⟩ enough
    with ⟨_, query, member, long⟩ | complete
  · have few := of_decide_eq_true (List.all_eq_true.mp short query member)
    omega
  · exact complete

end PeReview
