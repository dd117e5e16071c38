import Mathlib.Data.Multiset.Bind
import Mathlib.Logic.Function.Basic
import PeReview.Data.Forest

/-!
# A pool that works through a forest

Items of a forest are taken up, settled with a status or divided into their parts.
The statuses are kept, so that another pool can go on from them: it first unfolds
what was divided before.  Whatever the order of the steps, the items that are open
and those that are settled are together the leaves of the forest.
-/

namespace PeReview.Process

open PeReview.Data

@[ext]
structure WorkPool (Item Key Status : Type) where
  /-- Items whose status from earlier has not been looked up yet. -/
  unread : List Item
  /-- Items to be worked on. -/
  open_ : Multiset Item
  settled : Multiset (Item × Status)
  status : Key → Option Status

namespace WorkPool

variable {Item Key Status : Type}

/-- What a pool does: `split` is the status of a divided item. -/
inductive Step [DecidableEq Key] (forest : Forest Item Key) (split : Status)
    (pool : WorkPool Item Key Status) : WorkPool Item Key Status → Prop
  | stay : Step forest split pool pool
  | take (item : Item) (rest : List Item) (first : pool.unread = item :: rest)
      (unknown : pool.status (forest.key item) = none) :
      Step forest split pool
        { pool with unread := rest, open_ := item ::ₘ pool.open_ }
  | reuse (item : Item) (rest : List Item) (status : Status)
      (first : pool.unread = item :: rest)
      (known : pool.status (forest.key item) = some status)
      (whole : status ≠ split) :
      Step forest split pool
        { pool with
          unread := rest
          settled := (item, status) ::ₘ pool.settled }
  | unfold_ (item : Item) (rest parts : List Item)
      (first : pool.unread = item :: rest)
      (known : pool.status (forest.key item) = some split)
      (divides : forest.parts item = some parts) :
      Step forest split pool { pool with unread := parts ++ rest }
  | settle (item : Item) (others : Multiset Item) (status : Status)
      (read : pool.unread = []) (working : pool.open_ = item ::ₘ others)
      (whole : status ≠ split) :
      Step forest split pool
        { pool with
          open_ := others
          settled := (item, status) ::ₘ pool.settled
          status :=
            Function.update pool.status (forest.key item) (some status) }
  | divide (item : Item) (others : Multiset Item) (parts : List Item)
      (read : pool.unread = []) (working : pool.open_ = item ::ₘ others)
      (divides : forest.parts item = some parts) :
      Step forest split pool
        { pool with
          open_ := ↑parts + others
          status :=
            Function.update pool.status (forest.key item) (some split) }

variable (forest : Forest Item Key) (split : Status)

def Divided (status : Key → Option Status) (key : Key) : Prop :=
  status key = some split

/-- Below an item that is not divided nothing has a status. -/
def Closed (status : Key → Option Status) : Prop :=
  ∀ {path : List Nat} {parent : Item} {parts : List Item} {position : Nat}
    {part : Item}, forest.Node path parent → forest.parts parent = some parts →
      parts[position]? = some part → status (forest.key part) ≠ none →
        Divided split status (forest.key parent)

/-- Every item with a status is exposed. -/
theorem Closed.exposed {forest : Forest Item Key} {split : Status}
    {status : Key → Option Status} (closed : Closed forest split status)
    {path : List Nat} {item : Item} (node : forest.Node path item)
    (marked : status (forest.key item) ≠ none) :
    forest.Exposed (Divided split status) path item := by
  induction node with
  | root found =>
      exact .root found
  | part above divides found inductionHypothesis =>
      have done := closed above divides found marked
      refine .part (inductionHypothesis ?_) done divides found
      rw [show status _ = some split from done]
      exact Option.some_ne_none split

/-- Closedness depends only on the statuses of the items. -/
theorem Closed.congr {forest : Forest Item Key} {split : Status}
    {status later : Key → Option Status}
    (same : ∀ path item, forest.Node path item →
      later (forest.key item) = status (forest.key item))
    (closed : Closed forest split status) : Closed forest split later := by
  intro path parent parts position part above divides found marked
  rw [same _ _ (.part above divides found)] at marked
  unfold Divided
  rw [same _ _ above]
  exact closed above divides found marked

/-- The leaves of a forest, in order, when they are all done: they are the items
with that status. -/
structure Finished (done : Status) (status : Key → Option Status)
    (leaves : List Item) : Prop where
  below : forest.Leaves (Divided split status) forest.roots leaves
  done : ∀ path item, forest.Node path item →
    (status (forest.key item) = some done ↔ item ∈ leaves)

theorem finished_of_leaves {forest : Forest Item Key} {split done : Status}
    {status : Key → Option Status} {leaves : List Item} (whole : done ≠ split)
    (closed : Closed forest split status)
    (below : forest.Leaves (Divided split status) forest.roots leaves)
    (marked : ∀ leaf ∈ leaves, status (forest.key leaf) = some done) :
    Finished forest split done status leaves where
  below := below
  done := by
    intro path item node
    constructor
    · intro isDone
      have undivided : ¬Divided split status (forest.key item) := by
        simp [Divided, isDone, whole]
      have known : status (forest.key item) ≠ none := by
        simp [isDone]
      exact below.mem_of_exposed (closed.exposed node known) undivided
    · intro member
      exact marked item member

theorem Finished.congr {forest : Forest Item Key} {split done : Status}
    {status later : Key → Option Status} {leaves : List Item}
    (same : ∀ path item, forest.Node path item →
      later (forest.key item) = status (forest.key item))
    (finished : Finished forest split done status leaves) :
    Finished forest split done later leaves where
  below := by
    refine finished.below.congr_nodes ?_ fun _ => Forest.Leaves.node_of_root
    intro path item node
    unfold Divided
    rw [same path item node]
  done := by
    intro path item node
    rw [same path item node]
    exact finished.done path item node

def items (pool : WorkPool Item Key Status) : Multiset Item :=
  ↑pool.unread + pool.open_ + pool.settled.map Prod.fst

structure Sound (pool : WorkPool Item Key Status) : Prop where
  cut : forest.Cut (Divided split pool.status) pool.items
  fresh : ∀ item ∈ pool.open_, pool.status (forest.key item) = none
  marked : ∀ entry ∈ pool.settled,
    pool.status (forest.key entry.1) = some entry.2 ∧ entry.2 ≠ split
  closed : Closed forest split pool.status
  /-- Together with the leaves below what is unread, the items in hand are the
  leaves of the forest. -/
  covered : ∀ leaves,
    forest.Leaves (Divided split pool.status) pool.unread leaves →
      ∃ all, forest.Leaves (Divided split pool.status) forest.roots all ∧
        (all : Multiset Item) =
          ↑leaves + pool.open_ + pool.settled.map Prod.fst

variable {forest split}

/-- Nothing is lost and nothing is duplicated. -/
theorem Sound.conserved {pool : WorkPool Item Key Status}
    (sound : Sound forest split pool) (read : pool.unread = []) :
    ∃ all, forest.Leaves (Divided split pool.status) forest.roots all ∧
      (all : Multiset Item) = pool.open_ + pool.settled.map Prod.fst := by
  obtain ⟨all, leaves, same⟩ := sound.covered [] (by rw [read]; exact .nil)
  rw [Multiset.coe_nil, zero_add] at same
  exact ⟨all, leaves, same⟩

/-- A pool that takes up the roots of a forest is sound. -/
theorem sound_start (distinct : forest.Distinct)
    {status : Key → Option Status} (closed : Closed forest split status) :
    Sound forest split
      { unread := forest.roots, open_ := 0, settled := 0, status } where
  cut := by
    simpa only [items, Multiset.map_zero, add_zero] using Forest.Cut.roots distinct
  fresh := by
    intro item member
    exact absurd member (Multiset.notMem_zero item)
  marked := by
    intro entry member
    exact absurd member (Multiset.notMem_zero entry)
  closed := closed
  covered := by
    intro leaves below
    refine ⟨leaves, below, ?_⟩
    simp

section Steps

variable {pool : WorkPool Item Key Status} (sound : Sound forest split pool)

include sound

/-- Taking up an item that has no status. -/
theorem Sound.take {item : Item} {rest : List Item}
    (first : pool.unread = item :: rest)
    (unknown : pool.status (forest.key item) = none) :
    Sound forest split
      { pool with unread := rest, open_ := item ::ₘ pool.open_ } := by
  have same :
      ({ pool with unread := rest, open_ := item ::ₘ pool.open_ } :
        WorkPool Item Key Status).items = pool.items := by
    simp only [items, first, ← Multiset.cons_coe, Multiset.cons_add,
      Multiset.add_cons]
  refine
    { cut := by rw [same]; exact sound.cut
      fresh := ?_
      marked := sound.marked
      closed := sound.closed
      covered := ?_ }
  · intro other member
    rcases Multiset.mem_cons.mp member with rfl | old
    · exact unknown
    · exact sound.fresh other old
  · intro leaves below
    have undivided : ¬Divided split pool.status (forest.key item) := by
      simp [Divided, unknown]
    obtain ⟨all, under, total⟩ :=
      sound.covered (item :: leaves) (by rw [first]; exact .whole undivided below)
    refine ⟨all, under, ?_⟩
    rw [total, ← Multiset.cons_coe, Multiset.cons_add, Multiset.add_cons]

/-- Reading the status of an item that was settled before. -/
theorem Sound.reuse {item : Item} {rest : List Item} {status : Status}
    (first : pool.unread = item :: rest)
    (known : pool.status (forest.key item) = some status)
    (whole : status ≠ split) :
    Sound forest split
      { pool with
        unread := rest
        settled := (item, status) ::ₘ pool.settled } := by
  have same :
      ({ pool with
          unread := rest
          settled := (item, status) ::ₘ pool.settled } :
        WorkPool Item Key Status).items = pool.items := by
    simp only [items, first, ← Multiset.cons_coe, Multiset.cons_add,
      Multiset.map_cons, Multiset.add_cons]
  refine
    { cut := by rw [same]; exact sound.cut
      fresh := sound.fresh
      marked := ?_
      closed := sound.closed
      covered := ?_ }
  · intro entry member
    rcases Multiset.mem_cons.mp member with rfl | old
    · exact ⟨known, whole⟩
    · exact sound.marked entry old
  · intro leaves below
    have undivided : ¬Divided split pool.status (forest.key item) := by
      simpa [Divided, known] using whole
    obtain ⟨all, under, total⟩ :=
      sound.covered (item :: leaves) (by rw [first]; exact .whole undivided below)
    refine ⟨all, under, ?_⟩
    rw [total, ← Multiset.cons_coe, Multiset.cons_add, Multiset.map_cons,
      Multiset.add_cons, Multiset.cons_add]

/-- Unfolding an item that was divided before. -/
theorem Sound.unfold_ (distinct : forest.Distinct) {item : Item}
    {rest parts : List Item}
    (first : pool.unread = item :: rest)
    (known : pool.status (forest.key item) = some split)
    (divides : forest.parts item = some parts) :
    Sound forest split { pool with unread := parts ++ rest } := by
  let others := ↑rest + pool.open_ + pool.settled.map Prod.fst
  have before : pool.items = item ::ₘ others := by
    simp only [others, items, first, ← Multiset.cons_coe, Multiset.cons_add]
  have after :
      ({ pool with unread := parts ++ rest } : WorkPool Item Key Status).items =
        ↑parts + others := by
    simp only [others, items, ← Multiset.coe_add, add_assoc]
  refine
    { cut := ?_
      fresh := sound.fresh
      marked := sound.marked
      closed := sound.closed
      covered := ?_ }
  · rw [after]
    exact Forest.Cut.divide distinct (before ▸ sound.cut) known divides
  · intro leaves below
    exact sound.covered leaves (by rw [first]; exact .split known divides below)

section Working

variable [DecidableEq Key] {item : Item} {others : Multiset Item}
  (read : pool.unread = []) (working : pool.open_ = item ::ₘ others)

include read working

omit sound [DecidableEq Key] in
/-- The items in hand, with the one that is worked on in front. -/
theorem items_eq :
    pool.items = item ::ₘ (others + pool.settled.map Prod.fst) := by
  simp only [items, read, working, Multiset.coe_nil, zero_add, Multiset.cons_add]

omit [DecidableEq Key] read in
theorem Sound.unmarked : pool.status (forest.key item) = none :=
  sound.fresh item (by rw [working]; exact Multiset.mem_cons_self item others)

/-- A status for the item that is worked on changes no other one in hand. -/
theorem Sound.update_other {other : Item} (status : Option Status)
    (member : other ∈ others + pool.settled.map Prod.fst) :
    Function.update pool.status (forest.key item) status (forest.key other) =
      pool.status (forest.key other) := by
  refine Function.update_of_ne ?_ _ _
  exact Forest.Cut.not_mem (items_eq read working ▸ sound.cut) member

/-- Below an item that is not divided nothing has a status, also with a status for
the item that is worked on. -/
theorem Sound.closed_update (distinct : forest.Distinct) (status : Status)
    (grows : ∀ key, Divided split pool.status key →
      Divided split (Function.update pool.status (forest.key item) (some status))
        key) :
    Closed forest split
      (Function.update pool.status (forest.key item) (some status)) := by
  intro path parent parts position part above divides found marked
  refine grows _ ?_
  by_cases same : forest.key part = forest.key item
  · have inHand : item ∈ pool.items := by
      rw [items_eq read working]
      exact Multiset.mem_cons_self _ _
    obtain ⟨place, exposed⟩ := sound.cut.exposed item inHand
    cases distinct (.part above divides found) exposed.node same
    exact exposed.above above
  · rw [Function.update_of_ne same] at marked
    exact sound.closed above divides found marked

/-- Settling the item that is worked on. -/
theorem Sound.settle (distinct : forest.Distinct) {status : Status}
    (whole : status ≠ split) :
    Sound forest split
      { pool with
        open_ := others
        settled := (item, status) ::ₘ pool.settled
        status :=
          Function.update pool.status (forest.key item) (some status) } := by
  have unmarked := sound.unmarked working
  have divided : ∀ key, Divided split pool.status key ↔
      Divided split
        (Function.update pool.status (forest.key item) (some status)) key := by
    intro key
    by_cases same : key = forest.key item
    · simp [Divided, same, unmarked, whole]
    · simp [Divided, same]
  have same :
      ({ pool with
          open_ := others
          settled := (item, status) ::ₘ pool.settled
          status :=
            Function.update pool.status (forest.key item) (some status) } :
        WorkPool Item Key Status).items = pool.items := by
    rw [items_eq read working]
    simp only [items, read, Multiset.coe_nil, zero_add, Multiset.map_cons,
      Multiset.add_cons]
  refine
    { cut := ?_
      fresh := ?_
      marked := ?_
      closed :=
        sound.closed_update read working distinct status
          fun key => (divided key).mp
      covered := ?_ }
  · rw [same]
    exact sound.cut.mono fun key => (divided key).mp
  · intro other member
    have unchanged :=
      sound.update_other read working (some status)
        (Multiset.mem_add.mpr (.inl member))
    have idle : other ∈ pool.open_ := by
      rw [working]
      exact Multiset.mem_cons_of_mem member
    exact unchanged.trans (sound.fresh other idle)
  · intro entry member
    rcases Multiset.mem_cons.mp member with rfl | old
    · exact ⟨Function.update_self _ _ _, whole⟩
    · have unchanged :=
        sound.update_other read working (some status)
          (Multiset.mem_add.mpr
            (.inr (Multiset.mem_map_of_mem Prod.fst old)))
      obtain ⟨known, different⟩ := sound.marked entry old
      exact ⟨unchanged.trans known, different⟩
  · intro leaves below
    obtain ⟨all, under, total⟩ :=
      sound.covered leaves (below.congr fun key => (divided key).symm)
    refine ⟨all, under.congr divided, ?_⟩
    rw [total, working, Multiset.map_cons, Multiset.add_cons, Multiset.add_cons,
      Multiset.cons_add]

/-- Dividing the item that is worked on. -/
theorem Sound.divide (distinct : forest.Distinct) {parts : List Item}
    (divides : forest.parts item = some parts) :
    Sound forest split
      { pool with
        open_ := ↑parts + others
        status :=
          Function.update pool.status (forest.key item) (some split) } := by
  have unmarked := sound.unmarked working
  have divided : ∀ key,
      (Divided split pool.status key ∨ key = forest.key item) ↔
      Divided split
        (Function.update pool.status (forest.key item) (some split)) key := by
    intro key
    by_cases same : key = forest.key item
    · simp [Divided, same]
    · simp [Divided, same]
  have cut := items_eq read working ▸ sound.cut
  obtain ⟨path, exposed⟩ := cut.exposed item (Multiset.mem_cons_self _ _)
  have undivided : ¬Divided split pool.status (forest.key item) := by
    simp [Divided, unmarked]
  -- The parts are known to nobody yet, since their parent was whole.
  have unknown : ∀ part ∈ parts,
      pool.status (forest.key part) = none ∧
        forest.key part ≠ forest.key item := by
    intro part member
    obtain ⟨position, found⟩ := List.mem_iff_getElem?.mp member
    constructor
    · by_contra marked
      exact undivided (sound.closed exposed.node divides found marked)
    · intro same
      have paths := distinct (.part exposed.node divides found) exposed.node same
      exact absurd (congrArg List.length paths) (by simp)
  have after :
      ({ pool with
          open_ := ↑parts + others
          status :=
            Function.update pool.status (forest.key item) (some split) } :
        WorkPool Item Key Status).items =
        ↑parts + (others + pool.settled.map Prod.fst) := by
    simp only [items, read, Multiset.coe_nil, zero_add, add_assoc]
  refine
    { cut := ?_
      fresh := ?_
      marked := ?_
      closed :=
        sound.closed_update read working distinct split
          fun key already => (divided key).mp (.inl already)
      covered := ?_ }
  · rw [after]
    have later := cut.mono fun key already => (divided key).mp (.inl already)
    exact later.divide distinct ((divided _).mp (.inr rfl)) divides
  · intro other member
    rcases Multiset.mem_add.mp member with part | old
    · obtain ⟨unknown_, different⟩ := unknown other part
      exact (Function.update_of_ne different _ _).trans unknown_
    · have unchanged :=
        sound.update_other read working (some split)
          (Multiset.mem_add.mpr (.inl old))
      have idle : other ∈ pool.open_ := by
        rw [working]
        exact Multiset.mem_cons_of_mem old
      exact unchanged.trans (sound.fresh other idle)
  · intro entry member
    have unchanged :=
      sound.update_other read working (some split)
        (Multiset.mem_add.mpr
          (.inr (Multiset.mem_map_of_mem Prod.fst member)))
    obtain ⟨known, different⟩ := sound.marked entry member
    exact ⟨unchanged.trans known, different⟩
  · intro leaves below
    have none_ : leaves = [] := by
      rw [read] at below
      exact below.unique .nil
    obtain ⟨all, under, total⟩ := sound.conserved read
    rw [working, Multiset.cons_add] at total
    have unique : ∀ leaf ∈ all, forest.key leaf = forest.key item →
        leaf = item := by
      intro leaf member same
      have inHand : leaf ∈ item ::ₘ (others + pool.settled.map Prod.fst) := by
        rw [← total]
        exact member
      rcases Multiset.mem_cons.mp inHand with own | other
      · exact own
      · exact absurd same (cut.not_mem other)
    have fresh : ∀ part ∈ parts,
        ¬(Divided split pool.status (forest.key part) ∨
          forest.key part = forest.key item) := by
      intro part member
      obtain ⟨unknown_, different⟩ := unknown part member
      simp [Divided, unknown_, different]
    refine ⟨_, (under.divide unique divides fresh).congr divided, ?_⟩
    rw [← Multiset.coe_bind, total, Multiset.cons_bind, if_pos rfl, none_]
    have others_ :
        ((others + pool.settled.map Prod.fst).bind fun leaf =>
          ((if forest.key leaf = forest.key item then parts else [leaf] :
            List Item) : Multiset Item)) =
          others + pool.settled.map Prod.fst := by
      calc
        _ = (others + pool.settled.map Prod.fst).bind
            fun leaf => ({leaf} : Multiset Item) := by
          refine Multiset.bind_congr ?_
          intro leaf member
          rw [if_neg (cut.not_mem member)]
          rfl
        _ = others + pool.settled.map Prod.fst := by
          rw [Multiset.bind_singleton, Multiset.map_id']
    rw [others_, Multiset.coe_nil, zero_add, add_assoc]

end Working

/-- Every step keeps a pool sound. -/
theorem Sound.step [DecidableEq Key] (distinct : forest.Distinct)
    {target : WorkPool Item Key Status} (step : Step forest split pool target) :
    Sound forest split target := by
  cases step with
  | stay =>
      exact sound
  | take item rest first unknown =>
      exact sound.take first unknown
  | reuse item rest status first known whole =>
      exact sound.reuse first known whole
  | unfold_ item rest parts first known divides =>
      exact sound.unfold_ distinct first known divides
  | settle item others status read working whole =>
      exact sound.settle read working distinct whole
  | divide item others parts read working divides =>
      exact sound.divide read working distinct divides

end Steps

end WorkPool

end PeReview.Process
