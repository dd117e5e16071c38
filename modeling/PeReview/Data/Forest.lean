import Mathlib.Algebra.Order.Group.Multiset
import Mathlib.Data.List.Nodup
import Mathlib.Data.Multiset.Fold

/-!
# Forests whose items are divided on demand

A forest is given by its roots and by a function that divides an item into parts.
Which items have been divided so far is a set of keys; what that set leaves whole,
from the roots down, are the leaves of the moment.
-/

namespace PeReview.Data

/-- The roots, the parts an item divides into if it can be divided, and the key an
item is known by. -/
structure Forest (Item Key : Type) where
  roots : List Item
  parts : Item → Option (List Item)
  key : Item → Key

namespace Forest

variable {Item Key : Type} (forest : Forest Item Key)

/-- The item at a path: the positions from the item up to its root. -/
inductive Node : List Nat → Item → Prop
  | root {position : Nat} {item : Item}
      (found : forest.roots[position]? = some item) : Node [position] item
  | part {path : List Nat} {parent : Item} {items : List Item} {position : Nat}
      {item : Item} (above : Node path parent)
      (divides : forest.parts parent = some items)
      (found : items[position]? = some item) : Node (position :: path) item

/-- No two places of the forest share a key. -/
def Distinct : Prop :=
  ∀ {first second : List Nat} {left right : Item},
    forest.Node first left → forest.Node second right →
      forest.key left = forest.key right → first = second

/-- An item at a path all of whose ancestors are divided. -/
inductive Exposed (divided : Key → Prop) : List Nat → Item → Prop
  | root {position : Nat} {item : Item}
      (found : forest.roots[position]? = some item) :
      Exposed divided [position] item
  | part {path : List Nat} {parent : Item} {items : List Item} {position : Nat}
      {item : Item} (above : Exposed divided path parent)
      (done : divided (forest.key parent))
      (divides : forest.parts parent = some items)
      (found : items[position]? = some item) :
      Exposed divided (position :: path) item

/-- The leaves below a list of items, in order. -/
inductive Leaves (divided : Key → Prop) : List Item → List Item → Prop
  | nil : Leaves divided [] []
  | whole {item : Item} {rest leaves : List Item}
      (undivided : ¬divided (forest.key item))
      (below : Leaves divided rest leaves) :
      Leaves divided (item :: rest) (item :: leaves)
  | split {item : Item} {items rest leaves : List Item}
      (done : divided (forest.key item))
      (divides : forest.parts item = some items)
      (below : Leaves divided (items ++ rest) leaves) :
      Leaves divided (item :: rest) leaves

variable {forest}

theorem Node.unique {path : List Nat} {left right : Item}
    (first : forest.Node path left) (second : forest.Node path right) :
    left = right := by
  induction first generalizing right with
  | root found =>
      cases second with
      | root other =>
          exact Option.some.inj (found.symm.trans other)
      | part above divides other =>
          cases above
  | part above divides found inductionHypothesis =>
      cases second with
      | root other =>
          cases above
      | part otherAbove otherDivides other =>
          cases inductionHypothesis otherAbove
          cases Option.some.inj (divides.symm.trans otherDivides)
          exact Option.some.inj (found.symm.trans other)

theorem Exposed.node {divided : Key → Prop} {path : List Nat} {item : Item}
    (exposed : forest.Exposed divided path item) : forest.Node path item := by
  induction exposed with
  | root found =>
      exact .root found
  | part above done divides found inductionHypothesis =>
      exact .part inductionHypothesis divides found

theorem Exposed.mono {divided later : Key → Prop}
    (grows : ∀ key, divided key → later key) {path : List Nat} {item : Item}
    (exposed : forest.Exposed divided path item) :
    forest.Exposed later path item := by
  induction exposed with
  | root found =>
      exact .root found
  | part above done divides found inductionHypothesis =>
      exact .part inductionHypothesis (grows _ done) divides found

/-- The item above an exposed one is divided. -/
theorem Exposed.above {divided : Key → Prop} {path : List Nat} {position : Nat}
    {parent item : Item}
    (exposed : forest.Exposed divided (position :: path) item)
    (node : forest.Node path parent) :
    divided (forest.key parent) := by
  cases exposed with
  | root found =>
      cases node
  | part above done divides found =>
      cases above.node.unique node
      exact done

/-- Items side by side have different keys. -/
theorem Distinct.nodup (distinct : forest.Distinct) {path : List Nat}
    {items : List Item}
    (places : ∀ position item, items[position]? = some item →
      forest.Node (position :: path) item) :
    (items.map forest.key).Nodup := by
  rw [List.nodup_iff_getElem?_ne_getElem?]
  intro first second before inside same
  rw [List.length_map] at inside
  rw [List.getElem?_map, List.getElem?_map,
    List.getElem?_eq_getElem inside,
    List.getElem?_eq_getElem (before.trans inside)] at same
  have paths :=
    distinct
      (places first _ (List.getElem?_eq_getElem (before.trans inside)))
      (places second _ (List.getElem?_eq_getElem inside))
      (Option.some.inj same)
  exact absurd (List.cons.inj paths).1 (Nat.ne_of_lt before)

theorem Distinct.path_eq (distinct : forest.Distinct) {first second : List Nat}
    {item : Item} (atFirst : forest.Node first item)
    (atSecond : forest.Node second item) : first = second :=
  distinct atFirst atSecond rfl

/-- A cut through the forest: exposed items with different keys, none of which lies
below another. -/
structure Cut (forest : Forest Item Key) (divided : Key → Prop)
    (items : Multiset Item) : Prop where
  exposed : ∀ item ∈ items, ∃ path, forest.Exposed divided path item
  single : (items.map forest.key).Nodup
  apart : ∀ left ∈ items, ∀ right ∈ items, ∀ above below,
    forest.Node above left → forest.Node below right →
      above <:+ below → above = below

namespace Cut

variable {divided : Key → Prop}

/-- The roots are a cut. -/
theorem roots (distinct : forest.Distinct) :
    forest.Cut divided forest.roots where
  exposed := by
    intro item member
    obtain ⟨position, found⟩ := List.mem_iff_getElem?.mp member
    exact ⟨[position], .root found⟩
  single := by
    rw [Multiset.map_coe, Multiset.coe_nodup]
    exact distinct.nodup fun position item found => .root found
  apart := by
    intro left isLeft right isRight above below atLeft atRight ends
    obtain ⟨first, foundFirst⟩ := List.mem_iff_getElem?.mp isLeft
    obtain ⟨second, foundSecond⟩ := List.mem_iff_getElem?.mp isRight
    cases distinct.path_eq atLeft (.root foundFirst)
    cases distinct.path_eq atRight (.root foundSecond)
    exact ends.eq_of_length rfl

theorem mono {later : Key → Prop} (grows : ∀ key, divided key → later key)
    {items : Multiset Item} (cut : forest.Cut divided items) :
    forest.Cut later items where
  exposed := by
    intro item member
    obtain ⟨path, exposed⟩ := cut.exposed item member
    exact ⟨path, exposed.mono grows⟩
  single := cut.single
  apart := cut.apart

/-- In a cut a key stands for one item. -/
theorem not_mem {item other : Item} {others : Multiset Item}
    (cut : forest.Cut divided (item ::ₘ others)) (member : other ∈ others) :
    forest.key other ≠ forest.key item := by
  intro same
  have single := cut.single
  rw [Multiset.map_cons, Multiset.nodup_cons] at single
  exact single.1 (same ▸ Multiset.mem_map_of_mem forest.key member)

/-- Replacing an item by its parts gives a cut. -/
theorem divide (distinct : forest.Distinct) {item : Item} {parts : List Item}
    {others : Multiset Item} (cut : forest.Cut divided (item ::ₘ others))
    (done : divided (forest.key item))
    (divides : forest.parts item = some parts) :
    forest.Cut divided (↑parts + others) := by
  obtain ⟨path, exposed⟩ := cut.exposed item (Multiset.mem_cons_self _ _)
  have isPart : ∀ part ∈ parts, ∃ position,
      forest.Exposed divided (position :: path) part := by
    intro part member
    obtain ⟨position, found⟩ := List.mem_iff_getElem?.mp member
    exact ⟨position, .part exposed done divides found⟩
  -- Nothing else in the cut lies on the path to a part.
  have away : ∀ other ∈ others, ∀ below, forest.Node below other →
      ∀ position, ¬below <:+ position :: path ∧ ¬position :: path <:+ below := by
    intro other member below atOther position
    have known : other ∈ item ::ₘ others := Multiset.mem_cons_of_mem member
    have self := Multiset.mem_cons_self item others
    constructor
    · intro ends
      rcases List.suffix_cons_iff.mp ends with same | above
      · have upper : path <:+ below := same ▸ List.suffix_cons position path
        have equal :=
          cut.apart item self other known path below exposed.node atOther upper
        rw [same] at equal
        exact absurd (congrArg List.length equal) (by simp)
      · have equal :=
          cut.apart other known item self below path atOther exposed.node above
        cases equal
        exact cut.not_mem member (congrArg forest.key (atOther.unique exposed.node))
    · intro ends
      have upper := (List.suffix_cons position path).trans ends
      have equal :=
        cut.apart item self other known path below exposed.node atOther upper
      rw [← equal] at ends
      exact absurd ends.length_le (by simp)
  refine ⟨?_, ?_, ?_⟩
  · intro other member
    rcases Multiset.mem_add.mp member with part | old
    · obtain ⟨position, below⟩ := isPart other part
      exact ⟨_, below⟩
    · exact cut.exposed other (Multiset.mem_cons_of_mem old)
  · rw [Multiset.map_add, Multiset.nodup_add]
    have single := cut.single
    rw [Multiset.map_cons, Multiset.nodup_cons] at single
    refine ⟨?_, single.2, ?_⟩
    · rw [Multiset.map_coe, Multiset.coe_nodup]
      exact distinct.nodup fun position part found =>
        .part exposed.node divides found
    · rw [Multiset.disjoint_left]
      intro key ofPart ofOther
      obtain ⟨part, isIn, keyPart⟩ := Multiset.mem_map.mp ofPart
      obtain ⟨other, old, keyOther⟩ := Multiset.mem_map.mp ofOther
      obtain ⟨position, below⟩ := isPart part isIn
      obtain ⟨at_, otherExposed⟩ :=
        cut.exposed other (Multiset.mem_cons_of_mem old)
      have same := distinct otherExposed.node below.node
        (keyOther.trans keyPart.symm)
      exact (away other old at_ otherExposed.node position).1
        (same ▸ List.suffix_rfl)
  · intro left isLeft right isRight above below atLeft atRight ends
    rcases Multiset.mem_add.mp isLeft with leftPart | leftOld
    · obtain ⟨first, leftBelow⟩ := isPart left leftPart
      cases distinct.path_eq atLeft leftBelow.node
      rcases Multiset.mem_add.mp isRight with rightPart | rightOld
      · obtain ⟨second, rightBelow⟩ := isPart right rightPart
        cases distinct.path_eq atRight rightBelow.node
        exact ends.eq_of_length rfl
      · exact absurd ends (away right rightOld below atRight first).2
    · rcases Multiset.mem_add.mp isRight with rightPart | rightOld
      · obtain ⟨second, rightBelow⟩ := isPart right rightPart
        cases distinct.path_eq atRight rightBelow.node
        exact absurd ends (away left leftOld above atLeft second).1
      · exact cut.apart left (Multiset.mem_cons_of_mem leftOld) right
          (Multiset.mem_cons_of_mem rightOld) above below atLeft atRight ends

end Cut

namespace Leaves

variable {divided : Key → Prop} {items leaves others : List Item}

theorem unique (first : forest.Leaves divided items leaves)
    (second : forest.Leaves divided items others) : leaves = others := by
  induction first generalizing others with
  | nil =>
      cases second
      rfl
  | whole undivided below inductionHypothesis =>
      cases second with
      | whole _ otherBelow =>
          rw [inductionHypothesis otherBelow]
      | split done _ _ =>
          exact absurd done undivided
  | split done divides below inductionHypothesis =>
      cases second with
      | whole undivided _ =>
          exact absurd done undivided
      | split _ otherDivides otherBelow =>
          cases Option.some.inj (divides.symm.trans otherDivides)
          exact inductionHypothesis otherBelow

/-- Items none of which is divided are their own leaves. -/
theorem of_undivided (whole : ∀ item ∈ items, ¬divided (forest.key item)) :
    forest.Leaves divided items items := by
  induction items with
  | nil =>
      exact .nil
  | cons item rest inductionHypothesis =>
      rw [List.forall_mem_cons] at whole
      exact .whole whole.1 (inductionHypothesis whole.2)

theorem append {more further : List Item}
    (first : forest.Leaves divided items leaves)
    (second : forest.Leaves divided more further) :
    forest.Leaves divided (items ++ more) (leaves ++ further) := by
  induction first with
  | nil =>
      exact second
  | whole undivided below inductionHypothesis =>
      exact .whole undivided inductionHypothesis
  | split done divides below inductionHypothesis =>
      rw [List.append_assoc] at inductionHypothesis
      exact .split done divides inductionHypothesis

/-- Content that a division only regroups is the content of the leaves. -/
theorem flatMap_eq {Content : Type} {content : Item → List Content}
    (regroups : ∀ item parts, forest.parts item = some parts →
      parts.flatMap content = content item)
    (below : forest.Leaves divided items leaves) :
    leaves.flatMap content = items.flatMap content := by
  induction below with
  | nil =>
      rfl
  | whole undivided below inductionHypothesis =>
      rw [List.flatMap_cons, List.flatMap_cons, inductionHypothesis]
  | split done divides below inductionHypothesis =>
      rw [inductionHypothesis, List.flatMap_append, List.flatMap_cons,
        regroups _ _ divides]

/-- The leaves depend on the divided keys of the forest only through which of them
are divided. -/
theorem congr {later : Key → Prop} (same : ∀ key, divided key ↔ later key)
    (below : forest.Leaves divided items leaves) :
    forest.Leaves later items leaves := by
  induction below with
  | nil =>
      exact .nil
  | whole undivided below inductionHypothesis =>
      exact .whole ((same _).not.mp undivided) inductionHypothesis
  | split done divides below inductionHypothesis =>
      exact .split ((same _).mp done) divides inductionHypothesis

/-- Dividing one leaf puts its parts in its place. -/
theorem divide [DecidableEq Key] {item : Item} {parts : List Item}
    (below : forest.Leaves divided items leaves)
    (unique : ∀ leaf ∈ leaves, forest.key leaf = forest.key item → leaf = item)
    (divides : forest.parts item = some parts)
    (fresh : ∀ part ∈ parts,
      ¬(divided (forest.key part) ∨ forest.key part = forest.key item)) :
    forest.Leaves (fun key => divided key ∨ key = forest.key item) items
      (leaves.flatMap fun leaf =>
        if forest.key leaf = forest.key item then parts else [leaf]) := by
  induction below with
  | nil =>
      exact .nil
  | @whole leaf rest later undivided below inductionHypothesis =>
      rw [List.forall_mem_cons] at unique
      have after := inductionHypothesis unique.2
      rw [List.flatMap_cons]
      split
      · rename_i same
        cases unique.1 same
        exact .split (.inr rfl) divides ((of_undivided fresh).append after)
      · rename_i different
        refine .whole ?_ after
        rintro (already | same)
        · exact undivided already
        · exact different same
  | split done divides' below inductionHypothesis =>
      exact .split (.inl done) divides' (inductionHypothesis unique)

/-- The leaves below two lists are those below the first and those below the
second. -/
theorem of_append {more : List Item}
    (below : forest.Leaves divided (items ++ more) leaves) :
    ∃ first second, forest.Leaves divided items first ∧
      forest.Leaves divided more second ∧ leaves = first ++ second := by
  generalize all_eq : items ++ more = all at below
  induction below generalizing items with
  | nil =>
      obtain ⟨rfl, rfl⟩ := List.append_eq_nil_iff.mp all_eq
      exact ⟨[], [], .nil, .nil, rfl⟩
  | @whole item rest later undivided below inductionHypothesis =>
      cases items with
      | nil =>
          cases all_eq
          exact ⟨[], _, .nil, .whole undivided below, rfl⟩
      | cons head items =>
          obtain ⟨rfl, tails⟩ := List.cons.inj all_eq
          obtain ⟨first, second, atFirst, atSecond, rfl⟩ := inductionHypothesis tails
          exact ⟨head :: first, second, .whole undivided atFirst, atSecond, rfl⟩
  | @split item parts rest later done divides below inductionHypothesis =>
      cases items with
      | nil =>
          cases all_eq
          exact ⟨[], _, .nil, .split done divides below, rfl⟩
      | cons head items =>
          obtain ⟨rfl, rfl⟩ := List.cons.inj all_eq
          obtain ⟨first, second, atFirst, atSecond, rfl⟩ :=
            inductionHypothesis (List.append_assoc parts items more)
          exact ⟨first, second, .split done divides atFirst, atSecond, rfl⟩

/-- What is below an item of a list is below the list. -/
theorem of_mem {item : Item} (below : forest.Leaves divided items leaves)
    (member : item ∈ items) :
    ∃ own, forest.Leaves divided [item] own ∧ own ⊆ leaves := by
  obtain ⟨before, after, rfl⟩ := List.append_of_mem member
  obtain ⟨first, others, _, atOthers, rfl⟩ := below.of_append
  have atBoth : forest.Leaves divided ([item] ++ after) others := atOthers
  obtain ⟨own, later, atItem, _, rfl⟩ := atBoth.of_append
  refine ⟨own, atItem, ?_⟩
  intro leaf isOwn
  exact List.mem_append_right first (List.mem_append_left later isOwn)

/-- What is below an exposed item is below the roots. -/
theorem of_exposed {path : List Nat} {item : Item}
    (below : forest.Leaves divided forest.roots leaves)
    (exposed : forest.Exposed divided path item) :
    ∃ own, forest.Leaves divided [item] own ∧ own ⊆ leaves := by
  induction exposed with
  | root found =>
      exact below.of_mem (List.mem_of_getElem? found)
  | part above done divides found inductionHypothesis =>
      obtain ⟨own, atParent, inside⟩ := inductionHypothesis
      cases atParent with
      | whole undivided _ =>
          exact absurd done undivided
      | split _ otherDivides atParts =>
          cases Option.some.inj (divides.symm.trans otherDivides)
          rw [List.append_nil] at atParts
          obtain ⟨part, atItem, belowParent⟩ :=
            atParts.of_mem (List.mem_of_getElem? found)
          exact ⟨part, atItem, List.Subset.trans belowParent inside⟩

/-- An exposed item that is not divided is a leaf. -/
theorem mem_of_exposed {path : List Nat} {item : Item}
    (below : forest.Leaves divided forest.roots leaves)
    (exposed : forest.Exposed divided path item)
    (undivided : ¬divided (forest.key item)) : item ∈ leaves := by
  obtain ⟨own, atItem, inside⟩ := below.of_exposed exposed
  cases atItem with
  | whole _ rest =>
      exact inside List.mem_cons_self
  | split done _ _ =>
      exact absurd done undivided

/-- The roots are items of the forest. -/
theorem node_of_root {item : Item} (member : item ∈ forest.roots) :
    ∃ path, forest.Node path item := by
  obtain ⟨position, found⟩ := List.mem_iff_getElem?.mp member
  exact ⟨[position], .root found⟩

/-- Leaves depend only on which items of the forest are divided. -/
theorem congr_nodes {later : Key → Prop}
    (same : ∀ path item, forest.Node path item →
      (divided (forest.key item) ↔ later (forest.key item)))
    (below : forest.Leaves divided items leaves)
    (places : ∀ item ∈ items, ∃ path, forest.Node path item) :
    forest.Leaves later items leaves := by
  induction below with
  | nil =>
      exact .nil
  | whole undivided below inductionHypothesis =>
      rw [List.forall_mem_cons] at places
      obtain ⟨⟨path, node⟩, others⟩ := places
      exact .whole ((same _ _ node).not.mp undivided) (inductionHypothesis others)
  | split done divides below inductionHypothesis =>
      rw [List.forall_mem_cons] at places
      obtain ⟨⟨path, node⟩, others⟩ := places
      refine .split ((same _ _ node).mp done) divides (inductionHypothesis ?_)
      intro item member
      rcases List.mem_append.mp member with part | other
      · obtain ⟨position, found⟩ := List.mem_iff_getElem?.mp part
        exact ⟨position :: path, .part node divides found⟩
      · exact others item other

end Leaves

end Forest

end PeReview.Data
