import Mathlib.Data.List.Basic

/-!
# A line served in turn

The entry at the front of a line is served; then it goes back to the end or leaves, and new
entries join at the end only.  So whoever stands in the line is served after those ahead, each
of whom is served once.
-/

namespace PeReview.Process

variable {Entry : Type}

/-- One of two lists goes on where the other one ends. -/
def Agree (first second : List Entry) : Prop :=
  first <+: second ∨ second <+: first

structure Line (Entry : Type) where
  inService : Option Entry
  queue : List Entry

namespace Line

/-- How a line moves, and whose service begins; only entries that are gone leave. -/
inductive Moves (gone : Entry → Prop) : Line Entry → Line Entry → List Entry → Prop
  | stay (line : Line Entry) : Moves gone line line []
  | serve (queue arrivals rest : List Entry) (entry : Entry)
      (front : queue ++ arrivals = entry :: rest) :
      Moves gone ⟨none, queue⟩ ⟨some entry, rest⟩ [entry]
  | back (entry : Entry) (queue : List Entry) :
      Moves gone ⟨some entry, queue⟩ ⟨none, queue ++ [entry]⟩ []
  | leave (entry : Entry) (queue : List Entry) (isGone : gone entry) :
      Moves gone ⟨some entry, queue⟩ ⟨none, queue⟩ []

/-- Where an entry stands that was in service ahead of a queue, once some others have been
served. -/
inductive InTurn (entry : Entry) (queue : List Entry) (gone : Prop) :
    List Entry → Line Entry → Prop
  | first : InTurn entry queue gone [] ⟨some entry, queue⟩
  | waits (served ahead later : List Entry) (now : Option Entry)
      (order : queue = served ++ ahead) :
      InTurn entry queue gone served ⟨now, ahead ++ entry :: later⟩
  | again (served : List Entry) (line : Line Entry) (passed : queue ++ [entry] <+: served) :
      InTurn entry queue gone served line
  | left (isGone : gone) (served ahead later : List Entry) (now : Option Entry)
      (order : queue = served ++ ahead) :
      InTurn entry queue gone served ⟨now, ahead ++ later⟩
  | past (isGone : gone) (served : List Entry) (line : Line Entry)
      (passed : queue <+: served) :
      InTurn entry queue gone served line

namespace InTurn

variable {entry : Entry} {queue served : List Entry} {gone : Prop} {line : Line Entry}

theorem mono {later : Prop} (inTurn : InTurn entry queue gone served line)
    (stays : gone → later) : InTurn entry queue later served line := by
  cases inTurn with
  | first => exact .first
  | waits _ ahead after now order => exact .waits served ahead after now order
  | again _ _ passed => exact .again served line passed
  | left isGone _ ahead after now order =>
      exact .left (stays isGone) served ahead after now order
  | past isGone _ _ passed => exact .past (stays isGone) served line passed

/-- The turn of an entry comes nearer with every service. -/
theorem moves {gone : Entry → Prop} {next : Line Entry} {begun : List Entry}
    (inTurn : InTurn entry queue (gone entry) served line)
    (moved : Moves gone line next begun) :
    InTurn entry queue (gone entry) (served ++ begun) next := by
  cases moved with
  | stay =>
      rw [List.append_nil]
      exact inTurn
  | serve line arrivals rest other front =>
      cases inTurn with
      | waits _ ahead later now order =>
          cases ahead with
          | nil =>
              cases front
              rw [List.append_nil] at order
              exact .again _ _ (order ▸ List.prefix_refl _)
          | cons nearest ahead =>
              rw [List.cons_append, List.cons_append, List.cons.injEq] at front
              obtain ⟨rfl, rfl⟩ := front
              rw [List.append_assoc, List.cons_append]
              refine .waits _ ahead (later ++ arrivals) _ ?_
              rw [order, List.append_assoc]
              rfl
      | left isGone _ ahead later now order =>
          cases ahead with
          | nil =>
              rw [List.append_nil] at order
              refine .past isGone _ _ ?_
              rw [order]
              exact List.prefix_append _ _
          | cons nearest ahead =>
              rw [List.cons_append, List.cons_append, List.cons.injEq] at front
              obtain ⟨rfl, rfl⟩ := front
              rw [List.append_assoc]
              refine .left isGone _ ahead (later ++ arrivals) _ ?_
              rw [order, List.append_assoc]
              rfl
      | again _ _ passed => exact .again _ _ (passed.trans (List.prefix_append _ _))
      | past isGone _ _ passed => exact .past isGone _ _ (passed.trans (List.prefix_append _ _))
  | back other line =>
      rw [List.append_nil]
      cases inTurn with
      | first => exact .waits [] queue [] none rfl
      | waits _ ahead later now order =>
          rw [List.append_assoc, List.cons_append]
          exact .waits served ahead (later ++ [other]) none order
      | left isGone _ ahead later now order =>
          rw [List.append_assoc]
          exact .left isGone served ahead (later ++ [other]) none order
      | again _ _ passed => exact .again _ _ passed
      | past isGone _ _ passed => exact .past isGone _ _ passed
  | leave other line isGone =>
      rw [List.append_nil]
      cases inTurn with
      | first =>
          have left := @left _ entry queue (gone entry) isGone [] queue [] none rfl
          rw [List.append_nil] at left
          exact left
      | waits _ ahead later now order => exact .waits served ahead later none order
      | left isGone _ ahead later now order =>
          exact .left isGone served ahead later none order
      | again _ _ passed => exact .again _ _ passed
      | past isGone _ _ passed => exact .past isGone _ _ passed

/-- Those who stood ahead are served first, in their order and once each. -/
theorem agree (inTurn : InTurn entry queue gone served line) : Agree served queue := by
  cases inTurn with
  | first => exact Or.inl (List.nil_prefix)
  | waits _ ahead later now order | left isGone _ ahead later now order =>
      rw [order]
      exact Or.inl (List.prefix_append _ _)
  | again _ _ passed => exact Or.inr ((List.prefix_append _ _).trans passed)
  | past isGone _ _ passed => exact Or.inr passed

/-- Then comes the entry itself, unless it has left. -/
theorem agree_of_stays (inTurn : InTurn entry queue gone served line) (stays : ¬gone) :
    Agree served (queue ++ [entry]) := by
  cases inTurn with
  | first => exact Or.inl (List.nil_prefix)
  | waits _ ahead later now order =>
      rw [order, List.append_assoc]
      exact Or.inl (List.prefix_append _ _)
  | again _ _ passed => exact Or.inr passed
  | left isGone => exact absurd isGone stays
  | past isGone => exact absurd isGone stays

end InTurn

end Line

end PeReview.Process
