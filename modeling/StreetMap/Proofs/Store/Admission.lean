import StreetMap.Store.Ingest
import StreetMap.Proofs.Computation

/-!
What is decided of an element when it comes in for the first time: whether it is kept and as what.  The
decision looks at the tags and at the marks that are set by then; all else that the operations do follows
from it.
-/

namespace StreetMap.Store

def admission (c : Settings) (t : Tags) : Except Failure (Option RelationKind) := do
  match ← classify c t with
  | some .multipolygon =>
    if ← orElse (c.isWayRoutable t) fun _ => t.isParkAndRide then return some .multipolygon
    else return none
  | kind => return kind

def takeIn [Limits] (c : Settings) (r : Relation) (kind : RelationKind) (s : Store) : Outcome Store :=
  if kind = .multipolygon then
    (resolveLevel c r.key r.tags (markMembers r s)).andThen (putRelation c r kind)
  else putRelation c r kind s

inductive Bucket
  | member | candidate | plain
  deriving DecidableEq

def bucketOf (c : Settings) (marked : Bool) (w : Way) : Except Failure (Option Bucket) :=
  if marked then .ok (some .member)
  else do
    if ← orElse (c.isWayRoutable w.tags) fun _ => w.tags.isParkAndRide then
      return some (if isAreaWay w then .candidate else .plain)
    else return none

def stored (w : Way) : Bucket → Store → Store
  | .member, s => { s with areaWays := s.areaWays.put w.id w }
  | .candidate, s =>
    bound w { s with
      candidates := s.candidates ++ [w]
      areaWays := s.areaWays.put w.id w
      areaWayIds := insertNew s.areaWayIds w.id }
  | .plain, s => { s with ways := s.ways.put w.id w }

def putInto (c : Settings) (w : Way) (b : Bucket) (s : Store) : Outcome Store :=
  if b = .plain then progress c.wayInterval "ways" (stored w b s).ways.length (stored w b s)
  else Outcome.done (stored w b s)

def wants (s : Store) (n : Node) : Bool :=
  n.id ∈ s.wayNodeIds || n.id ∈ s.areaNodeIds || n.tags.isStop

/-- The store open for more ways and relations. -/
def reopened (s : Store) : Store := { s with phase := .ingesting }

variable {c : Settings} {s : Store}

theorem keepWay_eq (w : Way) :
    keepWay c w s = Outcome.withValue s (bucketOf c (w.id ∈ s.areaWayIds) w) fun
      | none => Outcome.done s
      | some b => putInto c w b s := by
  rw [keepWay, bucketOf]
  by_cases hm : w.id ∈ s.areaWayIds
  · simp [hm, putInto, stored]
  · simp only [hm, if_false, decide_false, Bool.false_eq_true]
    cases orElse (c.isWayRoutable w.tags) fun _ => w.tags.isParkAndRide with
    | error e => rfl
    | ok kept =>
      cases kept with
      | false => rfl
      | true =>
        by_cases ha : isAreaWay w = true
        · simp [putWay, ha, putInto, stored, bind, Except.bind, pure, Except.pure]
        · simp [putWay, ha, putInto, stored, bind, Except.bind, pure, Except.pure]

theorem addNode_of_closed (h : s.phase = .relationsProcessed) (n : Node) :
    addNode c n s = Outcome.fail s (.phase (.closed "nodes")) := if_pos h

theorem addNode_eq (h : s.phase ≠ .relationsProcessed) (n : Node) :
    addNode c n s =
      if n.tags.isBikeRental then Outcome.done { s with bikeRentals := s.bikeRentals.put n.id n }
      else if s.wants n && !s.nodes.has n.id then
        progress c.nodeInterval "nodes" (s.nodes.put n.id n).length
          { s with nodes := s.nodes.put n.id n }
      else Outcome.done s := by
  rw [addNode, whileOpen, if_neg h]
  congr 1
  rw [wants]
  cases decide (n.id ∈ s.wayNodeIds) || decide (n.id ∈ s.areaNodeIds) || n.tags.isStop with
  | false => rfl
  | true => cases s.nodes.has n.id <;> rfl

theorem addWay_of_closed [Limits] (h : s.phase = .relationsProcessed) (w : Way) :
    addWay c w s = Outcome.fail s (.phase (.closed "ways")) := if_pos h

theorem addWay_eq [Limits] (h : s.phase ≠ .relationsProcessed) (w : Way) :
    addWay c w s =
      if s.ways.has w.id || s.areaWays.has w.id then Outcome.done s.reopened
      else (resolveLevel c w.key w.tags s.reopened).andThen (keepWay c w) := if_neg h

theorem addRelation_of_closed [Limits] (h : s.phase = .relationsProcessed) (r : Relation) :
    addRelation c r s = Outcome.fail s (.phase (.closed "relations")) := if_pos h

theorem addRelation_eq [Limits] (h : s.phase ≠ .relationsProcessed) (r : Relation) :
    addRelation c r s =
      if s.relations.has r.id then Outcome.done s.reopened
      else Outcome.withValue s.reopened (admission c r.tags) fun
        | none => Outcome.done s.reopened
        | some kind => takeIn c r kind s.reopened := by
  rw [addRelation, whileOpen, if_neg h, admission]
  change (if s.relations.has r.id = true then Outcome.done s.reopened else _) = _
  congr 1
  cases classify c r.tags with
  | error e => rfl
  | ok kind =>
    match kind with
    | none => rfl
    | some .multipolygon =>
      change keepRelation c r .multipolygon s.reopened = _
      simp only [keepRelation, if_true, bind, Except.bind]
      cases orElse (c.isWayRoutable r.tags) fun _ => r.tags.isParkAndRide with
      | error e => rfl
      | ok kept => cases kept <;> rfl
    | some .restriction => rfl
    | some .roadRoute => rfl
    | some .levelMap => rfl
    | some .stopArea => rfl

end StreetMap.Store
