import StreetMap.Proofs.Store.Overlap
import StreetMap.Proofs.Store.Placing
import StreetMap.Standard

/-!
Elements that come again under an id that is kept.  Ways, relations and the nodes in the index are those
that came first, whatever the later copies say.  Bicycle rentals are apart: the last copy takes the place
of the first, and neither table of nodes is asked before the other takes a node in.
-/

namespace StreetMap.Store

variable {c : Settings} {s t : Store} {op : Operation} {h : List Call}

/-- An element of the kind that comes in is kept under its id. -/
def Operation.Repeats : Operation → Store → Prop
  | .addNode n, s => s.nodes.has n.id = true ∨ s.bikeRentals.has n.id = true
  | .addWay w, s => s.ways.has w.id = true ∨ s.areaWays.has w.id = true
  | .addRelation r, s => s.relations.has r.id = true
  | _, _ => False

/-- A node comes in although its id is kept: a bicycle rental that is not the one that is kept, or a node
of which only a bicycle rental is kept. -/
def Operation.Displaces : Operation → Store → Prop
  | .addNode n, s =>
    n.tags.isBikeRental = true ∧ s.bikeRentals.get? n.id ≠ some n ∨
      n.tags.isBikeRental = false ∧ s.wants n = true ∧ s.nodes.has n.id = false
  | _, _ => False

/-- The same elements are kept, in the same places. -/
structure SameTables (s t : Store) : Prop where
  nodes : t.nodes = s.nodes
  bikeRentals : t.bikeRentals = s.bikeRentals
  ways : t.ways = s.ways
  areaWays : t.areaWays = s.areaWays
  relations : t.relations = s.relations

theorem repeats_reopened : op.Repeats s.reopened ↔ op.Repeats s := by cases op <;> rfl

theorem displaces_reopened : op.Displaces s.reopened ↔ op.Displaces s := by cases op <;> rfl

theorem addNode_displacing {n : Node} (opened : s.phase ≠ .relationsProcessed)
    (displaces : Operation.Displaces (.addNode n) s) :
    (addNode c n s).state =
      if n.tags.isBikeRental then { s with bikeRentals := s.bikeRentals.put n.id n }
      else { s with nodes := s.nodes ++ [(n.id, n)] } := by
  rw [addNode_eq opened]
  rcases displaces with ⟨rental, -⟩ | ⟨plain, wanted, new⟩
  · rw [if_pos rental, if_pos rental]
    rfl
  · simp [plain, wanted, new, Table.put_of_new new]

theorem displaced {n : Node} (opened : s.phase ≠ .relationsProcessed)
    (displaces : Operation.Displaces (.addNode n) s) : ¬ SameTables s (addNode c n s).state := by
  rw [addNode_displacing opened displaces]
  intro same
  rcases displaces with ⟨rental, other⟩ | ⟨plain, -, -⟩
  · rw [if_pos rental] at same
    apply other
    rw [← same.bikeRentals]
    exact Table.get?_put_self _ _ _
  · rw [if_neg (by simp [plain])] at same
    simpa using same.nodes

theorem settled_of_repeats (again : op.Repeats s) (steady : ¬ op.Displaces s) : Settled c op s := by
  cases op with
  | addWay w => exact .inl again
  | addRelation r => exact .inl again
  | addNode n =>
    rw [Settled]
    split
    · rename_i rental
      by_contra other
      exact steady (.inl ⟨rental, other⟩)
    · rename_i plain
      intro wanted
      by_contra new
      exact steady (.inr ⟨Bool.eq_false_iff.2 plain, wanted, Bool.eq_false_iff.2 new⟩)
  | _ => cases again

section Copies

variable [Limits] [Geometry]

theorem apply_again (again : op.Repeats s) (settled : Settled c op s)
    (opened : s.phase ≠ .relationsProcessed) :
    (apply c op s).Ends fun t => t = s ∨ t = s.reopened := by
  cases op with
  | addNode n => exact (addNode_again settled opened).imp_right .inl
  | addWay w => exact (addWay_again settled opened).imp_right .inr
  | addRelation r => exact (addRelation_again settled opened).imp_right .inr
  | _ => cases again

theorem forEach_copies {copies : List Operation} (opened : s.phase ≠ .relationsProcessed)
    (again : ∀ op ∈ copies, op.Repeats s ∧ ¬ op.Displaces s) :
    (Outcome.forEach (apply c) copies s).Ends fun t => t = s ∨ t = s.reopened := by
  refine Outcome.forEach_ends (.inl rfl) fun op hop t ht => ?_
  obtain ⟨repeats, steady⟩ := again op hop
  rcases ht with rfl | rfl
  · exact apply_again repeats (settled_of_repeats repeats steady) opened
  · rw [← repeats_reopened] at repeats
    rw [← displaces_reopened] at steady
    have ends := apply_again (c := c) repeats (settled_of_repeats repeats steady) nofun
    exact ends.imp_right fun ht => ht.elim .inr .inr

/-- In a store that is open, an element under an id that is kept changes what is kept just if it is a
bicycle rental other than the one kept, or a node that is wanted of which only a bicycle rental is kept.
Any other copies, in any number and order, change nothing at all, except that ways and relations open the
store for more; and even those two kinds of nodes touch nothing but their own place. -/
theorem copies_of_kept (opened : s.phase ≠ .relationsProcessed) :
    (∀ op : Operation, op.Repeats s → (SameTables s (apply c op s).state ↔ ¬ op.Displaces s)) ∧
    (∀ copies : List Operation, (∀ op ∈ copies, op.Repeats s ∧ ¬ op.Displaces s) →
      (Outcome.forEach (apply c) copies s).Ends fun t => t = s ∨ t = s.reopened) ∧
    (∀ n, Operation.Displaces (.addNode n) s → (addNode c n s).state =
      if n.tags.isBikeRental then { s with bikeRentals := s.bikeRentals.put n.id n }
      else { s with nodes := s.nodes ++ [(n.id, n)] }) := by
  refine ⟨fun op again => ⟨fun same displaces => ?_, fun steady => ?_⟩,
    fun copies again => forEach_copies opened again, fun n => addNode_displacing opened⟩
  · cases op with
    | addNode n => exact displaced opened displaces same
    | _ => exact displaces
  · rcases (apply_again (c := c) again (settled_of_repeats again steady) opened).2 with ht | ht
    · rw [ht]
      exact ⟨rfl, rfl, rfl, rfl, rfl⟩
    · rw [ht]
      exact ⟨rfl, rfl, rfl, rfl, rfl⟩

end Copies

open Standard

theorem triangle_copies :
    let s := run .default (triangle carPark) empty
    s.areaWays.has 10 = true ∧ s.nodes.has 1 = true ∧
      (Outcome.forEach (apply .default) [.addWay ⟨10, [1, 2], []⟩, atCorner 1 5 5] s).Ends
        fun t => t = s ∨ t = s.reopened := by
  intro s
  have way : s.areaWays.has 10 = true := rfl
  have node : s.nodes.has 1 = true := rfl
  refine ⟨way, node, (copies_of_kept (c := .default) (s := s) nofun).2.1 _ ?_⟩
  refine List.forall_mem_cons.2 ⟨⟨.inr way, not_false⟩, List.forall_mem_singleton.2 ⟨.inl node, ?_⟩⟩
  rintro (⟨rental, -⟩ | ⟨-, -, new⟩)
  · cases rental
  · cases new.symm.trans node

def kiosk (lon lat : Float) : Node := ⟨7, ⟨lon, lat⟩, [("amenity", .text "bicycle_rental")]⟩

def busStop7 : Node := ⟨7, ⟨0, 0⟩, [("highway", .text "bus_stop")]⟩

theorem kiosk_displaced :
    let s := run .default [.addNode (kiosk 0 0)] empty
    let t := run .default [.addNode busStop7] empty
    Operation.Repeats (.addNode (kiosk 1 0)) s ∧ Operation.Repeats (.addNode busStop7) s ∧
      Operation.Repeats (.addNode (kiosk 0 0)) t ∧
      s.bikeRentals = [(7, kiosk 0 0)] ∧
      (addNode .default (kiosk 1 0) s).state.bikeRentals = [(7, kiosk 1 0)] ∧
      (addNode .default busStop7 s).state.nodes = [(7, busStop7)] ∧
      t.nodes = [(7, busStop7)] ∧ t.bikeRentals = [] ∧
      (addNode .default (kiosk 0 0) t).state.bikeRentals = [(7, kiosk 0 0)] :=
  ⟨.inr rfl, .inr rfl, .inl rfl, rfl, rfl, rfl, rfl, rfl, rfl⟩

end StreetMap.Store
