import StreetMap.Proofs.Store.Frame

/-!
What steps bring.  A step that is the first to deal with its element either fails or adds a harvest, and
which of these is settled by the element.  So the steps for many elements add all their harvests, unless
the step for one of them fails.
-/

namespace StreetMap

structure Harvest where
  nodes : Table Int Node := []
  bikeRentals : Table Int Node := []
  ways : Table Int Way := []
  areaWays : Table Int Way := []
  relations : Table Int KeptRelation := []
  areas : List PlacedArea := []
  candidates : List Way := []
  processed : List Key := []
  bounds : List (Int × Int) := []
  areaWayIds : List Int := []
  levels : Table Key Level := []
  anomalies : List Anomaly := []

namespace Harvest

def append (g h : Harvest) : Harvest where
  nodes := g.nodes ++ h.nodes
  bikeRentals := g.bikeRentals ++ h.bikeRentals
  ways := g.ways ++ h.ways
  areaWays := g.areaWays ++ h.areaWays
  relations := g.relations ++ h.relations
  areas := g.areas ++ h.areas
  candidates := g.candidates ++ h.candidates
  processed := g.processed ++ h.processed
  bounds := g.bounds ++ h.bounds
  areaWayIds := g.areaWayIds ++ h.areaWayIds
  levels := g.levels ++ h.levels
  anomalies := g.anomalies ++ h.anomalies

def join (hs : List Harvest) : Harvest where
  nodes := hs.flatMap nodes
  bikeRentals := hs.flatMap bikeRentals
  ways := hs.flatMap ways
  areaWays := hs.flatMap areaWays
  relations := hs.flatMap relations
  areas := hs.flatMap areas
  candidates := hs.flatMap candidates
  processed := hs.flatMap processed
  bounds := hs.flatMap bounds
  areaWayIds := hs.flatMap areaWayIds
  levels := hs.flatMap levels
  anomalies := hs.flatMap anomalies

theorem join_cons (h : Harvest) (hs : List Harvest) : join (h :: hs) = h.append (join hs) := rfl

end Harvest

namespace Store

def addBounds (t : Table Int (List Int)) (bounds : List (Int × Int)) : Table Int (List Int) :=
  bounds.foldl (fun t b => addBound b.2 t b.1) t

def add (s : Store) (h : Harvest) : Store :=
  { s with
    nodes := s.nodes ++ h.nodes
    bikeRentals := s.bikeRentals ++ h.bikeRentals
    ways := s.ways ++ h.ways
    areaWays := s.areaWays ++ h.areaWays
    relations := s.relations ++ h.relations
    areas := s.areas ++ h.areas
    candidates := s.candidates ++ h.candidates
    processed := insertAll s.processed h.processed
    boundsAt := addBounds s.boundsAt h.bounds
    areaWayIds := insertAll s.areaWayIds h.areaWayIds
    levels := s.levels ++ h.levels
    anomalies := s.anomalies ++ h.anomalies }

@[simp] theorem add_nothing (s : Store) : s.add {} = s := by
  simp [add, addBounds, insertAll]

theorem add_add (s : Store) (g h : Harvest) : (s.add g).add h = s.add (g.append h) := by
  simp [add, addBounds, Harvest.append, insertAll_append, List.append_assoc]

def Yields (o : Outcome Store) (s : Store) : Except Failure Harvest → Prop
  | .ok h => o.Ends (· = s.add h)
  | .error _ => o.failure ≠ none

variable {α : Type} {s : Store}

theorem Yields.failed {o : Outcome Store} {e e' : Failure} (h : o.failure = some e) :
    Yields o s (.error e') := by
  rw [Yields, h]
  exact Option.some_ne_none e

theorem Yields.done (s : Store) : Yields (Outcome.done s) s (.ok {}) := ⟨rfl, (add_nothing s).symm⟩

theorem Yields.andThen {o : Outcome Store} {f : Store → Outcome Store} {v : Except Failure Harvest}
    {w : Harvest → Except Failure Harvest} (ho : Yields o s v)
    (hf : ∀ h, v = .ok h → Yields (f (s.add h)) (s.add h) (w h)) :
    Yields (o.andThen f) s (v.bind fun h => (w h).map h.append) := by
  cases v with
  | error e => exact fun h => ho (Outcome.andThen_failure_eq_none.1 h).1
  | ok h =>
    have hf' := hf h rfl
    rw [← ho.2] at hf'
    change Yields (o.andThen f) s ((w h).map h.append)
    cases hw : w h with
    | error e =>
      rw [hw] at hf'
      exact fun h => hf' (Outcome.andThen_failure_eq_none.1 h).2
    | ok h' =>
      rw [hw] at hf'
      refine ⟨Outcome.andThen_failure_eq_none.2 ⟨ho.1, hf'.1⟩, ?_⟩
      rw [Outcome.andThen_state ho.1, hf'.2, ho.2, add_add]

theorem Yields.after {o : Outcome Store} {g : Harvest} {v : Except Failure Harvest}
    (h : Yields o (s.add g) v) : Yields o s (v.map g.append) := by
  cases v with
  | error e => exact h
  | ok h' => exact ⟨h.1, h.2.trans (add_add s g h')⟩

theorem Yields.andThen_idle {o : Outcome Store} {f : Store → Store} {v : Except Failure Harvest}
    (ho : Yields o s v) (hf : ∀ h, v = .ok h → f (s.add h) = s.add h) :
    Yields (o.andThen fun s => Outcome.done (f s)) s v := by
  cases v with
  | error e => exact fun h => ho (Outcome.andThen_failure_eq_none.1 h).1
  | ok h =>
    refine ⟨Outcome.andThen_failure_eq_none.2 ⟨ho.1, rfl⟩, ?_⟩
    rw [Outcome.andThen_state ho.1, ho.2]
    exact hf h rfl

theorem forEach_yields {f : α → Store → Outcome Store} {v : α → Except Failure Harvest}
    {R : α → Store → Prop} {D : α → α → Prop} {xs : List α} (hxs : xs.Pairwise D)
    (ready : ∀ x ∈ xs, R x s) (step : ∀ x t, R x t → Yields (f x t) t (v x))
    (stay : ∀ x y, D x y → ∀ t h, v x = .ok h → R y t → R y (t.add h)) :
    Yields (Outcome.forEach f xs s) s ((xs.mapM v).map Harvest.join) := by
  induction xs generalizing s with
  | nil => exact Yields.done s
  | cons x xs ih =>
    cases hxs with
    | cons hx hxs =>
      have hy := (step x s (ready x List.mem_cons_self)).andThen (f := Outcome.forEach f xs)
        (w := fun _ => (xs.mapM v).map Harvest.join) fun h hh => ih hxs fun y hmem =>
          stay x y (hx y hmem) s h hh (ready y (List.mem_cons_of_mem _ hmem))
      rw [Outcome.forEach_cons, mapM_cons_eq]
      cases hv : v x with
      | error e => rwa [hv] at hy
      | ok h =>
        rw [hv] at hy
        cases hvs : xs.mapM v with
        | error e => rwa [hvs] at hy
        | ok hs => rwa [hvs] at hy

end Store

end StreetMap
