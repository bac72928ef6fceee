import StreetMap.Proofs.Store.AreaVerdict
import StreetMap.Proofs.Store.Keyed

/-!
Stores that differ in order alone.  Harvests in another order lead to such stores, and steps whose verdicts
do not tell them apart keep them so.
-/

namespace StreetMap.Store

variable {c : Settings} {s t : Store}

/-- All is the same but for the order in which it came. -/
structure Alike (s t : Store) : Prop where
  phase : s.phase = t.phase
  nodes : s.nodes.Perm t.nodes
  bikeRentals : s.bikeRentals.Perm t.bikeRentals
  ways : s.ways.Perm t.ways
  areaWays : s.areaWays.Perm t.areaWays
  relations : s.relations.Perm t.relations
  areas : s.areas.Perm t.areas
  candidates : s.candidates.Perm t.candidates
  processed : ∀ k, k ∈ s.processed ↔ k ∈ t.processed
  bounds : ∀ n way, way ∈ waysAt s.boundsAt n ↔ way ∈ waysAt t.boundsAt n
  bounded : ∀ n, s.boundsAt.has n = t.boundsAt.has n
  areaWayIds : ∀ id, id ∈ s.areaWayIds ↔ id ∈ t.areaWayIds
  wayNodeIds : ∀ id, id ∈ s.wayNodeIds ↔ id ∈ t.wayNodeIds
  areaNodeIds : ∀ id, id ∈ s.areaNodeIds ↔ id ∈ t.areaNodeIds
  levels : s.levels.Perm t.levels
  fromTurns : s.fromTurns = t.fromTurns
  toTurns : s.toTurns = t.toTurns
  stops : s.stops = t.stops
  anomalies : s.anomalies.Perm t.anomalies

theorem Alike.refl (s : Store) : Alike s s where
  phase := rfl
  nodes := .rfl
  bikeRentals := .rfl
  ways := .rfl
  areaWays := .rfl
  relations := .rfl
  areas := .rfl
  candidates := .rfl
  processed := fun _ => .rfl
  bounds := fun _ _ => .rfl
  bounded := fun _ => rfl
  areaWayIds := fun _ => .rfl
  wayNodeIds := fun _ => .rfl
  areaNodeIds := fun _ => .rfl
  levels := .rfl
  fromTurns := rfl
  toTurns := rfl
  stops := rfl
  anomalies := .rfl

theorem mem_waysAt_addBounds (bounds : List (Int × Int)) (t : Table Int (List Int)) (n way : Int) :
    way ∈ waysAt (addBounds t bounds) n ↔ way ∈ waysAt t n ∨ (n, way) ∈ bounds := by
  induction bounds generalizing t with
  | nil => simp [addBounds]
  | cons b bounds ih =>
    change way ∈ waysAt (addBounds (addBound b.2 t b.1) bounds) n ↔ _
    rw [ih, waysAt_addBound]
    split
    · rename_i hn
      subst hn
      obtain ⟨m, v⟩ := b
      simp [or_assoc]
    · rename_i hn
      obtain ⟨m, v⟩ := b
      simp [hn]

theorem has_addBounds (bounds : List (Int × Int)) (t : Table Int (List Int)) (n : Int) :
    (addBounds t bounds).has n = true ↔ t.has n = true ∨ n ∈ bounds.map Prod.fst := by
  induction bounds generalizing t with
  | nil => simp [addBounds]
  | cons b bounds ih =>
    change (addBounds (addBound b.2 t b.1) bounds).has n = true ↔ _
    rw [ih, addBound, Table.adjust, Table.has_put, List.map_cons, List.mem_cons, or_comm (a := n = b.1),
      or_assoc]

theorem Alike.add {hs hs' : List Harvest} (h : Alike s t) (hp : hs.Perm hs') :
    Alike (s.add (Harvest.join hs)) (t.add (Harvest.join hs')) where
  phase := h.phase
  nodes := h.nodes.append (hp.flatMap_right Harvest.nodes)
  bikeRentals := h.bikeRentals.append (hp.flatMap_right Harvest.bikeRentals)
  ways := h.ways.append (hp.flatMap_right Harvest.ways)
  areaWays := h.areaWays.append (hp.flatMap_right Harvest.areaWays)
  relations := h.relations.append (hp.flatMap_right Harvest.relations)
  areas := h.areas.append (hp.flatMap_right Harvest.areas)
  candidates := h.candidates.append (hp.flatMap_right Harvest.candidates)
  processed := fun k => by
    have hk := (hp.flatMap_right Harvest.processed).mem_iff (a := k)
    simp only [Store.add, mem_insertAll, h.processed k, Harvest.join, hk]
  bounds := fun n way => by
    have hb := (hp.flatMap_right Harvest.bounds).mem_iff (a := (n, way))
    simp only [Store.add, mem_waysAt_addBounds, h.bounds n way, Harvest.join, hb]
  bounded := fun n => by
    have hb := ((hp.flatMap_right Harvest.bounds).map Prod.fst).mem_iff (a := n)
    rw [Bool.eq_iff_iff]
    simp only [Store.add, has_addBounds, h.bounded n, Harvest.join, hb]
  areaWayIds := fun id => by
    have hid := (hp.flatMap_right Harvest.areaWayIds).mem_iff (a := id)
    simp only [Store.add, mem_insertAll, h.areaWayIds id, Harvest.join, hid]
  wayNodeIds := h.wayNodeIds
  areaNodeIds := h.areaNodeIds
  levels := h.levels.append (hp.flatMap_right Harvest.levels)
  fromTurns := h.fromTurns
  toTurns := h.toTurns
  stops := h.stops
  anomalies := h.anomalies.append (hp.flatMap_right Harvest.anomalies)

theorem Alike.atPhase (h : Alike s t) (p : Phase) :
    Alike { s with phase := p } { t with phase := p } := { h with phase := rfl }

theorem Alike.marked (h : Alike s t) : Alike s.marked t.marked :=
  { h with
    phase := rfl
    wayNodeIds := fun id => by
      have hid := (((h.ways.map Prod.snd).filter fun w => w.nodeRefs.length > 1).flatMap_right
        Way.nodeRefs).mem_iff (a := id)
      simp only [Store.marked, mem_insertAll, h.wayNodeIds id, nodesOfWays, Table.values, hid]
    areaNodeIds := fun id => by
      have hid := (((h.areaWays.map Prod.snd).filter fun w => w.nodeRefs.length > 1).flatMap_right
        Way.nodeRefs).mem_iff (a := id)
      simp only [Store.marked, mem_insertAll, h.areaNodeIds id, nodesOfWays, Table.values, hid] }

theorem Alike.lookups (h : Alike s t) (keyed : Keyed s) : SameLookups s t where
  ways := fun id => by
    rw [way?, way?, Table.get?_perm h.ways keyed.ways, Table.get?_perm h.areaWays keyed.areaWays]
  nodes := Table.get?_perm h.nodes keyed.nodes

theorem Alike.wants (h : Alike s t) (n : Node) : s.wants n = t.wants n := by
  simp only [Store.wants, h.wayNodeIds, h.areaNodeIds]

def Grown {α : Type} (v : α → Except Failure Harvest) (xs : List α) (s t : Store) : Prop :=
  ∃ hs, xs.mapM v = .ok hs ∧ t = s.add (Harvest.join hs)

theorem Grown.keeps {α : Type} {v : α → Except Failure Harvest} {xs : List α} {P : Store → Prop}
    (h : Grown v xs s t) (start : P s)
    (step : ∀ x ∈ xs, ∀ g u, v x = .ok g → P u → P (u.add g)) : P t := by
  obtain ⟨hs, hv, rfl⟩ := h
  have hf := mapM_eq_ok.1 hv
  clear hv
  induction hf generalizing s with
  | nil =>
    rw [show Harvest.join [] = {} from rfl, add_nothing]
    exact start
  | @cons x g xs hs hx _ ih =>
    rw [Harvest.join_cons, ← add_add]
    apply ih
    · exact step x List.mem_cons_self g s hx start
    · exact fun y hy => step y (List.mem_cons_of_mem _ hy)

theorem Yields.grown {α : Type} {v : α → Except Failure Harvest} {xs : List α} {o : Outcome Store}
    (h : Yields o s ((xs.mapM v).map Harvest.join)) (ok : o.failure = none) : Grown v xs s o.state := by
  cases hv : xs.mapM v with
  | error e =>
    rw [hv] at h
    exact absurd ok h
  | ok hs =>
    rw [hv] at h
    exact ⟨hs, hv, h.2⟩

theorem agree_of_yields {α : Type} {v : α → Except Failure Harvest} {xs xs' : List α}
    {o o' : Outcome Store} (h : Alike s t) (hp : xs.Perm xs')
    (ho : Yields o s ((xs.mapM v).map Harvest.join)) (ho' : Yields o' t ((xs'.mapM v).map Harvest.join)) :
    Outcome.Agree (fun s' t' => Alike s' t' ∧ Grown v xs s s' ∧ Grown v xs' t t') o o' := by
  have forth : o.failure = none → ∃ hs hs', hs.Perm hs' ∧ xs.mapM v = .ok hs ∧ xs'.mapM v = .ok hs' := by
    intro ok
    obtain ⟨hs, hv, -⟩ := ho.grown ok
    obtain ⟨hs', hv', hperm⟩ := mapM_perm hp hv
    exact ⟨hs, hs', hperm, hv, hv'⟩
  have back : o'.failure = none → ∃ hs, xs.mapM v = .ok hs := by
    intro ok
    obtain ⟨hs', hv', -⟩ := ho'.grown ok
    obtain ⟨hs, hv, -⟩ := mapM_perm hp.symm hv'
    exact ⟨hs, hv⟩
  refine ⟨⟨?_, ?_⟩, ?_⟩
  · intro ok
    obtain ⟨hs, hs', -, -, hv'⟩ := forth ok
    rw [hv'] at ho'
    exact ho'.1
  · intro ok
    obtain ⟨hs, hv⟩ := back ok
    rw [hv] at ho
    exact ho.1
  · intro ok
    obtain ⟨hs, hs', hperm, hv, hv'⟩ := forth ok
    rw [hv] at ho
    rw [hv'] at ho'
    refine ⟨?_, ⟨hs, hv, ho.2⟩, ⟨hs', hv', ho'.2⟩⟩
    rw [ho.2, ho'.2]
    exact h.add hperm

end StreetMap.Store
