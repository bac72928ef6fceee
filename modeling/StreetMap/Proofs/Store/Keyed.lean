import StreetMap.Proofs.Store.Calls

/-!
Keys.  Every table has each of its keys once, relations stand under their own ids, and every candidate is
an area way of its own under its id.
-/

namespace StreetMap.Store

def waysAt (t : Table Int (List Int)) (node : Int) : List Int := (t.get? node).getD []

theorem waysAt_addBound (t : Table Int (List Int)) (way node n : Int) :
    waysAt (addBound way t node) n = if n = node then insertNew (waysAt t node) way else waysAt t n := by
  rw [waysAt, addBound, Table.adjust, Table.get?_put]
  split
  · rfl
  · rfl

structure Keyed (s : Store) : Prop where
  nodes : s.nodes.keys.Nodup
  bikeRentals : s.bikeRentals.keys.Nodup
  ways : s.ways.keys.Nodup
  areaWays : s.areaWays.keys.Nodup
  relations : s.relations.keys.Nodup
  levels : s.levels.keys.Nodup
  boundsAt : s.boundsAt.keys.Nodup ∧ ∀ n, (waysAt s.boundsAt n).Nodup
  ownIds : ∀ row ∈ s.relations, row.2.relation.id = row.1
  candidates : (s.candidates.map Way.id).Nodup ∧ ∀ w ∈ s.candidates, s.areaWays.get? w.id = some w

variable {c : Settings} {s t : Store}

theorem Keyed.empty : Keyed empty where
  nodes := .nil
  bikeRentals := .nil
  ways := .nil
  areaWays := .nil
  relations := .nil
  levels := .nil
  boundsAt := ⟨.nil, fun _ => .nil⟩
  ownIds := List.forall_mem_nil _
  candidates := ⟨.nil, List.forall_mem_nil _⟩

theorem Keyed.bound (h : Keyed s) (w : Way) : Keyed (bound w s) := by
  have hb : ∀ (ns : List Int) (t : Table Int (List Int)), (t.keys.Nodup ∧ ∀ n, (waysAt t n).Nodup) →
      (ns.foldl (addBound w.id) t).keys.Nodup ∧ ∀ n, (waysAt (ns.foldl (addBound w.id) t) n).Nodup := by
    intro ns
    induction ns with
    | nil => exact fun _ ht => ht
    | cons m ns ih =>
      intro t ht
      apply ih
      refine ⟨Table.nodup_keys_put ht.1, fun n => ?_⟩
      rw [waysAt_addBound]
      split
      · exact nodup_insertNew (ht.2 m)
      · exact ht.2 n
  exact { h with boundsAt := hb w.nodeRefs s.boundsAt h.boundsAt }

theorem Keyed.retag (h : Keyed s) (id : Int) (f : Tags → Tags) : Keyed (retag id f s) := by
  rw [Store.retag]
  split
  · exact h
  · exact { h with ways := Table.nodup_keys_put h.ways }

theorem Keyed.stored {w : Way} (h : Keyed s) (new : s.areaWays.has w.id = false) (b : Bucket) :
    Keyed (stored w b s) := by
  cases b with
  | plain => exact { h with ways := Table.nodup_keys_put h.ways }
  | member =>
    exact { h with
      areaWays := Table.nodup_keys_put h.areaWays
      candidates := ⟨h.candidates.1, fun v hv => Table.get?_put_of_get? new (h.candidates.2 v hv)⟩ }
  | candidate =>
    refine Keyed.bound (s := { s with
      candidates := s.candidates ++ [w]
      areaWays := s.areaWays.put w.id w
      areaWayIds := insertNew s.areaWayIds w.id }) ?_ w
    refine { h with areaWays := Table.nodup_keys_put h.areaWays, candidates := ⟨?_, ?_⟩ }
    · rw [List.map_append]
      refine h.candidates.1.append (List.nodup_singleton w.id) ?_
      intro id hid hw
      obtain ⟨v, hv, rfl⟩ := List.mem_map.1 hid
      rw [List.map_singleton, List.mem_singleton] at hw
      rw [← hw, Table.has_of_get? (h.candidates.2 v hv)] at new
      cases new
    · intro v hv
      cases List.mem_append.1 hv with
      | inl hv => exact Table.get?_put_of_get? new (h.candidates.2 v hv)
      | inr hv =>
        rw [List.mem_singleton.1 hv]
        exact Table.get?_put_self _ _ _

theorem IntakeStep.keyed (step : IntakeStep c s t) (h : Keyed s) : Keyed t := by
  cases step with
  | note log => exact { h with }
  | level k l new => exact { h with levels := Table.nodup_keys_put h.levels }
  | members r => exact { h with }
  | relation k new kind =>
    refine { h with relations := Table.nodup_keys_put h.relations, ownIds := ?_ }
    intro row hrow
    change row ∈ s.relations.put _ _ at hrow
    rw [Table.put_of_new new, List.mem_append, List.mem_singleton] at hrow
    cases hrow with
    | inl hrow => exact h.ownIds row hrow
    | inr hrow => rw [hrow]
  | way w b newWay newArea fate => exact h.stored newArea b

theorem AreaStep.keyed (step : AreaStep s t) (h : Keyed s) : Keyed t := by
  cases step with
  | note log => exact { h with }
  | processed k => exact { h with }
  | bound w => exact h.bound w
  | area p => exact { h with }
  | retag id source => exact h.retag id _

theorem RelationStep.keyed (step : RelationStep s t) (h : Keyed s) : Keyed t := by
  cases step with
  | note log => exact { h with }
  | turn ends turn => exact { h with }
  | level id l => exact { h with levels := Table.nodup_keys_put h.levels }
  | tags id w t kept => exact { h with ways := Table.nodup_keys_put h.ways }
  | stops k ids => exact { h with }

theorem keyed_of_chain {R : Store → Store → Prop} (hR : ∀ {s t}, R s t → Keyed s → Keyed t)
    (chain : Relation.ReflTransGen R s t) (h : Keyed s) : Keyed t :=
  keeps_of_chain chain hR h

theorem Keyed.linesComplete (h : Keyed s) : Keyed (linesComplete s).state := linesComplete_keeps h { h with }

theorem Keyed.get?_relation (h : Keyed s) {k : KeptRelation} (hk : k ∈ s.relations.values) :
    s.relations.get? k.relation.id = some k := by
  obtain ⟨row, hrow, rfl⟩ := List.mem_map.1 hk
  rw [h.ownIds row hrow]
  exact Table.get?_of_mem h.relations hrow

theorem Keyed.relation_ids (h : Keyed s) : (s.relations.values.map fun k => k.relation.id).Nodup := by
  have ids : s.relations.values.map (fun k => k.relation.id) = s.relations.keys := by
    rw [Table.values, Table.keys, List.map_map]
    exact List.map_congr_left h.ownIds
  exact ids.symm ▸ h.relations

theorem Keyed.relation_ext (h : Keyed s) {k k' : KeptRelation} (hk : k ∈ s.relations.values)
    (hk' : k' ∈ s.relations.values) (hkey : k.relation.key = k'.relation.key) : k = k' := by
  have kept := h.get?_relation hk
  rw [show k.relation.id = k'.relation.id from congrArg Key.id hkey, h.get?_relation hk'] at kept
  exact (Option.some.inj kept).symm

variable [Limits]

theorem Keyed.addWay (h : Keyed s) (w : Way) : Keyed (addWay c w s).state :=
  addWay_keeps h { h with } IntakeStep.keyed w

theorem Keyed.addRelation (h : Keyed s) (r : Relation) : Keyed (addRelation c r s).state :=
  addRelation_keeps h { h with } IntakeStep.keyed r

theorem Keyed.finish (h : Keyed s) : Keyed (finish c s).state :=
  finish_keeps h (keyed_of_chain RelationStep.keyed applyRelations_chain h) fun _ ht => { ht with }

variable [Geometry]

theorem Keyed.addNode (h : Keyed s) (n : Node) : Keyed (addNode c n s).state := by
  apply addNode_keeps h
  · exact { h with bikeRentals := Table.nodup_keys_put h.bikeRentals }
  · exact { h with nodes := Table.nodup_keys_put h.nodes }

theorem Keyed.resolveAreas (h : Keyed s) : Keyed (resolveAreas c s).state :=
  keyed_of_chain AreaStep.keyed resolveAreas_chain h

theorem Keyed.pointsComplete (h : Keyed s) : Keyed (pointsComplete c s).state :=
  pointsComplete_keeps h h.resolveAreas fun _ ht => { ht with }

theorem Keyed.call {op : Operation} (h : Keyed s) (single : op.IsCall) : Keyed (apply c op s).state := by
  cases op with
  | load document => cases single
  | addNode n => exact h.addNode n
  | addWay w => exact h.addWay w
  | addRelation r => exact h.addRelation r
  | linesComplete => exact h.linesComplete
  | pointsComplete => exact h.pointsComplete
  | finish => exact h.finish

theorem Reachable.keyed (h : Reachable c s) : Keyed s :=
  h.call_induction .empty fun _ single _ ht => ht.call single

end StreetMap.Store
