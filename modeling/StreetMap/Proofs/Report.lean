import StreetMap.Proofs.Load
import StreetMap.Proofs.Store.Placing
import StreetMap.Proofs.Store.StopAreas
import StreetMap.Standard

/-!
What a report says of the store that a load has led to.  It lists the areas by their parents, each of
which has one at most, with the stops of each in order, and the turns that start at each way.
-/

namespace StreetMap

def Area.key (a : Area) : Key := a.parent.key

namespace Store

variable {c : Settings} {s t : Store} {op : Operation} {h : List Call}

section Tables

structure Filed (s : Store) : Prop where
  fromTurns : s.fromTurns.keys.Nodup
  stops : ∀ row ∈ s.stops, row.2.Nodup ∧ ∀ id ∈ row.2, s.nodes.has id = true

theorem Filed.empty : Filed empty := ⟨.nil, List.forall_mem_nil _⟩

theorem Filed.mono (hs : Filed s) (turns : t.fromTurns = s.fromTurns) (stops : t.stops = s.stops)
    (nodes : ∀ id, s.nodes.has id = true → t.nodes.has id = true) : Filed t where
  fromTurns := turns ▸ hs.fromTurns
  stops := by
    rw [stops]
    exact fun row hrow => ⟨(hs.stops row hrow).1, fun id hid => nodes id ((hs.stops row hrow).2 id hid)⟩

theorem platformNodes_nodup (s : Store) (r : Relation) : (platformNodes s r).Nodup := nodup_insertAll .nil

theorem IntakeStep.filed (step : IntakeStep c s t) (hs : Filed s) : Filed t :=
  hs.mono step.adds.turns.1 step.stops fun _ hid => step.adds.nodes ▸ hid

theorem AreaStep.fromTurns (step : AreaStep s t) : t.fromTurns = s.fromTurns := by
  cases step with
  | retag id source =>
    rw [Store.retag]
    split <;> rfl
  | _ => rfl

theorem AreaStep.filed (step : AreaStep s t) (hs : Filed s) : Filed t :=
  hs.mono step.fromTurns step.stops fun _ hid => step.same.nodes ▸ hid

theorem RelationStep.fromTurns_nodup (step : RelationStep s t) (hs : s.fromTurns.keys.Nodup) :
    t.fromTurns.keys.Nodup := by
  cases step with
  | turn ends turn => exact Table.nodup_keys_put hs
  | _ => exact hs

variable [Limits]

theorem Filed.applyStopArea (hs : Filed s) (r : Relation) : Filed (applyStopArea r s).state := by
  rw [Store.applyStopArea]
  split
  · rename_i key n ns one some
    refine ⟨hs.fromTurns, fun row hrow => ?_⟩
    rcases Table.mem_put hrow with rfl | hrow
    · rw [← some]
      exact ⟨platformNodes_nodup s r, fun id hid => (mem_platformNodes.1 hid).1⟩
    · exact hs.stops row hrow
  · exact Store.absorb_keeps (P := Filed) ⟨hs.fromTurns, hs.stops⟩ fun _ _ => ⟨hs.fromTurns, hs.stops⟩
  · exact Store.absorb_keeps (P := Filed) ⟨hs.fromTurns, hs.stops⟩ fun _ _ => ⟨hs.fromTurns, hs.stops⟩

theorem Filed.applyRelation (hs : Filed s) (k : KeptRelation) : Filed (applyRelation c k s).state := by
  by_cases kind : k.kind = .stopArea
  · rw [Store.applyRelation, kind]
    exact hs.applyStopArea k.relation
  · refine ⟨keeps_of_chain (applyRelation_chain k) RelationStep.fromTurns_nodup hs.fromTurns, ?_⟩
    rw [applyRelation_stops kind, (applyRelation_same k s).nodes]
    exact hs.stops

variable [Geometry]

theorem Filed.call (hs : Filed s) (single : op.IsCall) : Filed (apply c op s).state := by
  cases op with
  | load document => cases single
  | addNode n =>
    exact addNode_keeps hs (hs.mono rfl rfl fun _ hid => hid) (hs.mono rfl rfl fun _ => Table.has_put_of_has)
  | addWay w => exact addWay_keeps hs (hs.mono rfl rfl fun _ hid => hid) IntakeStep.filed w
  | addRelation r => exact addRelation_keeps hs (hs.mono rfl rfl fun _ hid => hid) IntakeStep.filed r
  | linesComplete => exact linesComplete_keeps hs (hs.mono rfl rfl fun _ hid => hid)
  | pointsComplete =>
    exact pointsComplete_keeps hs (keeps_of_chain resolveAreas_chain AreaStep.filed hs)
      fun t ht => ht.mono rfl rfl fun _ hid => hid
  | finish =>
    refine finish_keeps hs ?_ fun t ht => ht.mono rfl rfl fun _ hid => hid
    exact Outcome.andThen_keeps hs fun t ht => Outcome.forEach_keeps ht fun k _ u hu => hu.applyRelation k

theorem Reachable.filed (h : Reachable c s) : Filed s :=
  h.call_induction .empty fun _ single _ ht => ht.call single

end Tables

section Areas

theorem WellBuilt.area_ext (built : WellBuilt c s) {p q : PlacedArea} (hp : p ∈ s.areas) (hq : q ∈ s.areas)
    (same : p.area.parent.key = q.area.parent.key) : p = q :=
  List.inj_on_of_nodup_map built.keys hp hq same

theorem mem_parents (built : WellBuilt c s) {use : PlacedArea → Bool} {p : PlacedArea} (hp : p ∈ s.areas) :
    p.area.parent.key ∈ ((s.areas.filter use).map PlacedArea.area).map Area.key ↔ use p = true := by
  simp only [List.map_map, List.mem_map, List.mem_filter, Function.comp_apply, Area.key]
  constructor
  · rintro ⟨q, ⟨hq, used⟩, same⟩
    rwa [← built.area_ext hq hp same]
  · exact fun used => ⟨p, ⟨hp, used⟩, rfl⟩

end Areas

end Store

namespace Report

open Store (WellBuilt Filed)

variable {c : Settings} {s : Store} {r : Report} {p : PlacedArea} {f : AreaFeature} {paths : List String}

def parkingOnly (s : Store) : List Area :=
  s.parkAndRideAreas.filter fun a => a.key ∉ s.walkableAreas.map Area.key

section Areas

theorem parkingOnly_eq (built : WellBuilt c s) :
    parkingOnly s = (s.areas.filter fun p => p.parkAndRide && !p.walkable).map PlacedArea.area := by
  rw [parkingOnly, Store.parkAndRideAreas, List.filter_map, List.filter_filter]
  refine congrArg _ (List.filter_congr fun p hp => ?_)
  have walkable : p.area.key ∈ s.walkableAreas.map Area.key ↔ p.walkable = true := Store.mem_parents built hp
  simp only [Function.comp_apply, walkable, decide_not, Bool.decide_eq_true, Bool.and_comm]

theorem areasInOrder_eq (built : WellBuilt c s) :
    (areasInOrder s).map PlacedArea.area = s.walkableAreas ++ parkingOnly s := by
  rw [areasInOrder, List.map_append, parkingOnly_eq built]
  rfl

theorem mem_of_mem_areasInOrder (hp : p ∈ areasInOrder s) : p ∈ s.areas := by
  rcases List.mem_append.1 hp with hp | hp
  · exact (List.mem_filter.1 hp).1
  · exact (List.mem_filter.1 hp).1

theorem areasInOrder_nodup (built : WellBuilt c s) : ((areasInOrder s).map fun p => p.area.key).Nodup := by
  have parts (use : PlacedArea → Bool) : ((s.areas.filter use).map fun p => p.area.key).Nodup :=
    built.keys.sublist (List.filter_sublist.map _)
  rw [areasInOrder, List.map_append]
  refine (parts _).append (parts _) fun k hk hk' => ?_
  obtain ⟨p, hp, rfl⟩ := List.mem_map.1 hk
  obtain ⟨q, hq, same⟩ := List.mem_map.1 hk'
  rw [List.mem_filter] at hp hq
  rw [built.area_ext hq.1 hp.1 same, hp.2] at hq
  simp at hq

theorem countP_walkable : (areasInOrder s).countP PlacedArea.walkable = s.walkableAreas.length := by
  have none : (s.areas.filter fun p => p.parkAndRide && !p.walkable).countP PlacedArea.walkable = 0 := by
    rw [List.countP_eq_zero]
    intro p hp
    have used := (List.mem_filter.1 hp).2
    rw [Bool.and_eq_true, Bool.not_eq_true'] at used
    simp [used.2]
  rw [areasInOrder, List.countP_append, none, Store.walkableAreas, List.length_map, List.countP_eq_length_filter,
    List.filter_filter]
  simp

theorem countP_parkAndRide : (areasInOrder s).countP PlacedArea.parkAndRide = s.parkAndRideAreas.length := by
  rw [areasInOrder, List.countP_append, Store.parkAndRideAreas, List.length_map,
    ← List.countP_eq_length_filter, List.countP_eq_countP_filter_add s.areas _ PlacedArea.walkable]
  congr 1
  rw [List.countP_filter, List.countP_filter]
  refine List.countP_congr fun p _ => ?_
  simp

end Areas

section Features

theorem mem_stopsAt {k : Key} {id : Int} : id ∈ stopsAt s k ↔ ∃ ids, s.stops? k = some ids ∧ id ∈ ids := by
  rw [stopsAt, List.mem_mergeSort]
  cases s.stops? k <;> simp

theorem stopsAt_ascending (filed : Filed s) (k : Key) : (stopsAt s k).Pairwise (· < ·) := by
  have nodup : (stopsAt s k).Nodup := by
    rw [stopsAt, (List.mergeSort_perm _ _).nodup_iff]
    cases hk : s.stops? k with
    | none => exact .nil
    | some ids => exact (filed.stops _ (Table.mem_of_get? hk)).1
  have sorted : (stopsAt s k).Pairwise (fun m n => decide (m ≤ n) = true) :=
    List.pairwise_mergeSort (by simp; omega) (by simp; omega) _
  refine (sorted.and nodup).imp fun ⟨le, ne⟩ => ?_
  exact Int.lt_iff_le_and_ne.2 ⟨of_decide_eq_true le, ne⟩

theorem length_filter_eq {α β : Type} {use : α → Bool} {use' : β → Bool} {xs : List α} {ys : List β}
    (h : ys.map use' = xs.map use) : (ys.filter use').length = xs.countP use := by
  rw [← List.countP_eq_length_filter, ← Function.id_comp use, ← Function.id_comp use', ← List.countP_map, h,
    List.countP_map]

theorem turnsOf_eq (filed : Filed s) :
    turnsOf s = s.fromTurns.keys.flatMap fun way => (s.turnsFrom way).map (turnOf way) := by
  rw [turnsOf, Table.keys, List.flatMap_map]
  refine List.flatMap_congr fun row hrow => ?_
  rw [Store.turnsFrom, Table.get?_of_mem filed.fromTurns hrow]
  rfl

end Features

variable [Geometry]

structure Shows (s : Store) (a : Area) (f : AreaFeature) : Prop where
  parent : f.parent = a.key
  name : nameOf a.parent.tags = .ok f.name
  coordinates : f.coordinates = a.coordinates
  ascending : f.stops.Pairwise (· < ·)
  stops : ∀ id, id ∈ f.stops ↔ ∃ ids, s.stops? f.parent = some ids ∧ id ∈ ids
  kept : ∀ id ∈ f.stops, s.nodes.has id = true

/-- A report says what is in the store: each area for walking or parking once, by its parent, and as many of
either as are counted, the turns at each way in the order of the index, and all findings. -/
structure Faithful (s : Store) (r : Report) : Prop where
  areas : List.Forall₂ (Shows s) (s.walkableAreas ++ parkingOnly s) r.areas
  distinct : (r.areas.map AreaFeature.parent).Nodup
  walkable : ∀ f ∈ r.areas, f.walkable = true ↔ f.parent ∈ s.walkableAreas.map Area.key
  parkAndRide : ∀ f ∈ r.areas, f.parkAndRide = true ↔ f.parent ∈ s.parkAndRideAreas.map Area.key
  walkableCount : (r.areas.filter AreaFeature.walkable).length = r.counts.walkableAreas
  parkAndRideCount : (r.areas.filter AreaFeature.parkAndRide).length = r.counts.parkAndRideAreas
  stopAreas : r.counts.stopAreas = (r.areas.filter fun f => f.stops ≠ []).length
  turns : r.turns = s.fromTurns.keys.flatMap fun way => (s.turnsFrom way).map (turnOf way)
  turnCount : r.counts.turnRestrictions = r.turns.length
  anomalies : r.anomalies = s.anomalies ∧ r.counts.anomalies = s.anomalies.length
  elements : r.counts.nodes = s.nodes.length ∧ r.counts.ways = s.ways.length ∧
    r.counts.areaWays = s.areaWays.length ∧ r.counts.bikeRentals = s.bikeRentals.length
  areaCounts : r.counts.walkableAreas = s.walkableAreas.length ∧
    r.counts.parkAndRideAreas = s.parkAndRideAreas.length

theorem shows_of_featureOf (filed : Filed s) (h : featureOf s p = .ok f) :
    Shows s p.area f ∧ f.walkable = p.walkable ∧ f.parkAndRide = p.parkAndRide := by
  obtain ⟨name, hname, h⟩ := bind_eq_ok.1 h
  cases h
  refine ⟨⟨rfl, hname, rfl, stopsAt_ascending filed _, fun id => mem_stopsAt, fun id hid => ?_⟩, rfl, rfl⟩
  obtain ⟨ids, hids, hid⟩ := mem_stopsAt.1 hid
  exact (filed.stops _ (Table.mem_of_get? hids)).2 id hid

theorem faithful_of_ofStore (built : WellBuilt c s) (filed : Filed s) (h : ofStore c paths s = .ok r) :
    Faithful s r := by
  obtain ⟨areas, hareas, h⟩ := bind_eq_ok.1 h
  cases h
  have parents : areas.map AreaFeature.parent = (areasInOrder s).map fun p => p.area.key :=
    map_eq_of_mapM hareas fun p f hf => (shows_of_featureOf filed hf).1.parent.symm
  have walkable : areas.map AreaFeature.walkable = (areasInOrder s).map PlacedArea.walkable :=
    map_eq_of_mapM hareas fun p f hf => (shows_of_featureOf filed hf).2.1.symm
  have parkAndRide : areas.map AreaFeature.parkAndRide = (areasInOrder s).map PlacedArea.parkAndRide :=
    map_eq_of_mapM hareas fun p f hf => (shows_of_featureOf filed hf).2.2.symm
  have source (f : AreaFeature) (hf : f ∈ areas) : ∃ p ∈ s.areas,
      f.parent = p.area.key ∧ f.walkable = p.walkable ∧ f.parkAndRide = p.parkAndRide := by
    obtain ⟨p, hp, hpf⟩ := exists_of_mem_mapM hareas f hf
    obtain ⟨shows, uses⟩ := shows_of_featureOf filed hpf
    exact ⟨p, mem_of_mem_areasInOrder hp, shows.parent, uses⟩
  constructor
  case areas =>
    rw [← areasInOrder_eq built, List.forall₂_map_left_iff]
    exact (mapM_eq_ok.1 hareas).imp fun p f hf => (shows_of_featureOf filed hf).1
  case distinct => exact parents ▸ areasInOrder_nodup built
  case walkable =>
    intro f hf
    obtain ⟨p, hp, parent, used, -⟩ := source f hf
    rw [parent, used]
    exact (Store.mem_parents built hp).symm
  case parkAndRide =>
    intro f hf
    obtain ⟨p, hp, parent, -, used⟩ := source f hf
    rw [parent, used]
    exact (Store.mem_parents built hp).symm
  case walkableCount => rw [length_filter_eq walkable, countP_walkable]; rfl
  case parkAndRideCount => rw [length_filter_eq parkAndRide, countP_parkAndRide]; rfl
  case stopAreas =>
    refine congrArg List.length (List.filter_congr fun f _ => ?_)
    cases f.stops <;> rfl
  case turns => exact turnsOf_eq filed
  case turnCount => rfl
  case anomalies => exact ⟨rfl, rfl⟩
  case elements => exact ⟨rfl, rfl, rfl, rfl⟩
  case areaCounts => exact ⟨rfl, rfl⟩

end Report

namespace Load

variable {c : Settings} {files : FileTree} {paths : List String} {r : Report}

/-- Where the load of some files gives a report, the report says what is in the store that they lead to. -/
theorem report_faithful [Limits] [Geometry] (h : (run c files paths).result = .ok r) :
    r.Faithful (resolve c files paths).state := by
  obtain ⟨resolved, reported⟩ := run_ok h
  obtain ⟨documents, -, all, hs⟩ := resolve_ok resolved
  obtain ⟨-, calls⟩ := Store.history_ok all
  rw [hs] at reported ⊢
  exact Report.faithful_of_ofStore ((Store.leads_history _).wellBuilt calls)
    (Store.Reachable.filed ⟨_, rfl⟩) reported

section Examples

open Standard

def cornerJson (id lon lat : Int) : Json :=
  .object [("type", .text "node"), ("id", .int id), ("lat", .int lat), ("lon", .int lon)]

def plaza : Json :=
  .object [("elements", .list [
    .object [("type", .text "way"), ("id", .int 10), ("nodes", .list [.int 1, .int 2, .int 3, .int 1]),
      ("tags", .object [("highway", .text "pedestrian"), ("area", .text "yes")])],
    cornerJson 1 0 0, cornerJson 2 1 0, cornerJson 3 0 1])]

def plazaFiles : FileTree := [(["plaza.json"], .file (Text.Utf8.encode plaza.compact))]

set_option maxRecDepth 1500 in
theorem plaza_reads : document plazaFiles "plaza.json" = .ok plaza :=
  document_of_read plaza.compact (by decide +kernel) (by with_unfolding_all rfl)

theorem plaza_resolves : resolve .default plazaFiles ["plaza.json"] =
    ((Outcome.saying .info "Loading plaza.json" Store.empty).andThen (Store.loadDocument .default plaza)).andThen
      (Store.finish .default) :=
  resolve_of_document plaza_reads

def uses (r : Report) : List (Key × Bool × Bool × List Int) :=
  r.areas.map fun f => (f.parent, f.walkable, f.parkAndRide, f.stops)

theorem plaza_report_faithful :
    ∃ r, (run .default plazaFiles ["plaza.json"]).result = .ok r ∧
      uses r = [(⟨.way, 10⟩, true, false, [])] ∧
      r.Faithful (resolve .default plazaFiles ["plaza.json"]).state := by
  have shown : ((run .default plazaFiles ["plaza.json"]).result.toOption.map uses) =
      some [(⟨.way, 10⟩, true, false, [])] := by
    rw [run, plaza_resolves]
    decide +kernel
  cases hr : (run .default plazaFiles ["plaza.json"]).result with
  | error e =>
    rw [hr] at shown
    cases shown
  | ok r =>
    rw [hr] at shown
    exact ⟨r, rfl, Option.some.inj shown, report_faithful hr⟩

end Examples

end Load

end StreetMap
