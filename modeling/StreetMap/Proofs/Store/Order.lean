import StreetMap.Proofs.Store.Alike
import StreetMap.Standard

/-!
The order of a document.  Phase by phase, the elements of one source are each dealt with for the first
time, and what an element is worth does not depend on the others of its phase; so the order of the
elements makes no difference but for the order of what is kept.
-/

namespace StreetMap

/-- No two elements of a kind have the same id. -/
structure Extract.Distinct (x : Extract) : Prop where
  nodes : (x.nodes.map Node.id).Nodup
  ways : (x.ways.map Way.id).Nodup
  relations : (x.relations.map Relation.id).Nodup

namespace Store

variable {c : Settings} {s t : Store}

section Relations

structure RelationsIn (s : Store) : Prop where
  phase : s.phase = .ingesting
  nodes : s.nodes = []
  bikeRentals : s.bikeRentals = []
  ways : s.ways = []
  areaWays : s.areaWays = []
  processed : s.processed = []
  levels : ∀ k ∈ s.levels.keys, k.kind = .relation
  members : ∀ k ∈ s.relations.values, k.kind = .multipolygon →
    ∀ m ∈ k.relation.wayMembers, m.ref ∈ s.areaWayIds

theorem RelationsIn.empty : RelationsIn empty where
  phase := rfl
  nodes := rfl
  bikeRentals := rfl
  ways := rfl
  areaWays := rfl
  processed := rfl
  levels := List.forall_mem_nil _
  members := List.forall_mem_nil _

variable [Limits]

theorem relations_yield {rs : List Relation} (distinct : (rs.map Relation.id).Nodup) :
    Yields (Outcome.forEach (addRelation c) rs empty) empty
      ((rs.mapM (relationVerdict c)).map Harvest.join) := by
  refine forEach_yields (R := RelationReady) (D := fun r r' => r.id ≠ r'.id)
    (List.pairwise_map.1 distinct) ?_ ?_ ?_
  · exact fun _ _ => ⟨rfl, rfl, rfl⟩
  · exact fun _ _ ready => addRelation_yields ready
  · exact fun _ _ hid _ _ hv ready => ready.stay hid hv

theorem RelationsIn.add {r : Relation} {h : Harvest} (hs : RelationsIn s)
    (hv : relationVerdict c r = .ok h) : RelationsIn (s.add h) := by
  cases relationVerdict_ok hv with
  | inl hh => rw [hh, add_nothing]; exact hs
  | inr hh =>
    obtain ⟨kind, ids, ls, as, rfl, hids, hls⟩ := hh
    refine ⟨hs.phase, ?_, ?_, ?_, ?_, hs.processed, ?_, ?_⟩
    · simp [Store.add, hs.nodes]
    · simp [Store.add, hs.bikeRentals]
    · simp [Store.add, hs.ways]
    · simp [Store.add, hs.areaWays]
    · intro k hk
      rw [Store.add, Table.keys, List.map_append, List.mem_append] at hk
      cases hk with
      | inl hk => exact hs.levels k hk
      | inr hk =>
        obtain ⟨row, hrow, rfl⟩ := List.mem_map.1 hk
        rw [hls row hrow]
        rfl
    · intro k hk hkind m hm
      apply mem_insertAll.2
      rw [Store.add, Table.values, List.map_append, List.mem_append] at hk
      cases hk with
      | inl hk => exact .inl (hs.members k hk hkind m hm)
      | inr hk =>
        rw [List.map_singleton, List.mem_singleton] at hk
        subst hk
        rw [hids hkind]
        exact .inr (List.mem_map_of_mem hm)

theorem relations_agree {rs rs' : List Relation} (hp : rs.Perm rs')
    (distinct : (rs.map Relation.id).Nodup) :
    Outcome.Agree (fun s t => Alike s t ∧ (Keyed s ∧ RelationsIn s) ∧ Keyed t ∧ RelationsIn t)
      (Outcome.forEach (addRelation c) rs Store.empty) (Outcome.forEach (addRelation c) rs' Store.empty) := by
  have distinct' := (hp.map Relation.id).nodup_iff.1 distinct
  have keyed : ∀ rs, Keyed (Outcome.forEach (addRelation c) rs Store.empty).state :=
    fun rs => Outcome.forEach_keeps .empty fun r _ _ hs => hs.addRelation r
  refine (agree_of_yields (.refl _) hp (relations_yield distinct) (relations_yield distinct')).imp ?_
  intro h
  exact ⟨h.1, ⟨keyed rs, h.2.1.keeps .empty fun _ _ _ _ hv hs => hs.add hv⟩,
    keyed rs', h.2.2.keeps .empty fun _ _ _ _ hv hs => hs.add hv⟩

end Relations

section Ways

structure LinesIn (p : Phase) (s : Store) : Prop where
  phase : s.phase = p
  nodes : s.nodes = []
  bikeRentals : s.bikeRentals = []
  processed : s.processed = []
  plain : ∀ k ∈ s.relations.values, k.kind = .multipolygon →
    ∀ m ∈ k.relation.wayMembers, s.ways.has m.ref = false

theorem lines_agree (h : Alike s t) (hs : Keyed s ∧ LinesIn .ingesting s)
    (ht : Keyed t ∧ LinesIn .ingesting t) :
    Outcome.Agree
      (fun s t => Alike s t ∧ (Keyed s ∧ LinesIn .linesMarked s) ∧ Keyed t ∧ LinesIn .linesMarked t)
      (linesComplete s) (linesComplete t) := by
  have marked : ∀ {s}, LinesIn .ingesting s → LinesIn .linesMarked s.marked :=
    fun hs => { hs with phase := rfl }
  have opened : ∀ {s}, LinesIn .ingesting s → s.phase ≠ .relationsProcessed := by
    intro s hs
    rw [hs.phase]
    decide
  have keyeds := hs.1.linesComplete
  have keyedt := ht.1.linesComplete
  rw [linesComplete_eq (opened hs.2)] at keyeds ⊢
  rw [linesComplete_eq (opened ht.2)] at keyedt ⊢
  exact ⟨.rfl, fun _ => ⟨h.marked, ⟨keyeds, marked hs.2⟩, keyedt, marked ht.2⟩⟩

structure WaysSoFar (start s : Store) : Prop where
  phase : s.phase = start.phase
  nodes : s.nodes = start.nodes
  bikeRentals : s.bikeRentals = start.bikeRentals
  processed : s.processed = start.processed
  relations : s.relations = start.relations
  ways : ∀ id, s.ways.has id = true → id ∉ start.areaWayIds

theorem WaysSoFar.add_lines {h : Harvest} (hs : WaysSoFar t s) (nodes : h.nodes = [])
    (bikeRentals : h.bikeRentals = []) (processed : h.processed = []) (relations : h.relations = [])
    (ways : ∀ id, h.ways.has id = true → id ∉ t.areaWayIds) : WaysSoFar t (s.add h) where
  phase := hs.phase
  nodes := by simp [Store.add, hs.nodes, nodes]
  bikeRentals := by simp [Store.add, hs.bikeRentals, bikeRentals]
  processed := by simp [Store.add, insertAll, hs.processed, processed]
  relations := by simp [Store.add, hs.relations, relations]
  ways := by
    intro id hid
    rw [Store.add, Table.has_append, Bool.or_eq_true] at hid
    cases hid with
    | inl hid => exact hs.ways id hid
    | inr hid => exact ways id hid

theorem WaysSoFar.linesIn (h : WaysSoFar t s) (ht : RelationsIn t) : LinesIn .ingesting s where
  phase := h.phase.trans ht.phase
  nodes := h.nodes.trans ht.nodes
  bikeRentals := h.bikeRentals.trans ht.bikeRentals
  processed := h.processed.trans ht.processed
  plain := by
    intro k hk hkind m hm
    rw [h.relations] at hk
    rw [← Bool.not_eq_true]
    exact fun hid => h.ways m.ref hid (ht.members k hk hkind m hm)

theorem RelationsIn.waysSoFar (hs : RelationsIn s) : WaysSoFar s s where
  phase := rfl
  nodes := rfl
  bikeRentals := rfl
  processed := rfl
  relations := rfl
  ways := by
    intro id hid
    rw [hs.ways] at hid
    cases hid

variable [Limits]

theorem ways_yield {ws : List Way} (hs : RelationsIn s) (distinct : (ws.map Way.id).Nodup) :
    Yields (Outcome.forEach (addWay c) ws s) s
      ((ws.mapM fun w => wayVerdict c (w.id ∈ s.areaWayIds) w).map Harvest.join) := by
  refine forEach_yields (R := fun w => WayReady (w.id ∈ s.areaWayIds) w)
    (D := fun w w' => w.id ≠ w'.id) (List.pairwise_map.1 distinct) ?_ ?_ ?_
  · intro w _
    refine ⟨hs.phase, ?_, ?_, ?_, rfl⟩
    · rw [hs.ways]; rfl
    · rw [hs.areaWays]; rfl
    · rw [← Bool.not_eq_true, Table.has_iff_mem_keys]
      intro hk
      cases hs.levels w.key hk
  · exact fun _ _ ready => addWay_yields ready
  · exact fun _ _ hid _ _ hv ready => ready.stay hid hv

theorem WaysSoFar.add {w : Way} {h : Harvest} (hs : WaysSoFar t s)
    (hv : wayVerdict c (w.id ∈ t.areaWayIds) w = .ok h) : WaysSoFar t (s.add h) := by
  obtain ⟨l, as, rfl | rfl | rfl | ⟨unmarked, rfl⟩⟩ := wayVerdict_ok hv
  · exact hs.add_lines rfl rfl rfl rfl (by simp)
  · exact hs.add_lines rfl rfl rfl rfl (by simp)
  · exact hs.add_lines rfl rfl rfl rfl (by simp)
  · apply hs.add_lines rfl rfl rfl rfl
    intro id hid
    rw [Table.has_singleton, decide_eq_true_eq] at hid
    rw [← hid]
    exact of_decide_eq_false unmarked

theorem ways_agree {ws ws' : List Way} (hp : ws.Perm ws') (distinct : (ws.map Way.id).Nodup)
    (h : Alike s t) (hs : Keyed s ∧ RelationsIn s) (ht : Keyed t ∧ RelationsIn t) :
    Outcome.Agree (fun s t => Alike s t ∧ (Keyed s ∧ LinesIn .ingesting s) ∧ Keyed t ∧ LinesIn .ingesting t)
      (Outcome.forEach (addWay c) ws s) (Outcome.forEach (addWay c) ws' t) := by
  have distinct' := (hp.map Way.id).nodup_iff.1 distinct
  have keyed : ∀ ws s, Keyed s → Keyed (Outcome.forEach (addWay c) ws s).state :=
    fun ws s hs => Outcome.forEach_keeps hs fun w _ _ hs => hs.addWay w
  have yields' := ways_yield (c := c) ht.2 distinct'
  simp only [← h.areaWayIds] at yields'
  refine (agree_of_yields h hp (ways_yield hs.2 distinct) yields').imp ?_
  intro h'
  refine ⟨h'.1, ⟨keyed ws s hs.1, ?_⟩, keyed ws' t ht.1, ?_⟩
  · exact (h'.2.1.keeps hs.2.waysSoFar fun _ _ _ _ hv hs => hs.add hv).linesIn hs.2
  · refine (h'.2.2.keeps ht.2.waysSoFar fun w _ _ _ hv hs => ?_).linesIn ht.2
    simp only [h.areaWayIds] at hv
    exact hs.add hv

end Ways

section Nodes

structure NodesIn (s : Store) : Prop where
  phase : s.phase = .linesMarked
  processed : s.processed = []
  plain : ∀ k ∈ s.relations.values, k.kind = .multipolygon →
    ∀ m ∈ k.relation.wayMembers, s.ways.has m.ref = false

theorem nodes_yield {ns : List Node} (hs : LinesIn .linesMarked s) (distinct : (ns.map Node.id).Nodup) :
    Yields (Outcome.forEach (addNode c) ns s) s
      ((ns.mapM fun n => nodeVerdict c (s.wants n) n).map Harvest.join) := by
  refine forEach_yields (R := fun n => NodeReady (s.wants n) n) (D := fun n n' => n.id ≠ n'.id)
    (List.pairwise_map.1 distinct) ?_ ?_ ?_
  · intro n _
    refine ⟨?_, ?_, ?_, rfl⟩
    · rw [hs.phase]; decide
    · rw [hs.nodes]; rfl
    · rw [hs.bikeRentals]; rfl
  · exact fun _ _ ready => addNode_yields ready
  · exact fun _ _ hid _ _ hv ready => ready.stay hid hv

theorem LinesIn.nodesIn (hs : LinesIn .linesMarked s) : NodesIn s := ⟨hs.phase, hs.processed, hs.plain⟩

theorem NodesIn.add {wanted : Bool} {n : Node} {h : Harvest} (hs : NodesIn s)
    (hv : nodeVerdict c wanted n = .ok h) : NodesIn (s.add h) := by
  obtain rfl | rfl | rfl := nodeVerdict_ok hv <;>
    exact ⟨hs.phase, hs.processed, by simpa [Store.add] using hs.plain⟩

variable [Limits] [Geometry]

theorem nodes_agree {ns ns' : List Node} (hp : ns.Perm ns') (distinct : (ns.map Node.id).Nodup)
    (h : Alike s t) (hs : Keyed s ∧ LinesIn .linesMarked s) (ht : Keyed t ∧ LinesIn .linesMarked t) :
    Outcome.Agree (fun s t => Alike s t ∧ (Keyed s ∧ NodesIn s) ∧ Keyed t ∧ NodesIn t)
      (Outcome.forEach (addNode c) ns s) (Outcome.forEach (addNode c) ns' t) := by
  have distinct' := (hp.map Node.id).nodup_iff.1 distinct
  have keyed : ∀ ns s, Keyed s → Keyed (Outcome.forEach (addNode c) ns s).state :=
    fun ns s hs => Outcome.forEach_keeps hs fun n _ _ hs => hs.addNode n
  have yields' := nodes_yield (c := c) ht.2 distinct'
  simp only [← h.wants] at yields'
  refine (agree_of_yields h hp (nodes_yield hs.2 distinct) yields').imp ?_
  intro h'
  exact ⟨h'.1,
    ⟨keyed ns s hs.1, h'.2.1.keeps hs.2.nodesIn fun _ _ _ _ hv hs => hs.add hv⟩,
    keyed ns' t ht.1, h'.2.2.keeps ht.2.nodesIn fun _ _ _ _ hv hs => hs.add hv⟩

end Nodes

section Areas

def MultipolygonsTried (s : Store) : Prop := ∀ k ∈ s.processed, k.kind = .relation

variable [Limits] [Geometry]

theorem multipolygons_yield (keyed : Keyed s) (hs : NodesIn s) :
    Yields (Outcome.forEach (tryMultipolygon c) s.relations.values s) s
      ((s.relations.values.mapM (multipolygonVerdict c s)).map Harvest.join) := by
  have distinct : s.relations.values.Pairwise fun k k' => k.relation.key ≠ k'.relation.key := by
    rw [Table.values, List.pairwise_map]
    have keys := keyed.relations
    rw [Table.keys, List.Nodup, List.pairwise_map] at keys
    refine keys.imp_of_mem fun {r r'} hr hr' hne hkey => hne ?_
    rw [← keyed.ownIds r hr, ← keyed.ownIds r' hr']
    exact congrArg Key.id hkey
  refine forEach_yields (R := MultipolygonReady s) (D := fun k k' => k.relation.key ≠ k'.relation.key)
    distinct ?_ ?_ ?_
  · intro k hk
    refine ⟨⟨fun _ => rfl, fun _ => rfl⟩, ?_, hs.plain k hk⟩
    rw [hs.processed]
    exact List.not_mem_nil
  · exact fun _ _ ready => tryMultipolygon_yields ready
  · exact fun _ _ hne _ _ hv ready => ready.stay hne hv

theorem candidates_yield (keyed : Keyed s) (hs : MultipolygonsTried s) :
    Yields (Outcome.forEach (tryCandidate c) s.candidates s) s
      ((s.candidates.mapM (candidateVerdict c s)).map Harvest.join) := by
  refine forEach_yields (R := CandidateReady s) (D := fun w w' => w.key ≠ w'.key) ?_ ?_ ?_ ?_
  · refine (List.pairwise_map.1 keyed.candidates.1).imp fun hne hkey => hne ?_
    exact congrArg Key.id hkey
  · intro w _
    refine ⟨⟨fun _ => rfl, fun _ => rfl⟩, fun hw => ?_⟩
    cases hs w.key hw
  · exact fun _ _ ready => tryCandidate_yields ready
  · exact fun _ _ hne _ _ hv ready => ready.stay hne hv

theorem MultipolygonsTried.add {k : KeptRelation} {h : Harvest} (hs : MultipolygonsTried s)
    (hv : multipolygonVerdict c t k = .ok h) : MultipolygonsTried (s.add h) := by
  obtain ⟨as, bs, ps, fs, rfl, hp⟩ := multipolygonVerdict_areas hv
  intro k' hk
  cases mem_insertAll.1 hk with
  | inl hk => exact hs k' hk
  | inr hk => rw [hp k' hk]; rfl

theorem areas_agree (h : Alike s t) (hs : Keyed s ∧ NodesIn s) (ht : Keyed t ∧ NodesIn t) :
    Outcome.Agree (fun s t => Alike s t ∧ Keyed s ∧ Keyed t) (resolveAreas c s) (resolveAreas c t) := by
  have tried : ∀ s, Keyed s → Keyed (Outcome.forEach (tryMultipolygon c) s.relations.values s).state :=
    fun s hs => keyed_of_chain AreaStep.keyed (forEach_chain (fun k _ => tryMultipolygon_chain k) _ s) hs
  have placed : ∀ s, Keyed s → Keyed (Outcome.forEach (tryCandidate c) s.candidates s).state :=
    fun s hs => keyed_of_chain AreaStep.keyed (forEach_chain (fun w _ => tryCandidate_chain w) _ s) hs
  refine Outcome.Agree.andThen (R := fun s t => Alike s t ∧ (Keyed s ∧ MultipolygonsTried s) ∧
    Keyed t ∧ MultipolygonsTried t) ?_ ?_
  · have yields' := multipolygons_yield (c := c) ht.1 ht.2
    rw [← multipolygonVerdict_congr (h.lookups hs.1)] at yields'
    have hp : s.relations.values.Perm t.relations.values := h.relations.map Prod.snd
    have start : ∀ {s}, NodesIn s → MultipolygonsTried s := by
      intro s hs k hk
      rw [hs.processed] at hk
      cases hk
    refine (agree_of_yields h hp (multipolygons_yield hs.1 hs.2) yields').imp ?_
    intro h'
    exact ⟨h'.1, ⟨tried s hs.1, h'.2.1.keeps (start hs.2) fun _ _ _ _ hv hs => hs.add hv⟩,
      tried t ht.1, h'.2.2.keeps (start ht.2) fun _ _ _ _ hv hs => hs.add hv⟩
  · rintro s t ⟨h, hs, ht⟩
    have yields' := candidates_yield (c := c) ht.1 ht.2
    rw [← candidateVerdict_congr (h.lookups hs.1)] at yields'
    refine (agree_of_yields h h.candidates (candidates_yield hs.1 hs.2) yields').imp ?_
    exact fun h' => ⟨h'.1, placed s hs.1, placed t ht.1⟩

theorem points_agree (h : Alike s t) (hs : Keyed s ∧ NodesIn s) (ht : Keyed t ∧ NodesIn t) :
    Outcome.Agree (fun s t => Alike s t ∧ Keyed s ∧ Keyed t) (pointsComplete c s) (pointsComplete c t) := by
  rw [pointsComplete_of_open (.inl hs.2.phase), pointsComplete_of_open (.inl ht.2.phase)]
  refine (areas_agree h hs ht).andThen ?_
  rintro s t ⟨h, hs, ht⟩
  exact ⟨.rfl, fun _ => ⟨h.atPhase _, { hs with }, { ht with }⟩⟩

end Areas

section Documents

def SameTable {α β : Type} [DecidableEq α] (t u : Table α β) : Prop :=
  t.Perm u ∧ ∀ k, t.get? k = u.get? k

/-- The stores hold the same, and only the order in which it came may differ. -/
structure SameContents (s t : Store) : Prop where
  phase : s.phase = t.phase
  nodes : SameTable s.nodes t.nodes
  bikeRentals : SameTable s.bikeRentals t.bikeRentals
  ways : SameTable s.ways t.ways
  areaWays : SameTable s.areaWays t.areaWays
  relations : SameTable s.relations t.relations
  levels : SameTable s.levels t.levels
  walkableAreas : s.walkableAreas.Perm t.walkableAreas
  parkAndRideAreas : s.parkAndRideAreas.Perm t.parkAndRideAreas
  candidates : s.candidates.Perm t.candidates
  processed : ∀ k, s.isProcessed k = t.isProcessed k
  bounds : ∀ n, (waysAt s.boundsAt n).Perm (waysAt t.boundsAt n)
  bounded : ∀ n, s.boundsAt.has n = t.boundsAt.has n
  areaWayIds : ∀ id, id ∈ s.areaWayIds ↔ id ∈ t.areaWayIds
  wayNodeIds : ∀ id, id ∈ s.wayNodeIds ↔ id ∈ t.wayNodeIds
  areaNodeIds : ∀ id, id ∈ s.areaNodeIds ↔ id ∈ t.areaNodeIds
  fromTurns : s.fromTurns = t.fromTurns
  toTurns : s.toTurns = t.toTurns
  stops : s.stops = t.stops
  anomalies : s.anomalies.Perm t.anomalies

theorem Alike.contents (h : Alike s t) (hs : Keyed s) (ht : Keyed t) : SameContents s t where
  phase := h.phase
  nodes := ⟨h.nodes, Table.get?_perm h.nodes hs.nodes⟩
  bikeRentals := ⟨h.bikeRentals, Table.get?_perm h.bikeRentals hs.bikeRentals⟩
  ways := ⟨h.ways, Table.get?_perm h.ways hs.ways⟩
  areaWays := ⟨h.areaWays, Table.get?_perm h.areaWays hs.areaWays⟩
  relations := ⟨h.relations, Table.get?_perm h.relations hs.relations⟩
  levels := ⟨h.levels, Table.get?_perm h.levels hs.levels⟩
  walkableAreas := (h.areas.filter PlacedArea.walkable).map PlacedArea.area
  parkAndRideAreas := (h.areas.filter PlacedArea.parkAndRide).map PlacedArea.area
  candidates := h.candidates
  processed := fun k => by simp only [isProcessed, h.processed k]
  bounds := fun n => (List.perm_ext_iff_of_nodup (hs.boundsAt.2 n) (ht.boundsAt.2 n)).2 (h.bounds n)
  bounded := h.bounded
  areaWayIds := h.areaWayIds
  wayNodeIds := h.wayNodeIds
  areaNodeIds := h.areaNodeIds
  fromTurns := h.fromTurns
  toTurns := h.toTurns
  stops := h.stops
  anomalies := h.anomalies

variable [Limits]

theorem read_perm {document document' : Json} {es es' : List Json} {x : Extract}
    (hes : Extract.elements document = .ok es) (hes' : Extract.elements document' = .ok es')
    (hp : es.Perm es') (hx : (Extract.ofDocument document).result = .ok x) :
    ∃ y, (Extract.ofDocument document').result = .ok y ∧ x.nodes.Perm y.nodes ∧ x.ways.Perm y.ways ∧
      x.relations.Perm y.relations := by
  rw [Extract.ofDocument_result, hes] at hx
  obtain ⟨xs, hxs, rfl⟩ := map_eq_ok.1 hx
  obtain ⟨ys, hys, hperm⟩ := mapM_perm hp hxs
  refine ⟨Extract.join ys, ?_, hperm.flatMap_right _, hperm.flatMap_right _, hperm.flatMap_right _⟩
  rw [Extract.ofDocument_result, hes']
  exact map_eq_ok.2 ⟨ys, hys, rfl⟩

variable [Geometry]

theorem addExtract_agree {x y : Extract} (distinct : x.Distinct) (nodes : x.nodes.Perm y.nodes)
    (ways : x.ways.Perm y.ways) (relations : x.relations.Perm y.relations) :
    Outcome.Agree (fun s t => Alike s t ∧ Keyed s ∧ Keyed t) (addExtract c x Store.empty)
      (addExtract c y Store.empty) := by
  have afterWays := (relations_agree (c := c) relations distinct.relations).andThen
    fun s t h => ways_agree (c := c) ways distinct.ways h.1 h.2.1 h.2.2
  have afterLines := afterWays.andThen fun s t h => lines_agree h.1 h.2.1 h.2.2
  have afterNodes := afterLines.andThen
    fun s t h => nodes_agree (c := c) nodes distinct.nodes h.1 h.2.1 h.2.2
  exact afterNodes.andThen fun s t h => points_agree h.1 h.2.1 h.2.2

/-- The order of the elements of one document does not matter: from an empty store, a document and one with
the same elements in another order are both refused, or both are loaded and leave the same contents. -/
theorem document_order {document document' : Json} {es es' : List Json}
    (hes : Extract.elements document = .ok es) (hes' : Extract.elements document' = .ok es')
    (hp : es.Perm es') (distinct : ∀ x, (Extract.ofDocument document).result = .ok x → x.Distinct) :
    ((loadDocument c document empty).failure = none ↔ (loadDocument c document' empty).failure = none) ∧
    ((loadDocument c document empty).failure = none →
      SameContents (loadDocument c document empty).state (loadDocument c document' empty).state) := by
  cases hx : (Extract.ofDocument document).result with
  | error e =>
    have hy : ∃ e', (Extract.ofDocument document').result = .error e' := by
      cases hy : (Extract.ofDocument document').result with
      | error e' => exact ⟨e', rfl⟩
      | ok y =>
        obtain ⟨x, hx', -⟩ := read_perm hes' hes hp.symm hy
        rw [hx'] at hx
        cases hx
    obtain ⟨e', hy⟩ := hy
    rw [(loadDocument_of_error hx).2, (loadDocument_of_error hy).2]
    refine ⟨by simp, fun h => ?_⟩
    cases h
  | ok x =>
    obtain ⟨y, hy, nodes, ways, relations⟩ := read_perm hes hes' hp hx
    have agree := addExtract_agree (c := c) (distinct x hx) nodes ways relations
    rw [addExtract_eq, addExtract_eq] at agree
    rw [(loadDocument_of_ok hx).1, (loadDocument_of_ok hx).2, (loadDocument_of_ok hy).1,
      (loadDocument_of_ok hy).2]
    refine ⟨agree.1, fun ok => ?_⟩
    have both := agree.2 ok
    exact both.1.contents both.2.1 both.2.2

end Documents

open Standard

def pathElement : Json :=
  .object [("type", .text "way"), ("id", .int 1), ("nodes", .list [.int 10, .int 11]),
    ("tags", .object [("highway", .text "path")])]

def squareElement : Json :=
  .object [("type", .text "relation"), ("id", .int 2),
    ("members", .list [.object [("type", .text "way"), ("ref", .int 1), ("role", .text "outer")]]),
    ("tags", .object [("type", .text "multipolygon"), ("highway", .text "pedestrian")])]

def squareDocument : Json := .object [("elements", .list [pathElement, squareElement])]

def turnedSquareDocument : Json := .object [("elements", .list [squareElement, pathElement])]

theorem square_document_order :
    (loadDocument .default squareDocument empty).failure = none ∧
      (loadDocument .default squareDocument empty).state.areaWays.keys = [1] ∧
      SameContents (loadDocument .default squareDocument empty).state
        (loadDocument .default turnedSquareDocument empty).state := by
  have given : Extract.elements squareDocument = .ok [pathElement, squareElement] := rfl
  have turned : Extract.elements turnedSquareDocument = .ok [squareElement, pathElement] := rfl
  have distinct : ∀ x, (Extract.ofDocument squareDocument).result = .ok x → x.Distinct := by
    intro x hx
    cases hx
    exact ⟨by decide, by decide, by decide⟩
  have loaded : (loadDocument .default squareDocument empty).failure = none := rfl
  exact ⟨loaded, rfl, (document_order given turned (.swap _ _ _) distinct).2 loaded⟩

end Store

end StreetMap
