import StreetMap.Proofs.Store.Independence
import StreetMap.Proofs.Store.Placing
import StreetMap.Proofs.Store.TurnIndex
import StreetMap.Standard

/-!
Stops at platforms.  Stop areas are applied one after another, and the stops of one take the place of all
that its platform had before.  So a platform has the stops of its last stop area.
-/

namespace StreetMap.Store

variable {c : Settings} {s t : Store} {r : Relation} {key : Key} {op : Operation} {h : List Call}
  {node : Int}

/-- The stop areas that are kept, in the order in which they came. -/
def stopAreas (s : Store) : List Relation :=
  (s.relations.values.filter fun k => k.kind = .stopArea).map KeptRelation.relation

/-- The node is kept, and the relation has it as a platform. -/
def HasStop (s : Store) (r : Relation) (node : Int) : Prop :=
  s.nodes.has node = true ∧ ∃ m ∈ platformMembers r, m.isOf .node = true ∧ m.ref = node

/-- The relation has this platform area and no other, and stops. -/
def Ties (s : Store) (key : Key) (r : Relation) : Prop := platformsOf s r = [key] ∧ platformNodes s r ≠ []

instance : Decidable (HasStop s r node) := inferInstanceAs (Decidable (_ ∧ _))

instance : Decidable (Ties s key r) := inferInstanceAs (Decidable (_ ∧ _))

/-- The stop areas that tie stops to a platform. -/
def tying (s : Store) (key : Key) : List Relation := (stopAreas s).filter fun r => Ties s key r

/-- The stops of the last stop area that ties any to the platform. -/
def lastStops (s : Store) (key : Key) : Option (List Int) := (tying s key).getLast?.map (platformNodes s)

theorem mem_platformNodes : node ∈ platformNodes s r ↔ HasStop s r node := by
  simp only [platformNodes, mem_insertAll, List.not_mem_nil, false_or, List.mem_map, List.mem_filter,
    Bool.and_eq_true, HasStop]
  constructor
  · rintro ⟨m, ⟨hm, isNode, kept⟩, rfl⟩
    exact ⟨kept, m, hm, isNode, rfl⟩
  · rintro ⟨kept, m, hm, isNode, rfl⟩
    exact ⟨m, ⟨hm, isNode, kept⟩, rfl⟩

theorem mem_tying : r ∈ tying s key ↔ r ∈ stopAreas s ∧ Ties s key r := by
  rw [tying, List.mem_filter, decide_eq_true_iff]

section Elements

theorem SameElements.platformsOf (h : SameElements s t) (r : Relation) :
    platformsOf t r = platformsOf s r := by
  rw [Store.platformsOf, Store.platformsOf, h.areaWays, h.relations]

theorem SameElements.platformNodes (h : SameElements s t) (r : Relation) :
    platformNodes t r = platformNodes s r := by
  rw [Store.platformNodes, Store.platformNodes, h.nodes]

theorem SameElements.ties (h : SameElements s t) (key : Key) (r : Relation) : Ties t key r ↔ Ties s key r := by
  rw [Ties, Ties, h.platformsOf, h.platformNodes]

theorem SameElements.lastStops (h : SameElements s t) (key : Key) : lastStops t key = lastStops s key := by
  have ties (r : Relation) : decide (Ties t key r) = decide (Ties s key r) := decide_eq_decide.2 (h.ties key r)
  rw [Store.lastStops, Store.lastStops, tying, tying, stopAreas, stopAreas, h.relations]
  simp only [ties, funext h.platformNodes]

end Elements

theorem aside_stops (stops : Table Key (List Int)) : Aside fun s => { s with stops } where
  ways := fun _ => rfl
  fromTurns := fun _ => rfl
  toTurns := fun _ => rfl
  setWays := fun _ _ => rfl
  setTurns := fun _ _ _ => rfl
  putLevel := fun _ _ _ _ => rfl
  record := fun _ _ => rfl

theorem IntakeStep.stops (step : IntakeStep c s t) : t.stops = s.stops := by
  cases step with
  | way w b => cases b <;> rfl
  | _ => rfl

theorem AreaStep.stops (step : AreaStep s t) : t.stops = s.stops := by
  cases step with
  | retag id source =>
    rw [Store.retag]
    split <;> rfl
  | _ => rfl

section Tying

variable [Limits]

theorem applyStopArea_get? (r : Relation) (s : Store) (key : Key) :
    (applyStopArea r s).state.stops.get? key =
      if Ties s key r then some (platformNodes s r) else s.stops.get? key := by
  have told (problem : String) :
      (s.absorb (unresolvedStops r problem) fun _ s => Outcome.done s).state.stops = s.stops :=
    absorb_keeps (P := fun t => t.stops = s.stops) rfl fun _ _ => rfl
  rw [applyStopArea]
  split
  · rename_i k n ns one some
    change (s.stops.put k (n :: ns)).get? key = _
    have ties : Ties s key r ↔ key = k := by simp [Ties, one, some, eq_comm]
    rw [Table.get?_put, some]
    simp only [ties]
  · rename_i k l ks many
    rw [told]
    exact (if_neg fun ties => by simp [Ties, many] at ties).symm
  · rename_i one
    rw [told]
    refine (if_neg fun ties => ?_).symm
    obtain ⟨n, ns, some⟩ := List.exists_cons_of_ne_nil ties.2
    exact one key n ns ties.1 some

theorem applyRelation_stops {k : KeptRelation} (other : k.kind ≠ .stopArea) (s : Store) :
    (applyRelation c k s).state.stops = s.stops := by
  have commutes := (aside_stops s.stops).applyRelation (c := c) k fun stopArea => absurd stopArea other
  exact congrArg (fun o => o.state.stops) (commutes s)

theorem applyRelation_same (k : KeptRelation) (s : Store) : SameElements s (applyRelation c k s).state :=
  same_of_chain RelationStep.same (applyRelation_chain k)

theorem forEach_stops (ks : List KeptRelation)
    (ok : (Outcome.forEach (applyRelation c) ks s).failure = none) (key : Key) :
    (Outcome.forEach (applyRelation c) ks s).state.stops.get? key =
      ((((ks.filter fun k => k.kind = .stopArea).map KeptRelation.relation).filter
        fun r => Ties s key r).getLast?.map (platformNodes s)).or (s.stops.get? key) := by
  induction ks generalizing s with
  | nil => rfl
  | cons k ks ih =>
    rw [Outcome.forEach_cons, Outcome.andThen_failure_eq_none] at ok
    rw [Outcome.forEach_cons, Outcome.andThen_state ok.1, ih ok.2]
    have same := applyRelation_same (c := c) k s
    simp only [same.ties, funext same.platformNodes]
    by_cases hk : k.kind = .stopArea
    · rw [List.filter_cons_of_pos (by simpa using hk), List.map_cons, applyRelation, hk]
      dsimp only
      rw [applyStopArea_get?]
      by_cases ties : Ties s key k.relation
      · rw [if_pos ties, List.filter_cons_of_pos (by simpa using ties), List.getLast?_cons]
        cases List.getLast? _ with
        | none => rfl
        | some r => rfl
      · rw [if_neg ties, List.filter_cons_of_neg (by simpa using ties)]
    · rw [List.filter_cons_of_neg (by simpa using hk), applyRelation_stops hk]

end Tying

section Runs

variable [Limits]

theorem finish_stops (untied : s.stops = []) (opened : s.phase = .areasResolved)
    (ok : (finish c s).failure = none) :
    (∀ key, (finish c s).state.stops? key = lastStops (finish c s).state key) ∧
      (finish c s).state.phase = .relationsProcessed := by
  rw [finish_of_open opened, Outcome.andThen_failure_eq_none] at ok
  rw [finish_of_open opened, Outcome.andThen_state ok.1]
  refine ⟨fun key => ?_, rfl⟩
  have applied := forEach_stops (s := s) s.relations.values ok.1 key
  rw [untied, Table.get?_nil, Option.or_none] at applied
  exact applied.trans ((applyRelations_same (c := c) (s := s)).lastStops key).symm

variable [Geometry]

theorem call_stops (single : op.IsCall) (before : Call.concludes ⟨op, s⟩ = false) :
    (apply c op s).state.stops = s.stops := by
  cases op with
  | load document => cases single
  | addNode n => exact addNode_keeps (P := fun t => t.stops = s.stops) rfl rfl rfl
  | addWay w =>
    exact addWay_keeps (P := fun t => t.stops = s.stops) rfl rfl (fun step h => step.stops.trans h) w
  | addRelation r =>
    exact addRelation_keeps (P := fun t => t.stops = s.stops) rfl rfl (fun step h => step.stops.trans h) r
  | linesComplete => exact linesComplete_keeps (P := fun t => t.stops = s.stops) rfl rfl
  | pointsComplete =>
    exact pointsComplete_keeps (P := fun t => t.stops = s.stops) rfl
      (eq_of_chain (f := Store.stops) AreaStep.stops resolveAreas_chain) fun _ h => h
  | finish =>
    have early : s.phase ≠ .areasResolved := by simpa [Call.concludes] using before
    exact congrArg (fun o => o.state.stops) (finish_of_closed early)

theorem Leads.stops (hl : Leads c empty h t) {k : Call} (once : h.filter Call.concludes = [k])
    (ok : (finish c k.found).failure = none) (key : Key) : t.stops? key = lastStops t key := by
  have concluded := hl.concluded_once (P := fun s => s.stops = [])
    (Q := fun s => ∀ key, s.stops? key = lastStops s key) rfl
    (fun _ _ single before untied => (call_stops single before).trans untied)
    fun _ untied opened ok => finish_stops untied opened ok
  exact (concluded.2 k once ok).1 key

/-- If in the course of a run the relations are applied once, and that goes well, a platform has the stops of
the last stop area that ties any to it.  Those of the ones before are lost, and it has the stops of all if no
two tie stops to it. -/
theorem platform_has_last_stops {ops : List Operation} {k : Call}
    (once : (history c ops empty).filter Call.concludes = [k]) (ok : (finish c k.found).failure = none)
    (key : Key) :
    let s := run c ops empty
    s.stops? key = lastStops s key ∧
    (s.stops? key = none ↔ ∀ r ∈ stopAreas s, ¬ Ties s key r) ∧
    (∀ nodes, s.stops? key = some nodes →
      ∀ n ∈ nodes, ∃ r ∈ stopAreas s, Ties s key r ∧ HasStop s r n) ∧
    ((∀ r ∈ tying s key, ∀ r' ∈ tying s key, r = r') → ∀ nodes, s.stops? key = some nodes →
      ∀ n, n ∈ nodes ↔ ∃ r ∈ stopAreas s, Ties s key r ∧ HasStop s r n) := by
  intro s
  have stops : s.stops? key = lastStops s key := (leads_history ops).stops once ok key
  have last (nodes : List Int) (h : s.stops? key = some nodes) :
      ∃ r ∈ tying s key, platformNodes s r = nodes := by
    obtain ⟨r, hr, rfl⟩ := Option.map_eq_some_iff.1 (stops.symm.trans h)
    exact ⟨r, List.mem_of_getLast? hr, rfl⟩
  have tied (nodes : List Int) (h : s.stops? key = some nodes) (n : Int) (hn : n ∈ nodes) :
      ∃ r ∈ stopAreas s, Ties s key r ∧ HasStop s r n := by
    obtain ⟨r, hr, rfl⟩ := last nodes h
    obtain ⟨kept, ties⟩ := mem_tying.1 hr
    exact ⟨r, kept, ties, mem_platformNodes.1 hn⟩
  refine ⟨stops, ?_, tied, fun one nodes h n => ⟨tied nodes h n, ?_⟩⟩
  · rw [stops, lastStops, Option.map_eq_none_iff, List.getLast?_eq_none_iff, tying,
      List.filter_eq_nil_iff]
    simp only [decide_eq_true_iff]
  · rintro ⟨r, hr, ties, stop⟩
    obtain ⟨r', hr', rfl⟩ := last nodes h
    rw [mem_platformNodes, one r' hr' r (mem_tying.2 ⟨hr, ties⟩)]
    exact stop

end Runs

open Standard

def stopArea (id : Int) (stops : List Int) : Relation :=
  ⟨id, ⟨.text "way", 10, .text "platform"⟩ :: stops.map fun n => ⟨.text "node", n, .text "platform"⟩,
    [("type", .text "public_transport"), ("public_transport", .text "stop_area")]⟩

def platform : Tags :=
  [("highway", .text "pedestrian"), ("area", .text "yes"), ("public_transport", .text "platform")]

def busStop (id : Int) : Operation := .addNode ⟨id, ⟨0, 0⟩, [("highway", .text "bus_stop")]⟩

def station (rs : List Relation) : List Operation :=
  rs.map .addRelation ++ triangle platform ++ [busStop 50, busStop 51, .pointsComplete]

theorem station_early (rs : List Relation) : ∀ op ∈ station rs, op.IsCall ∧ op ≠ .finish := by
  rw [station, List.forall_mem_append, List.forall_mem_append, List.forall_mem_map]
  simp only [triangle, atCorner, busStop, List.forall_mem_cons]
  simp [Operation.IsCall]

theorem station_has_last_stops :
    (run .default (station [stopArea 600 [50, 51]] ++ [.finish]) empty).stops? ⟨.way, 10⟩ =
      some [50, 51] := by
  have once := ends_once (c := .default) (station_early [stopArea 600 [50, 51]]) (by decide +kernel)
  have stops := (platform_has_last_stops once (by decide +kernel) ⟨.way, 10⟩).1
  exact stops.trans (by decide +kernel)

theorem station_loses_stop :
    let ops := station [stopArea 600 [50], stopArea 601 [51]]
    let s := run .default (ops ++ [.finish]) empty
    (history .default (ops ++ [.finish]) empty).filter Call.concludes = [⟨.finish, run .default ops empty⟩] ∧
      (finish .default (run .default ops empty)).failure = none ∧
      s.stops? ⟨.way, 10⟩ = some [51] ∧ ∃ r ∈ stopAreas s, Ties s ⟨.way, 10⟩ r ∧ HasStop s r 50 := by
  intro ops s
  exact ⟨ends_once (station_early _) (by decide +kernel), by decide +kernel⟩

end StreetMap.Store
