import StreetMap.Proofs.Store.Conclusion
import StreetMap.Proofs.Store.Findings
import StreetMap.Proofs.Store.StopAreas
import StreetMap.Standard

/-!
Relations of different kinds do not meet.  Turn restrictions fill the indexes of turns, level maps set
levels, routes write tags of plain ways and stop areas tie stops to platforms; none of them looks at what
another kind changes.  So what they leave depends on the order within each kind alone, but for the order in
which findings come.
-/

namespace StreetMap

namespace Outcome

variable {σ α : Type} {R : σ → σ → Prop} {o o' : Outcome σ}

structure Matches (R : σ → σ → Prop) (o o' : Outcome σ) : Prop where
  log : o'.log = o.log
  failure : o'.failure = o.failure
  state : R o.state o'.state

theorem Matches.andThen {f f' : σ → Outcome σ} (ho : Matches R o o')
    (hf : ∀ s t, R s t → Matches R (f s) (f' t)) : Matches R (o.andThen f) (o'.andThen f') := by
  have hq := hf o.state o'.state ho.state
  by_cases ok : o.failure = none
  · have ok' : o'.failure = none := ho.failure.trans ok
    simp only [Outcome.andThen, ok, ok']
    exact ⟨by rw [ho.log, hq.log], hq.failure, hq.state⟩
  · have failed : o'.failure ≠ none := by rwa [ho.failure]
    rw [andThen_of_failed ok, andThen_of_failed failed]
    exact ho

theorem Matches.forEach {f : α → σ → Outcome σ} {xs : List α} {s t : σ} (h : R s t)
    (hf : ∀ x ∈ xs, ∀ s t, R s t → Matches R (f x s) (f x t)) :
    Matches R (forEach f xs s) (forEach f xs t) := by
  induction xs generalizing s t with
  | nil => exact ⟨rfl, rfl, h⟩
  | cons x xs ih =>
    apply (hf x List.mem_cons_self s t h).andThen
    intro s t hst
    exact ih hst fun y hy => hf y (List.mem_cons_of_mem _ hy)

end Outcome

namespace Store

open Outcome (Matches)

variable {c : Settings} {s t u : Store} {k : KeptRelation} {ks : List KeptRelation} {kind : RelationKind}
  {kinds : RelationKind → Prop}

/-- The relations of a kind, in order. -/
def ofKind (kind : RelationKind) (ks : List KeptRelation) : List KeptRelation :=
  ks.filter fun k => k.kind = kind

def SamePart : RelationKind → Store → Store → Prop
  | .multipolygon, _, _ => True
  | .restriction, s, t => t.fromTurns = s.fromTurns ∧ t.toTurns = s.toTurns
  | .levelMap, s, t => t.levels = s.levels
  | .roadRoute, s, t => t.ways = s.ways
  | .stopArea, s, t => t.stops = s.stops

structure AgreeOn (kinds : RelationKind → Prop) (s t : Store) : Prop where
  nodes : ∀ id, t.nodes.has id = s.nodes.has id
  ways : ∀ id, t.ways.has id = s.ways.has id
  areaWays : ∀ id, t.areaWays.has id = s.areaWays.has id
  relations : ∀ id, t.relations.has id = s.relations.has id
  parts : ∀ kind, kinds kind → SamePart kind s t

theorem SamePart.refl (kind : RelationKind) (s : Store) : SamePart kind s s := by
  cases kind <;> simp [SamePart]

theorem SamePart.symm (h : SamePart kind s t) : SamePart kind t s := by
  cases kind <;> simp_all [SamePart]

theorem SamePart.trans (h : SamePart kind s t) (h' : SamePart kind t u) : SamePart kind s u := by
  cases kind <;> simp_all [SamePart]

theorem AgreeOn.refl (s : Store) : AgreeOn kinds s s :=
  ⟨fun _ => rfl, fun _ => rfl, fun _ => rfl, fun _ => rfl, fun kind _ => .refl kind s⟩

theorem AgreeOn.symm (h : AgreeOn kinds s t) : AgreeOn kinds t s where
  nodes := fun id => (h.nodes id).symm
  ways := fun id => (h.ways id).symm
  areaWays := fun id => (h.areaWays id).symm
  relations := fun id => (h.relations id).symm
  parts := fun kind hk => (h.parts kind hk).symm

theorem AgreeOn.trans (h : AgreeOn kinds s t) (h' : AgreeOn kinds t u) : AgreeOn kinds s u where
  nodes := fun id => (h'.nodes id).trans (h.nodes id)
  ways := fun id => (h'.ways id).trans (h.ways id)
  areaWays := fun id => (h'.areaWays id).trans (h.areaWays id)
  relations := fun id => (h'.relations id).trans (h.relations id)
  parts := fun kind hk => (h.parts kind hk).trans (h'.parts kind hk)

theorem SameElements.agreeOn (h : SameElements s t) (parts : ∀ kind, kinds kind → SamePart kind s t) :
    AgreeOn kinds s t where
  nodes := fun _ => by rw [h.nodes]
  ways := has_of_outline h.ways
  areaWays := fun _ => by rw [h.areaWays]
  relations := fun _ => by rw [h.relations]
  parts := parts

theorem AgreeOn.record (h : AgreeOn kinds s t) (log : Log) :
    AgreeOn kinds (s.record log) (t.record log) := by
  refine { h with parts := fun kind hk => ?_ }
  have part := h.parts kind hk
  cases kind <;> exact part

theorem AgreeOn.platformsOf (h : AgreeOn kinds s t) (r : Relation) : platformsOf t r = platformsOf s r := by
  simp only [Store.platformsOf, h.areaWays, h.relations]

theorem AgreeOn.platformNodes (h : AgreeOn kinds s t) (r : Relation) :
    platformNodes t r = platformNodes s r := by
  simp only [Store.platformNodes, h.nodes]

/-- The stores are the same but for the order of the relations, and that is the same within each kind. -/
structure Reordered (s t : Store) : Prop where
  others : t = { s with relations := t.relations }
  relations : s.relations.Perm t.relations
  kinds : ∀ kind, ofKind kind t.relations.values = ofKind kind s.relations.values

/-- The stores are the same but for the order of relations and that of findings. -/
structure UpToOrder (s t : Store) : Prop where
  others : t = { s with relations := t.relations, anomalies := t.anomalies }
  relations : s.relations.Perm t.relations
  anomalies : s.anomalies.Perm t.anomalies

theorem Reordered.symm (h : Reordered s t) : Reordered t s where
  others := by rw [h.others]
  relations := h.relations.symm
  kinds := fun kind => (h.kinds kind).symm

theorem Reordered.agreeOn (h : Reordered s t) : AgreeOn kinds s t := by
  have relations (id : Int) : t.relations.has id = s.relations.has id := by
    rw [Bool.eq_iff_iff, Table.has_iff_mem_keys, Table.has_iff_mem_keys]
    exact (h.relations.map Prod.fst).mem_iff.symm
  rw [h.others]
  exact ⟨fun _ => rfl, fun _ => rfl, fun _ => rfl, relations, fun kind _ => by cases kind <;> simp [SamePart]⟩

theorem applyRoute_frame (r : Relation) (s : Store) :
    ∃ ws, (applyRoute c r s).state = { s with ways := ws } := by
  let P (t : Store) : Prop := ∃ ws, t = { s with ways := ws }
  have listed (key : String) (tag : Json) (id : Int) (t : Store) (ht : P t) :
      P (listOnWay c r key tag id t).state := by
    obtain ⟨ws, rfl⟩ := ht
    rw [listOnWay]
    split
    · exact withValue_keeps (P := P) ⟨ws, rfl⟩ fun t _ => ⟨ws.put _ _, rfl⟩
    · exact ⟨_, rfl⟩
  refine Outcome.forEach_keeps (P := P) ⟨s.ways, rfl⟩ fun m _ t ht => ?_
  exact Outcome.andThen_keeps (listed _ _ _ t ht) fun u hu => listed _ _ _ u hu

theorem AgreeOn.absorb (h : AgreeOn kinds s t) {α : Type} {f : α → Store → Outcome Store} (x : Logged α)
    (hf : ∀ a s t, AgreeOn kinds s t → Matches (AgreeOn kinds) (f a s) (f a t)) :
    Matches (AgreeOn kinds) (s.absorb x f) (t.absorb x f) := by
  have noted := h.record x.log
  rw [Store.absorb, Store.absorb]
  cases x.result with
  | error e => exact ⟨rfl, rfl, noted⟩
  | ok a =>
    have rest := hf a _ _ noted
    exact ⟨congrArg (x.log ++ ·) rest.log, rest.failure, rest.state⟩

theorem AgreeOn.listOnWay (h : AgreeOn kinds s t) (r : Relation) (routes : kinds .roadRoute) (key : String)
    (tag : Json) (id : Int) :
    Matches (AgreeOn kinds) (listOnWay c r key tag id s) (listOnWay c r key tag id t) := by
  have ways : t.ways = s.ways := h.parts .roadRoute routes
  rw [Store.listOnWay, Store.listOnWay, ways]
  split
  · rename_i value w _ _
    cases addToList c.routeSeparator tag value w.tags with
    | error e => exact ⟨rfl, rfl, h⟩
    | ok tags =>
      refine ⟨rfl, rfl, { h with ways := fun _ => rfl, parts := fun kind hk => ?_ }⟩
      have part := h.parts kind hk
      cases kind with
      | roadRoute => rfl
      | _ => exact part
  · exact ⟨rfl, rfl, h⟩

theorem AgreeOn.applyRoute (h : AgreeOn kinds s t) (r : Relation) (routes : kinds .roadRoute) :
    Matches (AgreeOn kinds) (applyRoute c r s) (applyRoute c r t) :=
  .forEach h fun _ _ _ _ h => (h.listOnWay r routes _ _ _).andThen fun _ _ h => h.listOnWay r routes _ _ _

section Applying

variable [Limits]

theorem applyRestriction_frame (r : Relation) (s : Store) :
    ∃ F T as, (applyRestriction r s).state = { s with fromTurns := F, toTurns := T, anomalies := as } := by
  refine absorb_keeps (P := fun t => ∃ F T as, t = { s with fromTurns := F, toTurns := T, anomalies := as })
    ⟨_, _, _, rfl⟩ fun found _ => ?_
  cases found <;> exact ⟨_, _, _, rfl⟩

theorem applyLevel_frame (r : Relation) (levels : Table String Level) (m : Member) (s : Store) :
    ∃ ls as, (applyLevel r levels m s).state = { s with levels := ls, anomalies := as } := by
  let P (t : Store) : Prop := ∃ ls as, t = { s with levels := ls, anomalies := as }
  rw [applyLevel]
  split
  · exact ⟨_, _, rfl⟩
  · refine withValue_keeps (P := P) ⟨_, _, rfl⟩ fun role _ => ?_
    split
    · exact ⟨_, _, rfl⟩
    · refine absorb_keeps (P := P) ⟨_, _, rfl⟩ fun level _ => ?_
      cases level <;> exact ⟨_, _, rfl⟩

theorem applyLevelMap_frame (r : Relation) (s : Store) :
    ∃ ls as, (applyLevelMap r s).state = { s with levels := ls, anomalies := as } := by
  let P (t : Store) : Prop := ∃ ls as, t = { s with levels := ls, anomalies := as }
  refine absorb_keeps (P := P) ⟨_, _, rfl⟩ fun levels _ => ?_
  refine Outcome.forEach_keeps (P := P) ⟨s.levels, _, rfl⟩ fun m _ t ht => ?_
  obtain ⟨ls, as, rfl⟩ := ht
  exact applyLevel_frame r levels m _

theorem applyStopArea_frame (r : Relation) (s : Store) :
    ∃ stops as, (applyStopArea r s).state = { s with stops := stops, anomalies := as } := by
  have told (problem : String) : ∃ stops as, (s.absorb (unresolvedStops r problem)
      fun _ s => Outcome.done s).state = { s with stops := stops, anomalies := as } :=
    absorb_keeps (P := fun t => ∃ stops as, t = { s with stops := stops, anomalies := as })
      ⟨_, _, rfl⟩ fun _ _ => ⟨_, _, rfl⟩
  rw [applyStopArea]
  split
  · exact ⟨_, _, rfl⟩
  · exact told _
  · exact told _

theorem applyRelation_others (other : k.kind ≠ kind) (s : Store) :
    SamePart kind s (applyRelation c k s).state := by
  rw [applyRelation]
  cases hk : k.kind with
  | multipolygon => exact .refl kind s
  | restriction =>
    obtain ⟨F, T, as, hs⟩ := applyRestriction_frame k.relation s
    rw [hs]
    cases kind <;> simp_all [SamePart]
  | levelMap =>
    obtain ⟨ls, as, hs⟩ := applyLevelMap_frame k.relation s
    rw [hs]
    cases kind <;> simp_all [SamePart]
  | roadRoute =>
    obtain ⟨ws, hs⟩ := applyRoute_frame (c := c) k.relation s
    rw [hs]
    cases kind <;> simp_all [SamePart]
  | stopArea =>
    obtain ⟨stops, as, hs⟩ := applyStopArea_frame k.relation s
    rw [hs]
    cases kind <;> simp_all [SamePart]

theorem applyRelation_frame (k : KeptRelation) (s : Store) :
    ∃ F T ls ws stops as, (applyRelation c k s).state =
      { s with fromTurns := F, toTurns := T, levels := ls, ways := ws, stops := stops, anomalies := as } := by
  rw [applyRelation]
  cases k.kind with
  | multipolygon => exact ⟨_, _, _, _, _, _, rfl⟩
  | restriction =>
    obtain ⟨F, T, as, hs⟩ := applyRestriction_frame k.relation s
    exact ⟨F, T, _, _, _, as, hs⟩
  | levelMap =>
    obtain ⟨ls, as, hs⟩ := applyLevelMap_frame k.relation s
    exact ⟨_, _, ls, _, _, as, hs⟩
  | roadRoute =>
    obtain ⟨ws, hs⟩ := applyRoute_frame (c := c) k.relation s
    exact ⟨_, _, _, ws, _, _, hs⟩
  | stopArea =>
    obtain ⟨stops, as, hs⟩ := applyStopArea_frame k.relation s
    exact ⟨_, _, _, _, stops, as, hs⟩

theorem forEach_frame (ks : List KeptRelation) (s : Store) :
    ∃ F T ls ws stops as, (Outcome.forEach (applyRelation c) ks s).state =
      { s with fromTurns := F, toTurns := T, levels := ls, ways := ws, stops := stops, anomalies := as } := by
  refine Outcome.forEach_keeps (P := fun t => ∃ F T ls ws stops as, t =
    { s with fromTurns := F, toTurns := T, levels := ls, ways := ws, stops := stops, anomalies := as })
    ⟨s.fromTurns, s.toTurns, s.levels, s.ways, s.stops, s.anomalies, rfl⟩ fun k _ t ht => ?_
  obtain ⟨F, T, ls, ws, stops, as, rfl⟩ := ht
  exact applyRelation_frame k _

section Congruence

variable (h : AgreeOn kinds s t) (r : Relation)
include h

theorem AgreeOn.applyRestriction :
    Matches (AgreeOn kinds) (applyRestriction r s) (applyRestriction r t) := by
  refine h.absorb _ ?_
  rintro (_ | ⟨ends, turn⟩) s t h
  · exact ⟨rfl, rfl, h⟩
  · refine ⟨rfl, rfl, { h with parts := fun kind hk => ?_ }⟩
    have part := h.parts kind hk
    cases kind with
    | restriction =>
      exact ⟨congrArg (appendTurn · ends.fromWay turn) part.1, congrArg (appendTurn · ends.toWay turn) part.2⟩
    | _ => exact part

theorem AgreeOn.applyLevel (levels : Table String Level) (m : Member) :
    Matches (AgreeOn kinds) (applyLevel r levels m s) (applyLevel r levels m t) := by
  rw [Store.applyLevel, Store.applyLevel, h.ways]
  split
  · exact ⟨rfl, rfl, h⟩
  · cases Json.number m.role.shown with
    | error e => exact ⟨rfl, rfl, h⟩
    | ok role =>
      dsimp only [Outcome.withValue]
      split
      · exact ⟨rfl, rfl, h⟩
      · refine h.absorb _ ?_
        rintro (_ | level) s t h
        · exact ⟨rfl, rfl, h⟩
        · refine ⟨rfl, rfl, { h with parts := fun kind hk => ?_ }⟩
          have part := h.parts kind hk
          cases kind with
          | levelMap => exact congrArg (Table.put · _ level) part
          | _ => exact part

theorem AgreeOn.applyLevelMap : Matches (AgreeOn kinds) (applyLevelMap r s) (applyLevelMap r t) :=
  h.absorb _ fun levels _ _ h => .forEach h fun m _ _ _ h => h.applyLevel r levels m

theorem AgreeOn.applyStopArea : Matches (AgreeOn kinds) (applyStopArea r s) (applyStopArea r t) := by
  have unresolved (text : String) : Matches (AgreeOn kinds)
      (s.absorb (unresolvedStops r text) fun _ s => Outcome.done s)
      (t.absorb (unresolvedStops r text) fun _ s => Outcome.done s) :=
    h.absorb _ fun _ _ _ h => ⟨rfl, rfl, h⟩
  rw [Store.applyStopArea, Store.applyStopArea, h.platformsOf, h.platformNodes]
  split
  · refine ⟨rfl, rfl, { h with parts := fun kind hk => ?_ }⟩
    have part := h.parts kind hk
    cases kind with
    | stopArea => exact congrArg (Table.put · _ _) part
    | _ => exact part
  · exact unresolved _
  · exact unresolved _

theorem AgreeOn.applyRelation (k : KeptRelation) (routes : k.kind = .roadRoute → kinds .roadRoute) :
    Matches (AgreeOn kinds) (applyRelation c k s) (applyRelation c k t) := by
  rw [Store.applyRelation, Store.applyRelation]
  cases hk : k.kind with
  | multipolygon => exact ⟨rfl, rfl, h⟩
  | restriction => exact h.applyRestriction k.relation
  | levelMap => exact h.applyLevelMap k.relation
  | roadRoute => exact h.applyRoute k.relation (routes hk)
  | stopArea => exact h.applyStopArea k.relation

end Congruence

theorem AgreeOn.findings (h : AgreeOn (fun _ => False) s t) (k : KeptRelation) :
    (Store.applyRelation c k t).findings = (Store.applyRelation c k s).findings := by
  by_cases route : k.kind = .roadRoute
  · simp only [Store.applyRelation, route, applyRoute_findings]
  · exact congrArg (List.filterMap Note.anomaly?) (h.applyRelation k fun hk => absurd hk route).log

theorem forEach_anomalies (ks : List KeptRelation)
    (ok : (Outcome.forEach (applyRelation c) ks s).failure = none) :
    (Outcome.forEach (applyRelation c) ks s).state.anomalies =
      s.anomalies ++ ks.flatMap fun k => (applyRelation c k s).findings := by
  rw [Records.forEach applyRelation_records ks s]
  congr 1
  refine Outcome.forEach_findings (P := SameElements s) (.refl s) (fun k _ t same _ => ⟨?_, ?_⟩) ok
  · exact same.trans (applyRelation_same k t)
  · exact (same.agreeOn fun _ => False.elim).findings k

theorem forEach_ofKind (h : AgreeOn (· = kind) s t)
    (ok : (Outcome.forEach (applyRelation c) ks s).failure = none) :
    (Outcome.forEach (applyRelation c) (ofKind kind ks) t).Ends
      (AgreeOn (· = kind) (Outcome.forEach (applyRelation c) ks s).state) := by
  induction ks generalizing s t with
  | nil => exact ⟨rfl, h⟩
  | cons k ks ih =>
    rw [Outcome.forEach_cons, Outcome.andThen_failure_eq_none] at ok
    rw [Outcome.forEach_cons, Outcome.andThen_state ok.1, ofKind]
    by_cases hk : k.kind = kind
    · rw [List.filter_cons_of_pos (by simpa using hk), Outcome.forEach_cons]
      have first := h.applyRelation (c := c) k fun route => route.symm.trans hk
      have rest := ih first.state ok.2
      have ok' := first.failure.trans ok.1
      rw [Outcome.Ends, Outcome.andThen_failure ok', Outcome.andThen_state ok']
      exact rest
    · rw [List.filter_cons_of_neg (by simpa using hk)]
      refine ih (AgreeOn.trans (AgreeOn.symm ?_) h) ok.2
      refine (applyRelation_same k s).agreeOn fun other e => ?_
      exact applyRelation_others (e ▸ hk) s

theorem forEach_of_kinds
    (ok : ∀ kind, (Outcome.forEach (applyRelation c) (ofKind kind ks) s).failure = none) :
    (Outcome.forEach (applyRelation c) ks s).failure = none := by
  induction ks generalizing s with
  | nil => rfl
  | cons k ks ih =>
    have own := ok k.kind
    rw [ofKind, List.filter_cons_of_pos (by simp), Outcome.forEach_cons, Outcome.andThen_failure_eq_none]
      at own
    rw [Outcome.forEach_cons, Outcome.andThen_failure_eq_none]
    refine ⟨own.1, ih fun kind => ?_⟩
    by_cases hk : k.kind = kind
    · exact hk ▸ own.2
    · have others := ok kind
      rw [ofKind, List.filter_cons_of_neg (by simpa using hk)] at others
      have agree : AgreeOn (· = kind) s (applyRelation c k s).state :=
        (applyRelation_same k s).agreeOn fun other e => applyRelation_others (e ▸ hk) s
      refine (Matches.forEach agree fun l hl _ _ h => h.applyRelation l fun route => ?_).failure.trans others
      exact route.symm.trans (by simpa using (List.mem_filter.1 hl).2)

theorem Reordered.applied (h : Reordered s t)
    (ok : (Outcome.forEach (applyRelation c) s.relations.values s).failure = none) :
    (Outcome.forEach (applyRelation c) t.relations.values t).Ends
      (UpToOrder (Outcome.forEach (applyRelation c) s.relations.values s).state) := by
  have own (kind : RelationKind) : (Outcome.forEach (applyRelation c) (ofKind kind s.relations.values) t).Ends
      (AgreeOn (· = kind) (Outcome.forEach (applyRelation c) s.relations.values s).state) :=
    forEach_ofKind h.agreeOn ok
  have ok' : (Outcome.forEach (applyRelation c) t.relations.values t).failure = none :=
    forEach_of_kinds fun kind => by
      rw [h.kinds]
      exact (own kind).1
  refine ⟨ok', ?_, ?_, ?_⟩
  · have parts (kind : RelationKind) : SamePart kind
        (Outcome.forEach (applyRelation c) s.relations.values s).state
        (Outcome.forEach (applyRelation c) t.relations.values t).state := by
      have own' : (Outcome.forEach (applyRelation c) (ofKind kind t.relations.values) t).Ends
          (AgreeOn (· = kind) (Outcome.forEach (applyRelation c) t.relations.values t).state) :=
        forEach_ofKind (.refl t) ok'
      rw [h.kinds] at own'
      exact ((own kind).2.parts kind rfl).trans (own'.2.parts kind rfl).symm
    have turns := parts .restriction
    have levels := parts .levelMap
    have ways := parts .roadRoute
    have stops := parts .stopArea
    have hs := forEach_frame (c := c) s.relations.values s
    have ht := forEach_frame (c := c) t.relations.values t
    generalize (Outcome.forEach (applyRelation c) s.relations.values s).state = u at *
    generalize (Outcome.forEach (applyRelation c) t.relations.values t).state = v at *
    obtain ⟨F, T, ls, ws, ss, as, rfl⟩ := hs
    obtain ⟨F', T', ls', ws', ss', as', rfl⟩ := ht
    obtain ⟨rfl, rfl⟩ : F' = F ∧ T' = T := turns
    obtain rfl : ls' = ls := levels
    obtain rfl : ws' = ws := ways
    obtain rfl : ss' = ss := stops
    rw [h.others]
  · have kept := (applyRelations_same (c := c) (s := s)).relations
    have kept' := (applyRelations_same (c := c) (s := t)).relations
    exact (kept ▸ kept' ▸ h.relations :)
  · have anomalies : t.anomalies = s.anomalies := by rw [h.others]
    have findings (k : KeptRelation) : (applyRelation c k t).findings = (applyRelation c k s).findings :=
      AgreeOn.findings h.agreeOn k
    rw [forEach_anomalies _ ok, forEach_anomalies _ ok', anomalies]
    simp only [findings]
    exact ((h.relations.map Prod.snd).flatMap_right _).append_left _

/-- How the relations of different kinds are mixed makes no difference to the end of a load but to the order
of findings. -/
theorem finish_of_reordered (h : Reordered s t) :
    ((finish c s).failure = none ↔ (finish c t).failure = none) ∧
      ((finish c s).failure = none → UpToOrder (finish c s).state (finish c t).state) := by
  have phase : t.phase = s.phase := by rw [h.others]
  by_cases opened : s.phase = .areasResolved
  · rw [finish_of_open opened, finish_of_open (phase.trans opened)]
    have applied : Outcome.Agree UpToOrder (applyRelations c s) (applyRelations c t) :=
      ⟨⟨fun ok => (h.applied ok).1, fun ok => (h.symm.applied ok).1⟩, fun ok => (h.applied ok).2⟩
    refine applied.andThen fun u v huv => ⟨.rfl, fun _ => ?_⟩
    exact { huv with others := congrArg (fun s : Store => { s with phase := .relationsProcessed }) huv.others }
  · rw [finish_of_closed opened, finish_of_closed (phase ▸ opened)]
    exact Outcome.Agree.of_failed nofun nofun

end Applying

open Standard

def ringRoad : Relation :=
  ⟨302, [⟨.text "way", 10, .text ""⟩],
    [("type", .text "route"), ("route", .text "road"), ("name", .text "Ring Road")]⟩

def underpass : Relation :=
  ⟨303, [⟨.text "way", 10, .text "-1"⟩, ⟨.text "way", 11, .text "roof"⟩],
    [("type", .text "level_map"), ("levels", .text "-1;1")]⟩

def junction (rs : List Relation) : List Operation :=
  rs.map .addRelation ++ [.addWay ⟨10, [1, 2], [("highway", .text "footway")]⟩,
    .addWay ⟨11, [2, 3], [("highway", .text "footway")]⟩, .linesComplete, .pointsComplete]

theorem junction_finish_of_reordered :
    let s := run .default (junction [noLeftTurn, turnFromNowhere, underpass, ringRoad]) empty
    let t := run .default (junction [ringRoad, underpass, noLeftTurn, turnFromNowhere]) empty
    Reordered s t ∧ (finish .default s).failure = none ∧ (finish .default t).failure = none ∧
      UpToOrder (finish .default s).state (finish .default t).state ∧
      (finish .default s).state.anomalies ≠ (finish .default t).state.anomalies := by
  intro s t
  have reordered : Reordered s t := by
    refine ⟨rfl, ?_, fun kind => by cases kind <;> rfl⟩
    exact (@List.perm_append_comm _ (s.relations.take 2) (s.relations.drop 2)).trans
      ((List.Perm.swap _ _ []).append_right (s.relations.take 2))
  have ok : (finish .default s).failure = none := rfl
  have facts := finish_of_reordered reordered (c := .default)
  exact ⟨reordered, ok, facts.1.1 ok, facts.2 ok, by decide +kernel⟩

end Store

end StreetMap
