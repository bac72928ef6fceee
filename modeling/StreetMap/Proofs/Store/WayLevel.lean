import StreetMap.Proofs.Store.IntakeLevel
import StreetMap.Proofs.Store.Interleaving
import StreetMap.Standard

/-!
The level of a way at the end of a load.  Level maps set levels of plain ways over those that tags gave, and
the last of them decides.  All other levels stay those of the tags.
-/

namespace StreetMap.Store

open Level

variable {c : Settings} {s t : Store} {op : Operation} {h : List Call} {k : Key} {r : Relation}

def addresses (s : Store) (r : Relation) (m : Member) : Bool :=
  s.ways.has m.ref && !r.tags.has ("role:" ++ m.role.display)

def undefinedLevel (r : Relation) (m : Member) : Anomaly :=
  ⟨.levelUndefined, m.ref, "Way " ++ toString m.ref ++ " has undefined level '" ++ m.role.display
    ++ "' in level map " ++ toString r.id⟩

theorem flatMap_ite {α β : Type} (p : α → Bool) (f : α → List β) (xs : List α) :
    (xs.flatMap fun x => if p x then f x else []) = (xs.filter p).flatMap f := by
  induction xs with
  | nil => rfl
  | cons x xs ih => cases hp : p x <;> simp [hp, ih]

def levelMaps (s : Store) : List Relation := (ofKind .levelMap s.relations.values).map KeptRelation.relation

theorem SameElements.addresses (same : SameElements s t) (r : Relation) (m : Member) :
    addresses t r m = addresses s r m := by
  rw [Store.addresses, has_of_outline same.ways]
  rfl

/-- No way is kept both as a plain way and as an area way. -/
def Apart (s : Store) : Prop := ∀ id, s.ways.has id = true → s.areaWays.has id = false

theorem IntakeStep.apart (step : IntakeStep c s t) (hs : Apart s) : Apart t := by
  cases step with
  | way w b newWay newArea =>
    have area (id : Int) (hid : s.ways.has id = true) : (s.areaWays.put w.id w).has id = false := by
      have other : id ≠ w.id := by
        rintro rfl
        rw [newWay] at hid
        cases hid
      rw [Table.has, Table.get?_put_of_ne _ _ other]
      exact hs id hid
    intro id hid
    cases b with
    | plain =>
      rcases Table.has_put.1 hid with rfl | hid
      · exact newArea
      · exact hs id hid
    | member => exact area id hid
    | candidate => exact area id hid
  | _ => exact hs

theorem Apart.same (hs : Apart s) (same : SameElements s t) : Apart t := by
  intro id hid
  rw [has_of_outline same.ways] at hid
  rw [same.areaWays]
  exact hs id hid

/-- What has a level of its own, with the tags that give it. -/
def levelSources (h : List Call) (s : Store) : List (Key × Tags) :=
  (firstCopies h).values.map (fun w => (w.key, w.tags)) ++
    (ofKind .multipolygon s.relations.values).map fun k => (k.relation.key, k.relation.tags)

theorem firstCopies_ids (h : List Call) : ((firstCopies h).values.map Way.id).Nodup := by
  suffices ∀ (ws : List Way) (t : Table Int Way), t.keys.Nodup ∧ t.values.map Way.id = t.keys →
      (ws.foldl addFirst t).keys.Nodup ∧
        (ws.foldl addFirst t).values.map Way.id = (ws.foldl addFirst t).keys by
    obtain ⟨nodup, ids⟩ := this (wayCopies h) [] ⟨.nil, rfl⟩
    exact ids.symm ▸ nodup
  intro ws
  induction ws with
  | nil => exact fun _ ht => ht
  | cons w ws ih =>
    intro t ht
    apply ih
    rw [addFirst]
    split
    · exact ht
    · rename_i new
      rw [Bool.not_eq_true] at new
      refine ⟨Table.nodup_keys_put ht.1, ?_⟩
      rw [Table.values_put_of_new new, List.map_append, ht.2, Table.put_of_new new, Table.keys, Table.keys,
        List.map_append]
      rfl

theorem levelSources_nodup (keyed : Keyed s) (h : List Call) : ((levelSources h s).map Prod.fst).Nodup := by
  rw [levelSources, List.map_append, List.map_map, List.map_map]
  have ways : ((firstCopies h).values.map Way.key).Nodup := by
    refine List.Nodup.of_map Key.id ?_
    rw [List.map_map]
    exact firstCopies_ids h
  have relations : ((ofKind .multipolygon s.relations.values).map fun k => k.relation.key).Nodup := by
    refine List.Nodup.of_map Key.id ?_
    rw [List.map_map]
    exact keyed.relation_ids.sublist (List.filter_sublist.map _)
  refine ways.append relations fun key way relation => ?_
  obtain ⟨w, -, rfl⟩ := List.mem_map.1 way
  obtain ⟨k, -, hk⟩ := List.mem_map.1 relation
  cases congrArg Key.kind hk

section Levels

variable [Limits]

def mapLevels (r : Relation) : List Level :=
  match (readList (levelList r) .levelMap true).result with
  | .ok levels => levels
  | .error _ => []

def roleLevel (r : Relation) (m : Member) : Option Level :=
  match m.role with
  | .text role => ((mapLevels r).filter fun l => l.shortName = role).getLast?
  | _ => none

def givenLevel (s : Store) (key : Key) (r : Relation) (m : Member) : Option Level :=
  if key = ⟨.way, m.ref⟩ ∧ addresses s r m = true then roleLevel r m else none

def unlevelled (s : Store) (r : Relation) : List Member :=
  r.wayMembers.filter fun m => addresses s r m && (roleLevel r m).isNone

theorem levelsOf_eq_ok {levels : Table String Level} (h : (levelsOf r).result = .ok levels) :
    levels = byShortName (mapLevels r) := by
  have read : (readMap (levelList r) .levelMap true).result = .ok levels := by
    rw [levelsOf] at h
    rw [levelList]
    cases hv : r.tags.get? "levels" with
    | none =>
      rw [hv] at h
      exact h
    | some v =>
      rw [hv] at h
      dsimp only [Option.getD_some] at h
      split at h
      · rename_i nothing
        cases v with
        | text s =>
          obtain rfl : s = "" := by simpa [Json.isNothing] using nothing
          exact h
        | _ => exact h
      · rw [Logged.bind_result] at h
        obtain ⟨list, hlist, h⟩ := bind_eq_ok.1 h
        rw [Json.eq_text_of_asText hlist]
        exact h
  rw [readMap, Logged.bind_result] at read
  obtain ⟨ls, hls, read⟩ := bind_eq_ok.1 read
  rw [mapLevels, hls]
  exact (Except.ok.inj read).symm

theorem missing_eq_ok {m : Member} {level : Option Level} (h : (levelInRole.missing r m).result = .ok level) :
    level = none ∧ (levelInRole.missing r m).findings = [undefinedLevel r m] := by
  rw [levelInRole.missing] at h ⊢
  cases written : undefinedText r m with
  | error e =>
    rw [written] at h
    cases h
  | ok message =>
    rw [← written]
    have fits := (writtenIf_undefinedText r m).exists_iff.1 ⟨message, written⟩
    have told : undefinedText r m = .ok (undefinedLevel r m).message := by
      simp only [undefinedText, Json.shown, Numeral.writeInt, fits, if_true]
      rfl
    rw [told] at h ⊢
    cases h
    exact ⟨rfl, rfl⟩

theorem levelInRole_eq_ok {m : Member} {level : Option Level}
    (h : (levelInRole r (byShortName (mapLevels r)) m).result = .ok level) :
    level = roleLevel r m ∧ (levelInRole r (byShortName (mapLevels r)) m).findings =
      if (roleLevel r m).isNone then [undefinedLevel r m] else [] := by
  rw [levelInRole] at h ⊢
  rw [roleLevel]
  cases hr : m.role with
  | text role =>
    rw [hr] at h
    dsimp only at h ⊢
    rw [get?_byShortName] at h ⊢
    split at h
    · rename_i l hl
      cases h
      refine ⟨hl.symm, ?_⟩
      simp only [hl]
      rfl
    · rename_i hl
      simp only [hl]
      exact missing_eq_ok h
  | _ =>
    rw [hr] at h
    dsimp only at h ⊢
    split at h
    · rename_i hashable
      rw [if_pos hashable]
      exact missing_eq_ok h
    · cases h

theorem applyLevel_of_fits {levels : Table String Level} {m : Member} (fits : m.role.fits = true) :
    applyLevel r levels m s =
      if addresses s r m then
        s.absorb (levelInRole r levels m) fun level s =>
          match level with
          | none => Outcome.done s
          | some level => Outcome.done { s with levels := s.levels.put ⟨.way, m.ref⟩ level }
      else Outcome.done s := by
  have shown : Json.number m.role.shown = .ok m.role.display := by
    rw [Json.shown, fits]
    rfl
  rw [applyLevel, shown, addresses]
  cases s.ways.has m.ref with
  | false => rfl
  | true =>
    change (if r.tags.has ("role:" ++ m.role.display) = true then _ else _) = _
    cases r.tags.has ("role:" ++ m.role.display) <;> rfl

theorem applyLevel_eq_ok {m : Member}
    (ok : (applyLevel r (byShortName (mapLevels r)) m s).failure = none) (key : Key) :
    (applyLevel r (byShortName (mapLevels r)) m s).state.levels.get? key =
        (givenLevel s key r m).or (s.levels.get? key) ∧
      (applyLevel r (byShortName (mapLevels r)) m s).findings =
        if addresses s r m && (roleLevel r m).isNone then [undefinedLevel r m] else [] := by
  rw [applyLevel_findings, givenLevel]
  cases fits : m.role.fits with
  | false =>
    rw [applyLevel, Json.shown, fits] at ok ⊢
    rw [addresses]
    cases plain : s.ways.has m.ref with
    | false => simp
    | true =>
      rw [plain] at ok
      cases ok
  | true =>
    rw [applyLevel_of_fits fits] at ok ⊢
    have passed : (!s.ways.has m.ref || !true || r.tags.has ("role:" ++ m.role.display)) = !addresses s r m := by
      simp [addresses]
    rw [passed]
    cases ha : addresses s r m with
    | false => simp
    | true =>
      rw [ha] at ok
      simp only [Bool.not_true, Bool.false_eq_true, if_true, if_false, and_true, Bool.true_and] at ok ⊢
      rw [absorb] at ok ⊢
      cases hl : (levelInRole r (byShortName (mapLevels r)) m).result with
      | error e =>
        rw [hl] at ok
        cases ok
      | ok level =>
        obtain ⟨rfl, findings⟩ := levelInRole_eq_ok hl
        refine ⟨?_, findings⟩
        dsimp only
        cases roleLevel r m with
        | none =>
          rw [ite_self]
          rfl
        | some level =>
          change (s.levels.put ⟨.way, m.ref⟩ level).get? key = _
          rw [Table.get?_put]
          split <;> rfl

theorem applyLevelMap_eq_ok (ok : (applyLevelMap r s).failure = none) :
    (∀ key, (applyLevelMap r s).state.levels.get? key =
      (r.wayMembers.reverse.findSome? (givenLevel s key r)).or (s.levels.get? key)) ∧
    (applyLevelMap r s).findings = (unlevelled s r).map (undefinedLevel r) := by
  have kept (m : Member) (t : Store) (ht : t.ways = s.ways) (levels : Table String Level) :
      (applyLevel r levels m t).state.ways = s.ways := by
    obtain ⟨ls, as, hs⟩ := applyLevel_frame r levels m t
    rw [hs]
    exact ht
  have same (m : Member) (t : Store) (ht : t.ways = s.ways) : addresses t r m = addresses s r m := by
    rw [addresses, ht]
    rfl
  rw [applyLevelMap, absorb_findings, levelsOf_findings, List.nil_append]
  rw [applyLevelMap, absorb] at ok
  rw [absorb]
  cases hl : (levelsOf r).result with
  | error e =>
    rw [hl] at ok
    cases ok
  | ok levels =>
    obtain rfl := levelsOf_eq_ok hl
    rw [hl] at ok
    refine ⟨fun key => ?_, ?_⟩
    · refine Outcome.forEach_last (P := fun t => t.ways = s.ways) (g := fun t => t.levels.get? key)
        rfl (fun m _ t ht ok => ⟨kept m t ht _, ?_⟩) ok
      rw [(applyLevel_eq_ok ok key).1, givenLevel, givenLevel, same m t ht]
    · rw [unlevelled, List.map_eq_flatMap, ← flatMap_ite]
      refine Outcome.forEach_findings (P := fun t => t.ways = s.ways) rfl
        (fun m _ t ht ok => ⟨kept m t ht _, ?_⟩) ok
      rw [(applyLevel_eq_ok ok ⟨.way, 0⟩).2, same m t ht]

/-- The levels that level maps give to a key, in order. -/
def givenLevels (s : Store) (key : Key) : List Level :=
  (levelMaps s).flatMap fun r => r.wayMembers.filterMap (givenLevel s key r)

/-- The findings about members of level maps that lack a level. -/
def undefinedLevels (s : Store) : List Anomaly :=
  (levelMaps s).flatMap fun r => (unlevelled s r).map (undefinedLevel r)

theorem SameElements.givenLevel (same : SameElements s t) (key : Key) (r : Relation) :
    givenLevel t key r = givenLevel s key r := by
  funext m
  rw [Store.givenLevel, Store.givenLevel, same.addresses]

theorem SameElements.givenLevels (same : SameElements s t) (key : Key) :
    givenLevels t key = givenLevels s key := by
  simp only [Store.givenLevels, levelMaps, same.relations, same.givenLevel]

theorem SameElements.undefinedLevels (same : SameElements s t) : undefinedLevels t = undefinedLevels s := by
  simp only [Store.undefinedLevels, levelMaps, same.relations, unlevelled, same.addresses]

theorem forEach_levels (ok : (Outcome.forEach (applyRelation c) s.relations.values s).failure = none)
    (key : Key) :
    (Outcome.forEach (applyRelation c) s.relations.values s).state.levels.get? key =
      (givenLevels s key).getLast?.or (s.levels.get? key) := by
  have own : (Outcome.forEach (applyRelation c) (ofKind .levelMap s.relations.values) s).Ends
      (AgreeOn (· = .levelMap) (Outcome.forEach (applyRelation c) s.relations.values s).state) :=
    forEach_ofKind (.refl s) ok
  have levels : _ = _ := own.2.parts .levelMap rfl
  rw [← levels, givenLevels, levelMaps, List.getLast?_flatMap, ← List.map_reverse, List.findSome?_map]
  refine Outcome.forEach_last (P := SameElements s) (g := fun t => t.levels.get? key) (.refl s) ?_ own.1
  intro k hk t same ok
  refine ⟨same.trans (applyRelation_same k t), ?_⟩
  have kind : k.kind = .levelMap := by simpa using (List.mem_filter.1 hk).2
  rw [applyRelation, kind] at ok ⊢
  rw [(applyLevelMap_eq_ok ok).1, same.givenLevel, Function.comp_apply, List.getLast?_filterMap]

theorem forEach_undefined (ok : (Outcome.forEach (applyRelation c) s.relations.values s).failure = none) :
    found .levelUndefined (Outcome.forEach (applyRelation c) s.relations.values s).state =
      found .levelUndefined s ++ undefinedLevels s := by
  have own : ∀ k ∈ s.relations.values,
      ((applyRelation c k s).findings.filter fun a => a.kind = .levelUndefined) =
        if decide (k.kind = .levelMap) then (unlevelled s k.relation).map (undefinedLevel k.relation)
        else [] := by
    intro k hk
    split
    · rename_i kind
      rw [decide_eq_true_iff] at kind
      obtain ⟨t, same, ok⟩ := Outcome.forEach_each (P := SameElements s) (.refl s)
        (fun k _ t same => same.trans (applyRelation_same k t)) ok k hk
      have agree : AgreeOn (fun _ => False) s t := same.agreeOn fun _ => False.elim
      have matched := agree.applyRelation (c := c) k fun route => by rw [kind] at route; cases route
      have ok' := matched.failure.symm.trans ok
      rw [applyRelation, kind] at ok' ⊢
      rw [(applyLevelMap_eq_ok ok').2, List.filter_eq_self]
      exact List.forall_mem_map.2 fun _ _ => by simp [undefinedLevel]
    · rename_i other
      rw [List.filter_eq_nil_iff]
      intro a ha
      have reported := applyRelation_reports k s a ha
      rw [decide_eq_true_iff]
      intro undefined
      rw [undefined] at reported
      cases hk : k.kind with
      | levelMap => exact other (decide_eq_true hk)
      | _ =>
        rw [hk] at reported
        exact absurd reported (by decide)
  rw [found_append (forEach_anomalies _ ok), List.filter_flatMap, List.flatMap_congr own, undefinedLevels,
    levelMaps, List.flatMap_map, ofKind, ← flatMap_ite]

theorem forEach_ambiguous (ok : (Outcome.forEach (applyRelation c) s.relations.values s).failure = none) :
    found .levelAmbiguous (Outcome.forEach (applyRelation c) s.relations.values s).state =
      found .levelAmbiguous s := by
  have none : ((s.relations.values.flatMap fun k => (applyRelation c k s).findings).filter
      fun a => a.kind = .levelAmbiguous) = [] := by
    rw [List.filter_eq_nil_iff]
    intro a ha
    obtain ⟨k, -, ha⟩ := List.mem_flatMap.1 ha
    have reported := applyRelation_reports k s a ha
    rw [decide_eq_true_iff]
    intro ambiguous
    rw [ambiguous] at reported
    cases hk : k.kind <;> exact absurd (hk ▸ reported) (by decide)
  rw [found_append (forEach_anomalies _ ok), none, List.append_nil]

theorem finish_levels (ok : (finish c s).failure = none) :
    let t := (finish c s).state
    t.relations = s.relations ∧ (Apart s → Apart t) ∧
      (∀ key, t.level? key = (givenLevels t key).getLast?.or (s.level? key)) ∧
      found .levelAmbiguous t = found .levelAmbiguous s ∧
      found .levelUndefined t = found .levelUndefined s ++ undefinedLevels t := by
  intro t
  have resolved : s.phase = .areasResolved := by
    by_contra early
    rw [finish_of_closed early] at ok
    cases ok
  rw [finish_of_open resolved, Outcome.andThen_failure_eq_none] at ok
  have applied : (Outcome.forEach (applyRelation c) s.relations.values s).failure = none := ok.1
  have same : SameElements s (applyRelations c s).state := applyRelations_same
  have ended : t = { (applyRelations c s).state with phase := .relationsProcessed } := by
    change (finish c s).state = _
    rw [finish_of_open resolved, Outcome.andThen_state ok.1]
    rfl
  rw [ended]
  have levels (key : Key) := forEach_levels applied key
  have undefined := forEach_undefined applied
  simp only [← same.givenLevels] at levels
  rw [← same.undefinedLevels] at undefined
  have apart (h : Apart s) : Apart (applyRelations c s).state := h.same same
  exact ⟨same.relations, apart, levels, forEach_ambiguous applied, undefined⟩

theorem givenLevels_eq_nil {key : Key} (other : ∀ id, key = ⟨.way, id⟩ → s.ways.has id = false) :
    givenLevels s key = [] := by
  rw [givenLevels, List.flatMap_eq_nil_iff]
  intro r _
  rw [List.filterMap_eq_nil_iff]
  intro m _
  rw [givenLevel, if_neg]
  rintro ⟨own, addressed⟩
  rw [addresses, other m.ref own] at addressed
  cases addressed

theorem source_of_givenLevels {l : Level} (hl : l ∈ givenLevels s k) : l.source = .levelMap := by
  obtain ⟨r, -, hl⟩ := List.mem_flatMap.1 hl
  obtain ⟨m, -, hl⟩ := List.mem_filterMap.1 hl
  rw [givenLevel] at hl
  split at hl
  · rw [roleLevel] at hl
    split at hl
    · have own := List.mem_of_mem_filter (List.mem_of_getLast? hl)
      rw [mapLevels] at own
      split at own
      · exact source_of_readList ‹_› l own
      · cases own
    · cases hl
  · cases hl

theorem Tagged.source (hs : Tagged c h s) (keyed : Keyed s) {l : Level} (hl : s.level? k = some l) :
    ∃ tags, (k, tags) ∈ levelSources h s ∧ tagLevel c.raisesFloors tags = l := by
  obtain ⟨kind, id⟩ := k
  rw [level?] at hl
  cases kind with
  | node =>
    rw [hs.nodes] at hl
    cases hl
  | way =>
    rw [hs.ways] at hl
    obtain ⟨w, hw, rfl⟩ := Option.map_eq_some_iff.1 hl
    have own : w.id = id := by
      rw [firstCopies_get?] at hw
      simpa using List.find?_some hw
    exact ⟨w.tags, List.mem_append_left _ (List.mem_map.2
      ⟨w, Table.mem_values_of_get? hw, by rw [Way.key, own]⟩), rfl⟩
  | relation =>
    rw [hs.relations] at hl
    obtain ⟨r, hr, hl⟩ := Option.bind_eq_some_iff.1 hl
    rw [relationLevel] at hl
    split at hl
    · rename_i kind
      cases hl
      have own : r.relation.id = id := keyed.ownIds _ (Table.mem_of_get? hr)
      exact ⟨r.relation.tags, List.mem_append_right _ (List.mem_map.2
        ⟨r, List.mem_filter.2 ⟨Table.mem_values_of_get? hr, by simpa using kind⟩,
          by rw [Relation.key, own]⟩), rfl⟩
    · cases hl

theorem Tagged.perm_sources (hs : Tagged c h s) : (found .levelAmbiguous s).Perm
    ((levelSources h s).flatMap fun k => ambiguities c.raisesFloors k.1 k.2) := by
  have own : s.relations.values.flatMap (relationAmbiguities c.raisesFloors) =
      (ofKind .multipolygon s.relations.values).flatMap fun k =>
        ambiguities c.raisesFloors k.relation.key k.relation.tags := by
    rw [ofKind, ← flatMap_ite]
    exact List.flatMap_congr fun k _ => by simp [relationAmbiguities]
  rw [levelSources, List.flatMap_append, List.flatMap_map, List.flatMap_map, ← own]
  exact hs.ambiguous

variable [Geometry]

theorem Apart.call (hs : Apart s) (single : op.IsCall) : Apart (apply c op s).state := by
  cases op with
  | load document => cases single
  | addNode n => exact addNode_keeps hs hs hs
  | addWay w => exact addWay_keeps hs hs IntakeStep.apart w
  | addRelation r => exact addRelation_keeps hs hs IntakeStep.apart r
  | linesComplete => exact linesComplete_keeps hs hs
  | pointsComplete => exact pointsComplete_keeps hs (hs.same resolveAreas_same) fun _ ht => ht
  | finish => exact finish_keeps hs (hs.same applyRelations_same) fun _ ht => ht

theorem Leads.tagged (hl : Leads c empty h s) (ok : ∀ k ∈ h, (apply c k.op k.found).failure = none)
    (opened : s.phase ≠ .relationsProcessed) : Tagged c h s := by
  induction hl with
  | start => exact .empty
  | @call h s op leads single ih =>
    rw [List.forall_mem_append, List.forall_mem_singleton] at ok
    have before : s.phase ≠ .relationsProcessed := by
      intro closed
      rw [call_of_closed single closed] at opened
      exact opened closed
    have levelled : Levelled s := leads.keeps (by rintro id (hid | hid) <;> cases hid)
      fun _ single _ hs => hs.call single
    refine (ih ok.1 before).call levelled single before ok.2 ?_
    rintro rfl
    have ended : (finish c s).failure = none := ok.2
    by_cases resolved : s.phase = .areasResolved
    · change (finish c s).state.phase ≠ _ at opened
      rw [finish_of_open resolved, Outcome.andThen_failure_eq_none] at ended
      rw [finish_of_open resolved, Outcome.andThen_state ended.1] at opened
      exact opened rfl
    · rw [finish_of_closed resolved] at ended
      cases ended

theorem tagged_of_ok {ops : List Operation}
    (ok : (Outcome.forEach (apply c) (ops ++ [.finish]) empty).failure = none) :
    Tagged c (history c ops empty) (run c ops empty) ∧ (finish c (run c ops empty)).failure = none ∧
      run c (ops ++ [.finish]) empty = (finish c (run c ops empty)).state := by
  rw [Outcome.forEach_append, Outcome.andThen_failure_eq_none, Outcome.forEach_singleton] at ok
  obtain ⟨before, all⟩ := history_ok ok.1
  have ended : (finish c (run c ops empty)).failure = none := before ▸ ok.2
  refine ⟨(leads_history ops).tagged all fun closed => ?_, ended, run_append _ _ _ _⟩
  rw [finish_of_closed (by simp [closed])] at ended
  cases ended

theorem level_of_tags {ops : List Operation}
    (ok : (Outcome.forEach (apply c) (ops ++ [.finish]) empty).failure = none) {l : Level}
    (hl : (run c (ops ++ [.finish]) empty).level? k = some l) (other : l.source ≠ .levelMap) :
    ∃ tags, (k, tags) ∈ levelSources (history c ops empty) (run c (ops ++ [.finish]) empty) ∧
      tagLevel c.raisesFloors tags = l := by
  obtain ⟨tagged, ended, last⟩ := tagged_of_ok ok
  obtain ⟨relations, -, levels, -, -⟩ := finish_levels ended
  rw [last] at hl ⊢
  rw [levelSources, relations]
  rw [levels] at hl
  refine tagged.source (Reachable.keyed ⟨ops, rfl⟩) ?_
  cases given : (givenLevels (finish c (run c ops empty)).state k).getLast? with
  | none =>
    rw [given] at hl
    exact hl
  | some l' =>
    rw [given] at hl
    cases hl
    exact absurd (source_of_givenLevels (List.mem_of_getLast? given)) other

/-- At the end of a load in which all goes well a way has the level that the last level map gives it, or the
one of the tags of its first copy if no level map gives any.  Area ways and multipolygons have those of
their tags.  What has tags without a reliable level, and each member of a level map without one, is found
once. -/
theorem way_levels {ops : List Operation}
    (ok : (Outcome.forEach (apply c) (ops ++ [.finish]) empty).failure = none) :
    let s := run c (ops ++ [.finish]) empty
    let calls := history c ops empty
    (∀ id, s.level? ⟨.way, id⟩ = (givenLevels s ⟨.way, id⟩).getLast?.or
      (((wayCopies calls).find? fun w => w.id = id).map fun w => tagLevel c.raisesFloors w.tags)) ∧
    (∀ id, s.areaWays.has id = true → s.level? ⟨.way, id⟩ =
      ((wayCopies calls).find? fun w => w.id = id).map fun w => tagLevel c.raisesFloors w.tags) ∧
    (∀ k ∈ s.relations.values, k.kind = .multipolygon →
      s.level? k.relation.key = some (tagLevel c.raisesFloors k.relation.tags)) ∧
    ((levelSources calls s).map Prod.fst).Nodup ∧
    (found .levelAmbiguous s).Perm
      ((levelSources calls s).flatMap fun k => ambiguities c.raisesFloors k.1 k.2) ∧
    found .levelUndefined s = undefinedLevels s := by
  intro s calls
  obtain ⟨tagged, ended, last⟩ := tagged_of_ok ok
  have apart : Apart (run c ops empty) :=
    (leads_history ops).keeps (fun _ h => by cases h) fun _ single _ hs => hs.call single
  have keyed : Keyed s := Reachable.keyed ⟨_, rfl⟩
  obtain ⟨relations, apart', levels, ambiguous, undefined⟩ := finish_levels ended
  change run c (ops ++ [.finish]) empty = _ at last
  rw [← last] at relations apart' levels ambiguous undefined
  have ways (id : Int) : (run c ops empty).level? ⟨.way, id⟩ =
      ((wayCopies calls).find? fun w => w.id = id).map fun w => tagLevel c.raisesFloors w.tags := by
    rw [← firstCopies_get?]
    exact tagged.ways id
  have sources : levelSources calls s = levelSources calls (run c ops empty) := by
    rw [levelSources, relations]
    rfl
  refine ⟨fun id => (levels _).trans (congrArg _ (ways id)), fun id area => ?_, fun k hk kind => ?_,
    levelSources_nodup keyed calls, ?_, ?_⟩
  · have unaddressed : s.ways.has id = false := by
      cases plain : s.ways.has id with
      | false => rfl
      | true => exact area.symm.trans (apart' apart id plain)
    rw [levels, givenLevels_eq_nil (by rintro _ ⟨⟩; exact unaddressed)]
    exact ways id
  · rw [levels, givenLevels_eq_nil (by rintro _ ⟨⟩)]
    have kept := keyed.get?_relation hk
    rw [relations] at kept
    refine (tagged.relations k.relation.id).trans ?_
    rw [kept, Option.bind_some, relationLevel, if_pos kind]
  · rw [ambiguous, sources]
    exact tagged.perm_sources
  · rw [undefined, tagged.undefined]
    rfl

end Levels

open Standard

def footway (id : Int) (level : String) : Operation :=
  .addWay ⟨id, [1, 2], [("highway", .text "footway"), ("level", .text level)]⟩

def levelMap (id : Int) (levels : String) (members : List (Int × String)) : Operation :=
  .addRelation ⟨id, members.map fun m => ⟨.text "way", m.1, .text m.2⟩,
    [("type", .text "level_map"), ("levels", .text levels)]⟩

def gallery : List Operation :=
  [levelMap 310 "1-2" [(20, "1"), (21, "attic")], levelMap 311 "1;2=Gallery" [(20, "2"), (10, "2")],
    footway 20 "roof", footway 20 "5", footway 21 "2"] ++
    triangle (("level", .text "-1") :: carPark) ++ [.pointsComplete]

theorem gallery_levels :
    let s := run .default (gallery ++ [.finish]) empty
    (Outcome.forEach (apply .default) (gallery ++ [.finish]) empty).failure = none ∧
      (s.level? ⟨.way, 20⟩).map Level.longName = some "Gallery" ∧
      (s.level? ⟨.way, 21⟩).map Level.shortName = some "3" ∧
      (s.level? ⟨.way, 10⟩).map Level.floor = some (-1) ∧
      found .levelAmbiguous s = [ambiguity ⟨.way, 20⟩ "roof"] ∧
      (found .levelUndefined s).map Anomaly.entityId = [21] := by
  intro s
  have ok : (Outcome.forEach (apply .default) (gallery ++ [.finish]) empty).failure = none := by
    decide +kernel
  obtain ⟨ways, areaWays, -, -, ambiguous, undefined⟩ := way_levels ok
  refine ⟨ok, ?_, ?_, ?_, List.perm_singleton.1 (ambiguous.trans (.of_eq ?_)), ?_⟩
  · rw [ways]
    decide +kernel
  · rw [ways]
    decide +kernel
  · rw [areaWays 10 (by decide +kernel)]
    decide +kernel
  · decide +kernel
  · rw [undefined]
    decide +kernel

end StreetMap.Store
