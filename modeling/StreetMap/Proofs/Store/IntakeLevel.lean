import StreetMap.Proofs.Store.Frame
import StreetMap.Proofs.Store.LevelTag

/-!
The levels before level maps are applied.  They are read from tags, that of a way from the tags of the first
copy that comes, be this kept or not, and no later copy changes it.
-/

namespace StreetMap.Store

open Level

variable {c : Settings} {s t : Store} {op : Operation} {h : List Call} {raise : Bool} {k : Key} {w : Way}
  {r : Relation}

structure Quiet (s t : Store) : Prop where
  levels : t.levels = s.levels
  relations : t.relations = s.relations
  findings : ∃ as, t.anomalies = s.anomalies ++ as ∧ ∀ a ∈ as, a.kind = .multipolygonRoleUnexpected

theorem Quiet.of_same (levels : t.levels = s.levels) (relations : t.relations = s.relations)
    (anomalies : t.anomalies = s.anomalies) : Quiet s t :=
  ⟨levels, relations, [], by rw [anomalies, List.append_nil], List.forall_mem_nil _⟩

theorem Quiet.trans {u : Store} (h : Quiet s t) (h' : Quiet t u) : Quiet s u := by
  obtain ⟨as, has, kinds⟩ := h.findings
  obtain ⟨as', has', kinds'⟩ := h'.findings
  exact ⟨h'.levels.trans h.levels, h'.relations.trans h.relations, as ++ as',
    by rw [has', has, List.append_assoc], List.forall_mem_append.2 ⟨kinds, kinds'⟩⟩

/-- The findings of a kind, in order. -/
def found (kind : AnomalyKind) (s : Store) : List Anomaly := s.anomalies.filter fun a => a.kind = kind

theorem found_append {as : List Anomaly} (anomalies : t.anomalies = s.anomalies ++ as) (kind : AnomalyKind) :
    found kind t = found kind s ++ as.filter fun a => a.kind = kind := by
  rw [found, anomalies, List.filter_append]
  rfl

theorem Quiet.found (h : Quiet s t) {kind : AnomalyKind} (other : kind ≠ .multipolygonRoleUnexpected) :
    found kind t = found kind s := by
  obtain ⟨as, has, kinds⟩ := h.findings
  have none : as.filter (fun a => a.kind = kind) = [] := by
    rw [List.filter_eq_nil_iff]
    intro a ha
    simp [kinds a ha, other.symm]
  rw [found_append has, none, List.append_nil]

theorem AreaStep.quiet (step : AreaStep s t) : Quiet s t := by
  cases step with
  | note log findings => exact ⟨rfl, rfl, _, rfl, findings⟩
  | processed k => exact .of_same rfl rfl rfl
  | bound w => exact .of_same rfl rfl rfl
  | area p => exact .of_same rfl rfl rfl
  | retag id source =>
    rw [Store.retag]
    split <;> exact .of_same rfl rfl rfl

/-- All the ways that came in, with every copy. -/
def wayCopies (h : List Call) : List Way :=
  h.filterMap fun k => match k.op with
    | .addWay w => some w
    | _ => none

def addFirst (ways : Table Int Way) (w : Way) : Table Int Way :=
  if ways.has w.id then ways else ways.put w.id w

def firstCopies (h : List Call) : Table Int Way := (wayCopies h).foldl addFirst []

theorem firstCopies_snoc (h : List Call) (k : Call) :
    firstCopies (h ++ [k]) = match k.op with
      | .addWay w => addFirst (firstCopies h) w
      | _ => firstCopies h := by
  obtain ⟨op, s⟩ := k
  cases op <;> simp [firstCopies, wayCopies]

theorem firstCopies_get? (h : List Call) (id : Int) :
    (firstCopies h).get? id = (wayCopies h).find? fun w => w.id = id := by
  suffices ∀ (ws : List Way) (t : Table Int Way),
      (ws.foldl addFirst t).get? id = (t.get? id).or (ws.find? fun w => w.id = id) from this _ []
  intro ws
  induction ws with
  | nil => exact fun t => Option.or_none.symm
  | cons w ws ih =>
    intro t
    rw [List.foldl_cons, ih, addFirst, List.find?_cons]
    by_cases hw : w.id = id
    · subst hw
      cases hv : t.get? w.id with
      | some v => simp [Table.has, hv]
      | none => simp [Table.has, hv]
    · have other : ¬ id = w.id := fun e => hw e.symm
      have unmoved : (if t.has w.id then t else t.put w.id w).get? id = t.get? id := by
        split
        · rfl
        · exact Table.get?_put_of_ne t w other
      simp [unmoved, hw]

def ambiguity (k : Key) (spec : String) : Anomaly :=
  ⟨.levelAmbiguous, k.id, "Could not infer floor number for level '" ++ spec ++ "' of " ++ (k.kind.name ++ " "
    ++ toString k.id) ++ "; vertical movement will still be possible but elevator cost might be incorrect"⟩

variable [Limits]

/-- The level that tags give, which is the default level if they give none or none that is reliable. -/
def tagLevel (raise : Bool) (t : Tags) : Level :=
  match levelText? t with
  | none => .default
  | some (v, source) =>
    match Level.read v source raise with
    | .ok (level, _) => if level.reliable then level else .default
    | .error _ => .default

/-- What is found about the level that tags give. -/
def ambiguities (raise : Bool) (k : Key) (t : Tags) : List Anomaly :=
  match levelText? t with
  | none => []
  | some (v, source) =>
    match Level.read v source raise with
    | .ok (level, _) => if level.reliable then [] else [ambiguity k v]
    | .error _ => []

theorem ambiguityText_eq_ok {spec message : String} (h : ambiguityText k spec = .ok message) :
    message = (ambiguity k spec).message := by
  simp only [ambiguityText, Key.display, Numeral.writeInt] at h
  split at h
  · cases h
    rfl
  · cases h

theorem levelOfTag_eq_ok {source : LevelSource} {v : Json} {l : Level}
    (h : (levelOfTag raise k source v).result = .ok l) :
    ∃ spec, v = .text spec ∧ ∃ level doubt, read spec source raise = .ok (level, doubt) ∧
      l = (if level.reliable then level else .default) ∧
      (levelOfTag raise k source v).findings = if level.reliable then [] else [ambiguity k spec] := by
  have parts := h
  rw [levelOfTag, Logged.bind_result] at parts
  obtain ⟨spec, hspec, -⟩ := bind_eq_ok.1 parts
  obtain rfl := Json.eq_text_of_asText hspec
  refine ⟨spec, rfl, ?_⟩
  cases hr : read spec source raise with
  | error e =>
    rw [levelOfTag_of_error hr] at h
    cases h
  | ok found =>
    obtain ⟨level, doubt⟩ := found
    rw [levelOfTag_of_ok hr] at h
    refine ⟨level, doubt, rfl, ?_⟩
    cases reliable : level.reliable with
    | true =>
      rw [reliable] at h
      refine ⟨(Except.ok.inj h).symm, ?_⟩
      rw [levelOfTag, Json.asText, Logged.ok_bind, Logged.bind_findings, readLogged_findings,
        readLogged_of_ok hr, List.nil_append]
      dsimp only
      rw [if_pos reliable]
      rfl
    | false =>
      rw [reliable] at h
      obtain ⟨message, written, rfl⟩ := map_eq_ok.1 h
      have written : ambiguityText k spec = .ok message := Json.number_eq_ok.1 written
      rw [levelOfTag_finds hr reliable written, ambiguityText_eq_ok written]
      exact ⟨rfl, rfl⟩

theorem levelOf_eq_ok {t : Tags} {l : Level} (h : (levelOf raise k t).result = .ok l) :
    l = tagLevel raise t ∧ (levelOf raise k t).findings = ambiguities raise k t := by
  rw [levelOf] at h ⊢
  rw [tagLevel, ambiguities, levelText?]
  cases hl : t.get? "level" with
  | some v =>
    rw [hl] at h
    obtain ⟨spec, rfl, level, doubt, hr, level_eq, findings⟩ := levelOfTag_eq_ok h
    simp only [hr]
    exact ⟨level_eq, findings⟩
  | none =>
    rw [hl] at h
    cases hy : t.get? "layer" with
    | some v =>
      rw [hy] at h
      obtain ⟨spec, rfl, level, doubt, hr, level_eq, findings⟩ := levelOfTag_eq_ok h
      simp only [hr]
      exact ⟨level_eq, findings⟩
    | none =>
      rw [hy] at h
      cases h
      exact ⟨rfl, rfl⟩

theorem tagLevel_cases (raise : Bool) (t : Tags) : tagLevel raise t = .default ∨
    ∃ v source level doubt, levelText? t = some (v, source) ∧ read v source raise = .ok (level, doubt) ∧
      tagLevel raise t = level := by
  rw [tagLevel]
  split
  · exact .inl rfl
  · rename_i v source hv
    split
    · rename_i level doubt hr
      split
      · exact .inr ⟨v, source, level, doubt, hv, hr, rfl⟩
      · exact .inl rfl
    · exact .inl rfl

theorem tagLevel_written {t : Tags} {l : Level} (given : tagLevel false t = l)
    (tag : l.source = .levelTag ∨ l.source = .layerTag) :
    ∃ v, levelText? t = some (v, l.source) ∧ l.shortName = (Spec.ofText v).shortName ∧
      l.longName = (Spec.ofText v).longName := by
  subst given
  rcases tagLevel_cases false t with none | ⟨v, source, level, doubt, hv, hr, hl⟩
  · rw [none] at tag
    simp [Level.default] at tag
  · rw [hl, source_of_read hr]
    exact ⟨v, hv, read_literal hr⟩

theorem kind_of_mem_ambiguities {t : Tags} {a : Anomaly} (h : a ∈ ambiguities raise k t) :
    a.kind = .levelAmbiguous := by
  rw [ambiguities] at h
  split at h
  · cases h
  · split at h
    · split at h
      · cases h
      · rw [List.mem_singleton.1 h]
        rfl
    · cases h

def relationLevel (raise : Bool) (k : KeptRelation) : Option Level :=
  if k.kind = .multipolygon then some (tagLevel raise k.relation.tags) else none

def relationAmbiguities (raise : Bool) (k : KeptRelation) : List Anomaly :=
  if k.kind = .multipolygon then ambiguities raise k.relation.key k.relation.tags else []

structure Tagged (c : Settings) (h : List Call) (s : Store) : Prop where
  ways : ∀ id, s.levels.get? ⟨.way, id⟩ =
    ((firstCopies h).get? id).map fun w => tagLevel c.raisesFloors w.tags
  relations : ∀ id, s.levels.get? ⟨.relation, id⟩ = (s.relations.get? id).bind (relationLevel c.raisesFloors)
  nodes : ∀ id, s.levels.get? ⟨.node, id⟩ = none
  ambiguous : (found .levelAmbiguous s).Perm
    ((firstCopies h).values.flatMap (fun w => ambiguities c.raisesFloors w.key w.tags) ++
      s.relations.values.flatMap (relationAmbiguities c.raisesFloors))
  undefined : found .levelUndefined s = []

theorem filter_ambiguities (t : Tags) :
    ((ambiguities raise k t).filter fun a => a.kind = .levelAmbiguous) = ambiguities raise k t ∧
      ((ambiguities raise k t).filter fun a => a.kind = .levelUndefined) = [] := by
  rw [List.filter_eq_self, List.filter_eq_nil_iff]
  refine ⟨fun a ha => ?_, fun a ha => ?_⟩
  · simp [kind_of_mem_ambiguities ha]
  · simp [kind_of_mem_ambiguities ha]

theorem Tagged.empty : Tagged c [] empty where
  ways := fun _ => rfl
  relations := fun _ => rfl
  nodes := fun _ => rfl
  ambiguous := .rfl
  undefined := rfl

theorem Tagged.quiet (hs : Tagged c h s) (quiet : Quiet s t) {g : List Call}
    (copies : firstCopies g = firstCopies h) : Tagged c g t where
  ways := fun id => by rw [quiet.levels, copies, hs.ways]
  relations := fun id => by rw [quiet.levels, quiet.relations, hs.relations]
  nodes := fun id => by rw [quiet.levels, hs.nodes]
  ambiguous := by
    rw [quiet.found (by decide), quiet.relations, copies]
    exact hs.ambiguous
  undefined := by
    rw [quiet.found (by decide)]
    exact hs.undefined

theorem resolveLevel_tagged {t : Tags} (new : s.levels.has k = false)
    (ok : (resolveLevel c k t s).failure = none) :
    (resolveLevel c k t s).state = { s with
      levels := s.levels.put k (tagLevel c.raisesFloors t)
      anomalies := s.anomalies ++ ambiguities c.raisesFloors k t } := by
  cases hl : (levelOf c.raisesFloors k t).result with
  | error e =>
    rw [resolveLevel_of_error new hl] at ok
    cases ok
  | ok l =>
    obtain ⟨rfl, findings⟩ := levelOf_eq_ok hl
    rw [(resolveLevel_of_ok new hl).2, findings]

theorem addWay_old (opened : s.phase ≠ .relationsProcessed) (old : s.levels.has w.key = true) :
    Quiet s (addWay c w s).state := by
  have same : (addWay c w s).state.levels = s.levels ∧ (addWay c w s).state.anomalies = s.anomalies := by
    rw [addWay_eq opened]
    split
    · exact ⟨rfl, rfl⟩
    · have idle : resolveLevel c w.key w.tags s.reopened = Outcome.done s.reopened := if_pos old
      rw [idle, Outcome.done_andThen]
      exact keepWay_frame w
  exact .of_same same.1 (addWay_relations w) same.2

theorem addWay_new (levelled : Levelled s) (opened : s.phase ≠ .relationsProcessed)
    (new : s.levels.has w.key = false) (ok : (addWay c w s).failure = none) :
    (addWay c w s).state.levels = s.levels.put w.key (tagLevel c.raisesFloors w.tags) ∧
      (addWay c w s).state.anomalies = s.anomalies ++ ambiguities c.raisesFloors w.key w.tags := by
  rw [addWay_of_new levelled opened new] at ok ⊢
  have resolved := (Outcome.andThen_failure_eq_none.1 ok).1
  rw [Outcome.andThen_state resolved, (keepWay_frame w).1, (keepWay_frame w).2,
    resolveLevel_tagged (s := s.reopened) new resolved]
  exact ⟨rfl, rfl⟩

theorem Tagged.addWay (hs : Tagged c h s) (levelled : Levelled s) (opened : s.phase ≠ .relationsProcessed)
    (ok : (addWay c w s).failure = none) : Tagged c (h ++ [⟨.addWay w, s⟩]) (addWay c w s).state := by
  have copies : firstCopies (h ++ [⟨.addWay w, s⟩]) = addFirst (firstCopies h) w := firstCopies_snoc h _
  have known : s.levels.has w.key = (firstCopies h).has w.id := by
    rw [Table.has, Table.has, show w.key = ⟨.way, w.id⟩ from rfl, hs.ways, Option.isSome_map]
  cases new : (firstCopies h).has w.id with
  | true => exact hs.quiet (addWay_old opened (known.trans new)) (by rw [copies, addFirst, if_pos new])
  | false =>
    obtain ⟨levels, anomalies⟩ := addWay_new levelled opened (known.trans new) ok
    rw [addFirst, if_neg (by simp [new])] at copies
    refine ⟨fun id => ?_, fun id => ?_, fun id => ?_, ?_, ?_⟩
    · rw [levels, copies, Table.get?_put, Table.get?_put, hs.ways]
      by_cases hid : id = w.id
      · simp [hid, Way.key]
      · simp [hid, Way.key]
    · rw [levels, addWay_relations, Table.get?_put_of_ne _ _ (by simp [Way.key]), hs.relations]
    · rw [levels, Table.get?_put_of_ne _ _ (by simp [Way.key]), hs.nodes]
    · rw [found_append anomalies, (filter_ambiguities w.tags).1, addWay_relations, copies,
        Table.values_put_of_new new, List.flatMap_append, List.flatMap_singleton, List.append_assoc]
      refine (hs.ambiguous.append_right _).trans ?_
      rw [List.append_assoc]
      exact List.perm_append_comm.append_left _
    · rw [found_append anomalies, (filter_ambiguities w.tags).2, hs.undefined]
      rfl

theorem addRelation_tags (opened : s.phase ≠ .relationsProcessed) (r : Relation)
    (unset : s.relations.has r.id = false → s.levels.has r.key = false)
    (ok : (addRelation c r s).failure = none) :
    Quiet s (addRelation c r s).state ∨ s.relations.has r.id = false ∧ ∃ kind,
      (addRelation c r s).state.relations = s.relations.put r.id ⟨r, kind⟩ ∧
      (addRelation c r s).state.levels = (if kind = .multipolygon then
        s.levels.put r.key (tagLevel c.raisesFloors r.tags) else s.levels) ∧
      (addRelation c r s).state.anomalies =
        s.anomalies ++ relationAmbiguities c.raisesFloors ⟨r, kind⟩ := by
  rw [addRelation_eq opened] at ok ⊢
  split
  · exact .inl (.of_same rfl rfl rfl)
  · rename_i new
    rw [if_neg new] at ok
    rw [Bool.not_eq_true] at new
    cases hk : admission c r.tags with
    | error e => exact .inl (.of_same rfl rfl rfl)
    | ok kind =>
      cases kind with
      | none => exact .inl (.of_same rfl rfl rfl)
      | some kind =>
        rw [hk, Outcome.withValue_ok] at ok
        rw [Outcome.withValue_ok]
        dsimp only at ok ⊢
        refine .inr ⟨new, kind, ?_⟩
        rw [takeIn] at ok ⊢
        by_cases multipolygon : kind = .multipolygon
        · rw [if_pos multipolygon] at ok ⊢
          have resolved := (Outcome.andThen_failure_eq_none.1 ok).1
          rw [Outcome.andThen_state resolved, resolveLevel_tagged (s := markMembers r s.reopened) (unset new) resolved,
            putRelation, progress_state]
          simp only [relationAmbiguities, if_pos multipolygon]
          exact ⟨rfl, rfl, rfl⟩
        · rw [if_neg multipolygon, putRelation, progress_state]
          simp only [relationAmbiguities, if_neg multipolygon, List.append_nil]
          exact ⟨rfl, rfl, rfl⟩

theorem Tagged.addRelation (hs : Tagged c h s) (opened : s.phase ≠ .relationsProcessed)
    (ok : (addRelation c r s).failure = none) :
    Tagged c (h ++ [⟨.addRelation r, s⟩]) (addRelation c r s).state := by
  have copies : firstCopies (h ++ [⟨.addRelation r, s⟩]) = firstCopies h := firstCopies_snoc h _
  have unset (new : s.relations.has r.id = false) : s.levels.has r.key = false := by
    rw [Table.has, show r.key = ⟨.relation, r.id⟩ from rfl, hs.relations, Table.get?_eq_none new]
    rfl
  rcases addRelation_tags opened r unset ok with quiet | ⟨new, kind, relations, levels, anomalies⟩
  · exact hs.quiet quiet copies
  · have filtered : ∀ k : KeptRelation,
        ((relationAmbiguities c.raisesFloors k).filter fun a => a.kind = .levelAmbiguous) =
          relationAmbiguities c.raisesFloors k ∧
        ((relationAmbiguities c.raisesFloors k).filter fun a => a.kind = .levelUndefined) = [] := by
      intro k
      rw [relationAmbiguities]
      split
      · exact filter_ambiguities _
      · exact ⟨rfl, rfl⟩
    have unmoved (key : Key) (other : key ≠ r.key) :
        (Store.addRelation c r s).state.levels.get? key = s.levels.get? key := by
      rw [levels]
      split
      · exact Table.get?_put_of_ne _ _ other
      · rfl
    refine ⟨fun id => ?_, fun id => ?_, fun id => ?_, ?_, ?_⟩
    · rw [unmoved _ (by simp [Relation.key]), copies, ← hs.ways]
    · rw [relations, Table.get?_put]
      by_cases hid : id = r.id
      · subst hid
        rw [levels, if_pos rfl, Option.bind_some, relationLevel]
        split
        · exact Table.get?_put_self _ _ _
        · exact Table.get?_eq_none (unset new)
      · rw [if_neg hid, ← hs.relations, unmoved _ (by simp [Relation.key, hid])]
    · rw [unmoved _ (by simp [Relation.key]), hs.nodes]
    · rw [found_append anomalies, (filtered _).1, relations, copies, Table.values_put_of_new new,
        List.flatMap_append, List.flatMap_singleton, ← List.append_assoc]
      exact hs.ambiguous.append_right _
    · rw [found_append anomalies, (filtered _).2, hs.undefined]
      rfl

variable [Geometry]

theorem Tagged.call (hs : Tagged c h s) (levelled : Levelled s) (single : op.IsCall)
    (opened : s.phase ≠ .relationsProcessed) (ok : (apply c op s).failure = none) (ends : op ≠ .finish) :
    Tagged c (h ++ [⟨op, s⟩]) (apply c op s).state := by
  have idle : Quiet s s := .of_same rfl rfl rfl
  cases op with
  | load document => cases single
  | addNode n =>
    exact hs.quiet (addNode_keeps idle (.of_same rfl rfl rfl) (.of_same rfl rfl rfl)) (firstCopies_snoc h _)
  | addWay w => exact hs.addWay levelled opened ok
  | addRelation r => exact hs.addRelation opened ok
  | linesComplete => exact hs.quiet (linesComplete_keeps idle (.of_same rfl rfl rfl)) (firstCopies_snoc h _)
  | pointsComplete =>
    have resolved : Quiet s (resolveAreas c s).state :=
      keeps_of_chain resolveAreas_chain (fun step quiet => quiet.trans step.quiet) idle
    have quiet : Quiet s (pointsComplete c s).state :=
      pointsComplete_keeps idle resolved fun _ ht => { ht with }
    exact hs.quiet quiet (firstCopies_snoc h _)
  | finish => exact absurd rfl ends

end StreetMap.Store
