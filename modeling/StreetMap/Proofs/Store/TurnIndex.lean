import StreetMap.Proofs.TurnRestriction
import StreetMap.Proofs.Store.Calls
import StreetMap.Standard

/-!
The indexes of turn restrictions.  They are filled at the end of a load alone, by the relations one after
another; so they hold the restrictions that the kept relations make, each under both of its ways.
-/

namespace StreetMap.Store

open TurnRestriction

variable {c : Settings} {s t u : Store} {op : Operation} {h : List Call}

/-- The restriction relations that are kept, in the order in which they came. -/
def restrictions (s : Store) : List Relation :=
  (s.relations.values.filter fun k => k.kind = .restriction).map KeptRelation.relation

def rejections (s : Store) : List (AnomalyKind × Int) :=
  (s.anomalies.filter isRejection).map fun a => (a.kind, a.entityId)

def turnsOf (made : List (Relation × TurnRestriction)) (role : String) (way : Int) :
    List TurnRestriction :=
  (made.filter fun m => lastInRole m.1 role = some way).map Prod.snd

/-- The indexes hold one restriction for each of some relations and no others, in order. -/
def IndexesHold [Limits] (s : Store) (rs : List Relation) : Prop :=
  ∃ made : List (Relation × TurnRestriction), made.map Prod.fst = rs ∧
    (∀ m ∈ made, Describes m.1 m.2) ∧
    ∀ way, s.turnsFrom way = turnsOf made "from" way ∧ s.turnsTo way = turnsOf made "to" way

section Indexing

theorem turnsOf_append (made made' : List (Relation × TurnRestriction)) (role : String) (way : Int) :
    turnsOf (made ++ made') role way = turnsOf made role way ++ turnsOf made' role way := by
  rw [turnsOf, turnsOf, turnsOf, List.filter_append, List.map_append]

theorem isRejection_of_kind {a : Anomaly} {k : AnomalyKind} (h : a.kind = k)
    (hb : k ≠ .turnRestrictionBad) (hu : k ≠ .turnRestrictionUnknown) : isRejection a = false := by
  simp [isRejection, h, hb, hu]

variable [Limits]

structure Indexing (rs : List Relation) (made : List (Relation × TurnRestriction)) (s t : Store) :
    Prop where
  complete : made.map Prod.fst = rs.filter isComplete
  describes : ∀ m ∈ made, Describes m.1 m.2
  fromWay : ∀ way, t.turnsFrom way = s.turnsFrom way ++ turnsOf made "from" way
  toWay : ∀ way, t.turnsTo way = s.turnsTo way ++ turnsOf made "to" way
  rejections : t.rejections = s.rejections ++ (rs.filter fun r => !isComplete r).map rejection

theorem Indexing.trans {rs rs' : List Relation} {made made' : List (Relation × TurnRestriction)}
    (hs : Indexing rs made s t) (ht : Indexing rs' made' t u) :
    Indexing (rs ++ rs') (made ++ made') s u where
  complete := by rw [List.map_append, hs.complete, ht.complete, List.filter_append]
  describes := List.forall_mem_append.2 ⟨hs.describes, ht.describes⟩
  fromWay := fun way => by rw [ht.fromWay, hs.fromWay, turnsOf_append, List.append_assoc]
  toWay := fun way => by rw [ht.toWay, hs.toWay, turnsOf_append, List.append_assoc]
  rejections := by rw [ht.rejections, hs.rejections, List.filter_append, List.map_append, List.append_assoc]

def SameTurns (s t : Store) : Prop := Indexing [] [] s t

theorem SameTurns.of_findings {as : List Anomaly} (turns : t.fromTurns = s.fromTurns ∧ t.toTurns = s.toTurns)
    (anomalies : t.anomalies = s.anomalies ++ as) (others : ∀ a ∈ as, isRejection a = false) :
    SameTurns s t where
  complete := rfl
  describes := List.forall_mem_nil _
  fromWay := fun _ => by rw [turnsFrom, turns.1]; exact (List.append_nil _).symm
  toWay := fun _ => by rw [turnsTo, turns.2]; exact (List.append_nil _).symm
  rejections := by
    have none : as.filter isRejection = [] := List.filter_eq_nil_iff.2 (by simpa using others)
    rw [Store.rejections, anomalies, List.filter_append, none, List.append_nil]
    exact (List.append_nil _).symm

theorem SameTurns.of_same (turns : t.fromTurns = s.fromTurns ∧ t.toTurns = s.toTurns)
    (anomalies : t.anomalies = s.anomalies) : SameTurns s t :=
  .of_findings turns (by rw [anomalies, List.append_nil]) (List.forall_mem_nil _)

theorem SameTurns.refl (s : Store) : SameTurns s s := .of_same ⟨rfl, rfl⟩ rfl

theorem SameTurns.phase (s : Store) (p : Phase) : SameTurns s { s with phase := p } := .of_same ⟨rfl, rfl⟩ rfl

theorem SameTurns.trans (hs : SameTurns s t) (ht : SameTurns t u) : SameTurns s u := Indexing.trans hs ht

theorem OnlyAdds.sameTurns (adds : OnlyAdds s t) : SameTurns s t := by
  obtain ⟨as, has, hkinds⟩ := adds.findings
  exact .of_findings adds.turns has fun a ha => isRejection_of_kind (hkinds a ha) (by decide) (by decide)

theorem AreaStep.sameTurns (step : AreaStep s t) : SameTurns s t := by
  cases step with
  | note log findings =>
    exact .of_findings ⟨rfl, rfl⟩ rfl fun a ha => isRejection_of_kind (findings a ha) (by decide) (by decide)
  | processed k => exact .of_same ⟨rfl, rfl⟩ rfl
  | bound w => exact .of_same ⟨rfl, rfl⟩ rfl
  | area p => exact .of_same ⟨rfl, rfl⟩ rfl
  | retag id source =>
    rw [Store.retag]
    split
    · exact .refl s
    · exact .of_same ⟨rfl, rfl⟩ rfl

theorem sameTurns_of_chain {R : Store → Store → Prop} (hR : ∀ {s t}, R s t → SameTurns s t)
    (chain : Relation.ReflTransGen R s t) : SameTurns s t := by
  induction chain with
  | refl => exact .refl s
  | tail _ step ih => exact ih.trans (hR step)

variable [Geometry]

theorem resolveAreas_sameTurns : SameTurns s (resolveAreas c s).state :=
  sameTurns_of_chain AreaStep.sameTurns resolveAreas_chain

end Indexing

section Conclusion

theorem turnsOf_singleton (r : Relation) (turn : TurnRestriction) (role : String) (way : Int) :
    turnsOf [(r, turn)] role way = if lastInRole r role = some way then [turn] else [] := by
  by_cases hr : lastInRole r role = some way <;> simp [turnsOf, hr]

theorem get?_appendTurn (t : Table Int (List TurnRestriction)) (way w : Int) (turn : TurnRestriction) :
    ((appendTurn t w turn).get? way).getD [] =
      (t.get? way).getD [] ++ if some w = some way then [turn] else [] := by
  rw [appendTurn, Table.adjust, Table.get?_put]
  by_cases hw : way = w
  · simp [hw]
  · simp [hw, Ne.symm hw]

theorem rejections_record {α : Type} (x : Logged α) :
    (s.record x.log).rejections =
      s.rejections ++ (x.findings.filter isRejection).map fun a => (a.kind, a.entityId) := by
  rw [rejections, record, List.filter_append, List.map_append]
  rfl

variable [Limits]

theorem applyRestriction_indexing {r : Relation} (ok : (applyRestriction r s).failure = none) :
    ∃ made, Indexing [r] made s (applyRestriction r s).state := by
  rw [applyRestriction, absorb] at ok ⊢
  cases hr : (ofRelation r).result with
  | error e =>
    rw [hr] at ok
    cases ok
  | ok found =>
    have rejected := rejections_of_ok hr
    cases makes_of_ok hr with
    | nothing incomplete =>
      refine ⟨[], by simp [incomplete], List.forall_mem_nil _, ?_, ?_, ?_⟩
      · exact fun _ => (List.append_nil _).symm
      · exact fun _ => (List.append_nil _).symm
      · change (s.record (ofRelation r).log).rejections = _
        rw [rejections_record, rejected]
        simp [incomplete]
    | @restriction e turn complete ends describes =>
      have roles := endsOf_eq_some.1 ends
      refine ⟨[(r, turn)], by simp [complete], List.forall_mem_singleton.2 describes, ?_, ?_, ?_⟩
      · intro way
        rw [turnsOf_singleton, roles.1]
        exact get?_appendTurn _ _ _ _
      · intro way
        rw [turnsOf_singleton, roles.2.1]
        exact get?_appendTurn _ _ _ _
      · change (s.record (ofRelation r).log).rejections = _
        rw [rejections_record, rejected]
        simp [complete]

theorem absorb_sameTurns {α : Type} {x : Logged α} {f : α → Store → Outcome Store}
    (others : ∀ a ∈ x.findings, isRejection a = false) (hf : ∀ a t, SameTurns t (f a t).state) :
    SameTurns s (s.absorb x f).state := by
  have found : SameTurns s (s.record x.log) := .of_findings ⟨rfl, rfl⟩ rfl others
  exact absorb_keeps found fun a _ => found.trans (hf a _)

theorem withValue_sameTurns {α : Type} {x : Except Failure α} {f : α → Outcome Store}
    (hf : ∀ a, SameTurns s (f a).state) : SameTurns s (Outcome.withValue s x f).state :=
  withValue_keeps (.refl s) fun a _ => hf a

theorem forEach_sameTurns {α : Type} {f : α → Store → Outcome Store}
    (hf : ∀ x t, SameTurns t (f x t).state) (xs : List α) (s : Store) :
    SameTurns s (Outcome.forEach f xs s).state :=
  Outcome.forEach_keeps (.refl s) fun x _ t ht => ht.trans (hf x t)

theorem readMap_findings (list : String) (source : LevelSource) (raise : Bool) :
    (Level.readMap list source raise).findings = [] := by
  refine Logged.bind_findings_eq_nil ?_ fun _ => rfl
  refine Logged.bind_findings_eq_nil rfl fun specs => ?_
  exact Logged.mapM_findings (fun s => Level.readLogged_findings s source raise) specs

theorem levelsOf_findings (r : Relation) : (levelsOf r).findings = [] := by
  rw [levelsOf]
  split
  · exact readMap_findings _ _ _
  · exact Logged.bind_findings_eq_nil rfl fun _ => readMap_findings _ _ _

theorem levelInRole_findings (r : Relation) (levels : Table String Level) (m : Member) :
    ∀ a ∈ (levelInRole r levels m).findings, a.kind = .levelUndefined := by
  have missing : ∀ a ∈ (levelInRole.missing r m).findings, a.kind = .levelUndefined :=
    Logged.report_bind_kind (List.forall_mem_nil _)
  rw [levelInRole]
  split
  · split
    · exact List.forall_mem_nil _
    · exact missing
  · split
    · exact missing
    · exact List.forall_mem_nil _

theorem applyLevel_sameTurns (r : Relation) (levels : Table String Level) (m : Member) :
    SameTurns s (applyLevel r levels m s).state := by
  rw [applyLevel]
  split
  · exact .refl s
  · refine withValue_sameTurns fun role => ?_
    split
    · exact .refl s
    · apply absorb_sameTurns
      · intro a ha
        exact isRejection_of_kind (levelInRole_findings r levels m a ha) (by decide) (by decide)
      · intro level t
        cases level with
        | none => exact .refl t
        | some level => exact .of_same ⟨rfl, rfl⟩ rfl

theorem applyLevelMap_sameTurns (r : Relation) : SameTurns s (applyLevelMap r s).state := by
  apply absorb_sameTurns
  · rw [levelsOf_findings]
    exact List.forall_mem_nil _
  · exact fun levels t => forEach_sameTurns (fun m u => applyLevel_sameTurns r levels m) _ t

theorem listOnWay_sameTurns (r : Relation) (key : String) (tag : Json) (id : Int) :
    SameTurns s (listOnWay c r key tag id s).state := by
  rw [listOnWay]
  split
  · exact withValue_sameTurns fun t => .of_same ⟨rfl, rfl⟩ rfl
  · exact .refl s

theorem applyRoute_sameTurns (r : Relation) : SameTurns s (applyRoute c r s).state := by
  apply forEach_sameTurns
  intro m t
  apply Outcome.andThen_keeps (listOnWay_sameTurns r _ _ _)
  exact fun u hu => hu.trans (listOnWay_sameTurns r _ _ _)

theorem applyStopArea_sameTurns (r : Relation) : SameTurns s (applyStopArea r s).state := by
  have unresolved : ∀ text, SameTurns s
      (s.absorb (unresolvedStops r text) fun _ s => Outcome.done s).state := by
    refine fun text => absorb_sameTurns (fun a ha => ?_) fun _ t => .refl t
    exact isRejection_of_kind (Logged.report_kind _ _ _ a ha) (by decide) (by decide)
  rw [applyStopArea]
  split
  · exact .of_same ⟨rfl, rfl⟩ rfl
  · exact unresolved _
  · exact unresolved _

theorem applyRelation_sameTurns {k : KeptRelation} (other : k.kind ≠ .restriction) :
    SameTurns s (applyRelation c k s).state := by
  rw [applyRelation]
  split
  · exact .refl s
  · exact absurd ‹_› other
  · exact applyLevelMap_sameTurns k.relation
  · exact applyRoute_sameTurns k.relation
  · exact applyStopArea_sameTurns k.relation

theorem forEach_indexing (ks : List KeptRelation)
    (ok : (Outcome.forEach (applyRelation c) ks s).failure = none) :
    ∃ made, Indexing ((ks.filter fun k => k.kind = .restriction).map KeptRelation.relation) made s
      (Outcome.forEach (applyRelation c) ks s).state := by
  induction ks generalizing s with
  | nil => exact ⟨[], SameTurns.refl s⟩
  | cons k ks ih =>
    rw [Outcome.forEach_cons, Outcome.andThen_failure_eq_none] at ok
    rw [Outcome.forEach_cons, Outcome.andThen_state ok.1]
    obtain ⟨rest, hrest⟩ := ih ok.2
    by_cases hk : k.kind = .restriction
    · have restriction : applyRelation c k = applyRestriction k.relation := by
        funext t
        rw [applyRelation, hk]
      rw [restriction] at ok hrest ⊢
      obtain ⟨made, hmade⟩ := applyRestriction_indexing ok.1
      exact ⟨made ++ rest, by simpa [hk] using hmade.trans hrest⟩
    · exact ⟨rest, by simpa [hk] using Indexing.trans (applyRelation_sameTurns hk) hrest⟩

theorem finish_indexing (before : SameTurns empty s) (opened : s.phase = .areasResolved)
    (ok : (finish c s).failure = none) :
    (∃ made, Indexing (restrictions (finish c s).state) made empty (finish c s).state) ∧
      (finish c s).state.phase = .relationsProcessed := by
  rw [finish_of_open opened, Outcome.andThen_failure_eq_none] at ok
  rw [finish_of_open opened, Outcome.andThen_state ok.1]
  obtain ⟨made, hmade⟩ := forEach_indexing s.relations.values ok.1
  have closed := (Indexing.trans before hmade).trans (SameTurns.phase _ .relationsProcessed)
  rw [List.append_nil, List.append_nil] at closed
  refine ⟨⟨made, ?_⟩, rfl⟩
  have kept : restrictions { (applyRelations c s).state with phase := .relationsProcessed } =
      restrictions s := by
    rw [restrictions, applyRelations_same.relations, restrictions]
  exact kept.symm ▸ closed

end Conclusion

section Runs

/-- A call that applies the relations: the end of a load in its phase. -/
def Call.concludes (k : Call) : Bool :=
  match k.op with
  | .finish => k.found.phase = .areasResolved
  | _ => false

variable [Limits]

theorem Indexing.holds {rs : List Relation} {made : List (Relation × TurnRestriction)}
    (h : Indexing rs made empty t) : IndexesHold t (rs.filter isComplete) :=
  ⟨made, h.complete, h.describes, fun way => ⟨h.fromWay way, h.toWay way⟩⟩

variable [Geometry]

theorem call_sameTurns (single : op.IsCall) (before : Call.concludes ⟨op, s⟩ = false) :
    SameTurns s (apply c op s).state := by
  have step := call_step (c := c) (s := s) single
  generalize (apply c op s).state = t at step
  cases step with
  | refused _ _ closed => exact .refl s
  | rental opened rental => exact .of_same ⟨rfl, rfl⟩ rfl
  | node opened plain wanted new => exact .of_same ⟨rfl, rfl⟩ rfl
  | passed opened plain old => exact .refl s
  | way opened adds => exact (SameTurns.phase s .ingesting).trans adds.sameTurns
  | relation opened adds => exact (SameTurns.phase s .ingesting).trans adds.sameTurns
  | marked opened => exact .of_same ⟨rfl, rfl⟩ rfl
  | resolving opened same made =>
    rw [made]
    exact resolveAreas_sameTurns
  | resolved opened same tried made =>
    rw [made]
    exact resolveAreas_sameTurns.trans (.phase _ .areasResolved)
  | concluding opened same made => simp [Call.concludes, opened] at before
  | concluded opened same made => simp [Call.concludes, opened] at before

theorem call_of_closed (single : op.IsCall) (closed : s.phase = .relationsProcessed) :
    (apply c op s).state = s := by
  have late : s.phase ≠ .areasResolved := by rw [closed]; decide
  cases op with
  | load document => cases single
  | addNode n => exact congrArg Outcome.state (addNode_of_closed closed n)
  | addWay w => exact congrArg Outcome.state (addWay_of_closed closed w)
  | addRelation r => exact congrArg Outcome.state (addRelation_of_closed closed r)
  | linesComplete => exact congrArg Outcome.state (linesComplete_of_closed closed)
  | pointsComplete =>
    refine congrArg Outcome.state (pointsComplete_of_closed ?_)
    rw [closed]
    decide
  | finish => exact congrArg Outcome.state (finish_of_closed late)

theorem phase_of_call (single : op.IsCall) (before : Call.concludes ⟨op, s⟩ = false)
    (opened : s.phase ≠ .relationsProcessed) : (apply c op s).state.phase ≠ .relationsProcessed := by
  have step := call_step (c := c) (s := s) single
  generalize (apply c op s).state = t at step
  cases step with
  | refused _ _ closed => exact opened
  | rental opened rental => exact opened
  | node opened plain wanted new => exact opened
  | passed opened plain old => exact opened
  | way opened adds => rw [adds.phase]; nofun
  | relation opened adds => rw [adds.phase]; nofun
  | marked opened => nofun
  | resolving opened same => rw [same.phase]; assumption
  | resolved opened same tried => nofun
  | concluding resolved same => rw [same.phase]; exact opened
  | concluded resolved same => simp [Call.concludes, resolved] at before

theorem Leads.concluded_once {P Q : Store → Prop} (hl : Leads c empty h t) (start : P empty)
    (keep : ∀ op s, op.IsCall → Call.concludes ⟨op, s⟩ = false → P s → P (apply c op s).state)
    (conclude : ∀ s, P s → s.phase = .areasResolved → (finish c s).failure = none →
      Q (finish c s).state ∧ (finish c s).state.phase = .relationsProcessed) :
    (h.filter Call.concludes = [] → P t ∧ t.phase ≠ .relationsProcessed) ∧
    ∀ k, h.filter Call.concludes = [k] → (finish c k.found).failure = none →
      Q t ∧ t.phase = .relationsProcessed := by
  induction hl with
  | start => exact ⟨fun _ => ⟨start, by decide⟩, nofun⟩
  | @call h u op leads single ih =>
    cases hc : Call.concludes ⟨op, u⟩ with
    | false =>
      rw [List.filter_append, List.filter_cons_of_neg (by simp [hc]), List.filter_nil, List.append_nil]
      refine ⟨fun none => ?_, fun k one ok => ?_⟩
      · have before := ih.1 none
        exact ⟨keep op u single hc before.1, phase_of_call single hc before.2⟩
      · have after := ih.2 k one ok
        rw [call_of_closed single after.2]
        exact after
    | true =>
      rw [List.filter_append, List.filter_cons_of_pos hc, List.filter_nil]
      refine ⟨by simp, fun k one ok => ?_⟩
      cases first : h.filter Call.concludes with
      | cons g gs => simp [first] at one
      | nil =>
        rw [first] at one
        cases one
        cases op with
        | finish => exact conclude u (ih.1 first).1 (of_decide_eq_true hc) ok
        | _ => cases hc

theorem ends_once {ops : List Operation} (early : ∀ op ∈ ops, op.IsCall ∧ op ≠ .finish)
    (resolved : (run c ops empty).phase = .areasResolved) :
    (history c (ops ++ [.finish]) empty).filter Call.concludes = [⟨.finish, run c ops empty⟩] := by
  have before : (history c ops empty).filter Call.concludes = [] := by
    rw [List.filter_eq_nil_iff]
    intro k hk concludes
    have single := early k.op (mem_of_mem_history (fun op hop => (early op hop).1) hk)
    cases hop : k.op <;> simp_all [Call.concludes]
  rw [history_append, List.filter_append, before, List.nil_append]
  exact List.filter_cons_of_pos (decide_eq_true resolved)

theorem Leads.turns (hl : Leads c empty h t) :
    (h.filter Call.concludes = [] → SameTurns empty t ∧ t.phase ≠ .relationsProcessed) ∧
    ∀ k, h.filter Call.concludes = [k] → (finish c k.found).failure = none →
      (∃ made, Indexing (restrictions t) made empty t) ∧ t.phase = .relationsProcessed :=
  hl.concluded_once (P := SameTurns empty) (Q := fun u => ∃ made, Indexing (restrictions u) made empty u)
    (.refl _) (fun _ _ single before none => none.trans (call_sameTurns single before))
    fun _ none opened ok => finish_indexing none opened ok

/-- If in the course of a run the relations are applied once, and that goes well, the indexes hold the
restrictions that the kept relations make, and those that make none are rejected, each with one finding. -/
theorem turn_indexes {ops : List Operation} {k : Call}
    (once : (history c ops empty).filter Call.concludes = [k]) (ok : (finish c k.found).failure = none) :
    IndexesHold (run c ops empty) ((restrictions (run c ops empty)).filter isComplete) ∧
      (run c ops empty).rejections =
        ((restrictions (run c ops empty)).filter fun r => !isComplete r).map rejection := by
  obtain ⟨⟨made, hmade⟩, -⟩ := (leads_history ops).turns.2 k once ok
  exact ⟨hmade.holds, hmade.rejections⟩

end Runs

section Examples

open Standard

def noLeftTurn : Relation :=
  ⟨300, [⟨.text "way", 10, .text "from"⟩, ⟨.text "way", 11, .text "to"⟩, ⟨.text "node", 1, .text "via"⟩],
    [("type", .text "restriction"), ("restriction", .text "no_left_turn"), ("except", .text "motorcar; hgv")]⟩

def turnFromNowhere : Relation :=
  ⟨301, [⟨.text "way", 11, .text "to"⟩, ⟨.text "node", 1, .text "via"⟩],
    [("type", .text "restriction"), ("restriction", .text "no_u_turn")]⟩

def crossroads : List Operation :=
  [.addRelation noLeftTurn, .addRelation turnFromNowhere, .linesComplete, .finish, .pointsComplete, .finish,
    .finish]

theorem crossroads_turn_indexes :
    IndexesHold (run .default crossroads empty) [noLeftTurn] ∧
      (run .default crossroads empty).rejections = [(.turnRestrictionBad, 301)] := by
  have once : (history .default crossroads empty).filter Call.concludes =
    [⟨.finish, run .default (crossroads.take 5) empty⟩] := rfl
  exact turn_indexes once rfl

end Examples

end StreetMap.Store
