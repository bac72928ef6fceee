import StreetMap.Proofs.Store.Buckets
import StreetMap.Proofs.Store.Conclusion
import StreetMap.Proofs.Store.Multipolygon
import StreetMap.Proofs.Store.Protocol

/-!
What data can stop a load.  Where tags and roles are text and every level can be read, a call goes well if its
phase lets it in.  All that can stop one midway is an integer that is too long for the message that shows it,
and an area on which the geometry has no verdict.
-/

namespace StreetMap

theorem Settings.hasTextRoutes_of_valid {c : Settings} {name ref separator : String} (valid : c.problems = [])
    (hname : c.routeNameTag = .text name) (href : c.routeRefTag = .text ref)
    (hseparator : c.routeSeparator = .text separator) : c.HasTextRoutes := by
  refine ⟨name, ref, separator, hname, href, hseparator, ?_⟩
  rintro rfl
  have hr : c.routeProblems = [] := (List.append_eq_nil_iff.1 valid).2
  rw [routeProblems, List.append_eq_nil_iff, hseparator] at hr
  cases hr.2

section Limits

variable [Limits]

structure Tags.LevelsReadable (c : Settings) (t : Tags) : Prop where
  level : ∀ v, t.get? "level" = some (.text v) →
    ∃ found, Level.read v .levelTag c.raisesFloors = .ok found
  layer : ∀ v, t.get? "layer" = some (.text v) →
    ∃ found, Level.read v .layerTag c.raisesFloors = .ok found
  levels : ∀ list, t.get? "levels" = some (.text list) →
    ∃ levels, (Level.readMap list .levelMap true).result = .ok levels

structure Way.Fits (w : Way) : Prop where
  id : Numeral.fits w.id = true
  refs : ∀ n ∈ w.nodeRefs, Numeral.fits n = true

theorem RingOfNodes.fits_of_build [Geometry] {nodes : Table Int Node} {ids : List Int} {e : RingError}
    (h : build nodes ids = .error e) (fits : ∀ n ∈ ids, Numeral.fits n = true) : e.Fits := by
  rw [build] at h
  split at h
  · split at h
    · cases h
      exact fits
    · rw [validate] at h
      split at h
      · cases h
        trivial
      · split at h
        · split at h <;> cases h
          trivial
        · split at h <;> cases h <;> trivial
  · cases h
    exact fun n hn => fits n (List.mem_of_mem_filter (List.mem_of_mem_take hn))

theorem Area.Unbuilt.fits [Geometry] {parent : Parent} {outer inner : List Ring.Refs} {nodes : Table Int Node}
    {e : AreaError} (h : Unbuilt parent outer inner nodes e) (key : Numeral.fits parent.key.id = true)
    (refs : ∀ ids ∈ outer ++ inner, ∀ n ∈ ids, Numeral.fits n = true) : e.Fits := by
  cases h with
  | @ring ways rings ids e side assembled member failed =>
    refine RingOfNodes.fits_of_build failed fun n hn => ?_
    have along := (Ring.mem_assemble assembled).1 (List.mem_flatten_of_mem member hn)
    obtain ⟨way, hway, hn⟩ := List.mem_flatten.1 along
    refine refs way (List.mem_append.2 ?_) n hn
    obtain rfl | rfl := side
    · exact .inl hway
    · exact .inr hway
  | refused => trivial
  | _ => exact key

end Limits

namespace Store

variable {c : Settings} {s t : Store} {op : Operation}

/-- An area is not built for want of a verdict on its rings or on the whole of it. -/
def NoVerdict [Geometry] (nodes : Table Int Node) (f : Failure) : Prop :=
  ∃ parent outer inner e, f = .area e ∧ e.isRejection = false ∧
    Area.build parent outer inner nodes = .error e ∧ Unjudged nodes outer inner

theorem admission_of_text {t : Tags} (standard : c.classifier = some .standard) (text : t.AllText) :
    ∃ kind, admission c t = .ok kind := by
  obtain ⟨⟨routable, hr⟩, ⟨way, hw⟩, -⟩ := Settings.access_of_standard standard text
  obtain ⟨parkAndRide, hp⟩ := text.isParkAndRide
  have classified : ∃ kind, classify c t = .ok kind := by
    rw [classify, hr, hp, orElse_ok]
    split
    · simp only [bind, Except.bind]
      split <;> exact ⟨_, rfl⟩
    · split_ifs <;> exact ⟨_, rfl⟩
  obtain ⟨kind, hkind⟩ := classified
  rw [admission, hkind, hw, hp, orElse_ok]
  simp only [bind, Except.bind]
  split
  · split <;> exact ⟨_, rfl⟩
  · exact ⟨_, rfl⟩

theorem addNode_ok (valid : c.problems = []) (opened : s.phase ≠ .relationsProcessed) (n : Node) :
    (addNode c n s).failure = none := by
  rw [addNode_eq opened]
  split
  · rfl
  · split
    · exact progress_ok (Settings.positive_of_valid valid).1 _ _
    · rfl

section Intake

variable [Limits]

/-- Tags and roles are text, and every level among the tags can be read. -/
def Operation.IsReadable (c : Settings) : Operation → Prop
  | .addWay w => w.tags.AllText ∧ w.tags.LevelsReadable c
  | .addRelation r => r.IsText ∧ r.tags.LevelsReadable c
  | _ => True

/-- The integers that a message may show can be written. -/
def Operation.Fits : Operation → Prop
  | .addWay w => w.Fits
  | .addRelation r => r.Fits
  | _ => True

theorem levelOf_long {t : Tags} (text : t.AllText) (readable : t.LevelsReadable c) (k : Key) :
    FailsBy (LongUnless (Numeral.fits k.id = true)) (levelOf c.raisesFloors k t).result := by
  rw [levelOf_of_text text]
  cases hv : levelText? t with
  | none => exact .ok _
  | some found =>
    obtain ⟨v, source⟩ := found
    have reads : ∃ found, Level.read v source c.raisesFloors = .ok found := by
      rw [levelText?] at hv
      split at hv
      · rename_i level
        cases hv
        exact readable.level v level
      · rename_i layer
        cases hv
        exact readable.layer v layer
      · cases hv
    obtain ⟨⟨level, doubt⟩, hr⟩ := reads
    dsimp only
    rw [levelOfTag_of_ok hr]
    split
    · exact .ok _
    · exact ((writtenIf_ambiguityText k v).number_long id).map _

theorem resolveLevel_long {t : Tags} (text : t.AllText) (readable : t.LevelsReadable c) (k : Key) :
    (resolveLevel c k t s).FailsBy (LongUnless (Numeral.fits k.id = true)) := by
  rw [resolveLevel]
  split
  · exact .of_none rfl
  · exact absorb_failsBy (levelOf_long text readable k) fun _ _ => .of_none rfl

theorem addWay_long {w : Way} (valid : c.problems = []) (standard : c.classifier = some .standard)
    (opened : s.phase ≠ .relationsProcessed) (text : w.tags.AllText) (readable : w.tags.LevelsReadable c) :
    (addWay c w s).FailsBy (LongUnless (Numeral.fits w.id = true)) := by
  rw [addWay_eq opened]
  split
  · exact .of_none rfl
  · refine .andThen (resolveLevel_long text readable w.key) fun t => .of_none ?_
    exact keepWay_ok valid (Settings.answers_of_standard standard) text

theorem addRelation_long {r : Relation} (valid : c.problems = []) (standard : c.classifier = some .standard)
    (opened : s.phase ≠ .relationsProcessed) (text : r.tags.AllText) (readable : r.tags.LevelsReadable c) :
    (addRelation c r s).FailsBy (LongUnless (Numeral.fits r.id = true)) := by
  have counted (kind : RelationKind) (t : Store) : (putRelation c r kind t).failure = none :=
    progress_ok (Settings.positive_of_valid valid).2.2 _ _
  rw [addRelation_eq opened]
  split
  · exact .of_none rfl
  · obtain ⟨kind, hkind⟩ := admission_of_text standard text
    rw [hkind]
    cases kind with
    | none => exact .of_none rfl
    | some kind =>
      rw [Outcome.withValue_ok]
      dsimp only
      rw [takeIn]
      split
      · exact .andThen (resolveLevel_long text readable r.key) fun t => .of_none (counted _ t)
      · exact .of_none (counted _ _)

end Intake

section Areas

variable [Limits]

def RefsFit (s : Store) : Prop := ∀ id w, s.way? id = some w → ∀ n ∈ w.nodeRefs, Numeral.fits n = true

theorem SameElements.refsFit (h : SameElements s t) (fits : RefsFit s) : RefsFit t := by
  intro id w hw
  obtain ⟨v, hv, along⟩ := (h.way?_iff id fun _ refs => refs = w.nodeRefs).1 ⟨w, hw, rfl⟩
  rw [← along]
  exact fits id v hv

theorem rolesFit_of_text {r : Relation} (text : r.IsText) (fits : r.Fits) : RolesFit s r r.wayMembers := by
  intro m hm
  have member : m ∈ r.members :=
    List.mem_of_mem_filter ((List.takeWhile_sublist _).mem (List.mem_of_mem_filter hm))
  obtain ⟨role, hrole⟩ := text.2 m member
  rw [roleFits, hrole, fits.refs m member, fits.id]
  rfl

variable [Geometry]

def Halts (p : Prop) (nodes : Table Int Node) (f : Failure) : Prop := NoVerdict nodes f ∨ LongUnless p f

theorem Stops.halts {p : Prop} {parent : Parent} {outer inner : List Ring.Refs} {nodes : Table Int Node}
    {e : AreaError} {f : Failure} (h : Stops parent.key e f)
    (unbuilt : Area.build parent outer inner nodes = .error e)
    (key : p → Numeral.fits parent.key.id = true)
    (refs : p → ∀ ids ∈ outer ++ inner, ∀ n ∈ ids, Numeral.fits n = true) : Halts p nodes f := by
  have why := Area.unbuilt_of_build unbuilt
  obtain ⟨-, long, told⟩ | ⟨silent, told⟩ := h
  · exact .inr ⟨told, fun short => long ⟨key short, why.fits (key short) (refs short)⟩⟩
  · exact .inl ⟨parent, outer, inner, e, told, silent, unbuilt, why.unjudged silent⟩

theorem tryMultipolygon_halts {k : KeptRelation} (standard : c.classifier = some .standard)
    (text : k.relation.IsText) :
    (tryMultipolygon c k s).FailsBy (Halts (k.relation.Fits ∧ RefsFit s) s.nodes) := by
  rcases tryMultipolygon_cases c k s with ⟨-, tried⟩ | ⟨-, skipped⟩
  · rw [tried]
    by_cases constructs : Constructs s k.relation
    · obtain ⟨boundary, fit, a, built⟩ := constructs
      refine .of_none ((resolveMultipolygon_failure_eq_none boundary fit built).2 ?_)
      exact Settings.classifies_of_standard standard text.1
    · intro f failed
      cases ((resolveMultipolygon_abandoned constructs).2 f).1 failed with
      | role long told => exact .inr ⟨told, fun short => long (rolesFit_of_text text short.1)⟩
      | rings boundary fit unbuilt stops =>
        refine stops.halts unbuilt (fun short => short.1.id) fun short refs hrefs => ?_
        rw [← List.map_append] at hrefs
        obtain ⟨w, hw, rfl⟩ := List.mem_map.1 hrefs
        obtain ⟨m, -, -, hm⟩ := mem_boundaryOf.1 hw
        exact short.2 m.ref w hm
  · rw [skipped]
    exact .of_none rfl

theorem tryCandidate_halts {w : Way} (standard : c.classifier = some .standard) (text : w.tags.AllText) :
    (tryCandidate c w s).FailsBy (Halts w.Fits s.nodes) := by
  rw [tryCandidate]
  split
  · exact .of_none rfl
  · refine .andThen (fun f failed => ?_) fun t => .of_none rfl
    cases built : Area.build ⟨w.key, w.tags⟩ ([w].map Way.nodeRefs) (([] : List Way).map Way.nodeRefs) s.nodes with
    | ok a =>
      have placed : (place c a s).failure = none := by
        rw [place_failure_eq_none, (Area.sound_of_build built).1]
        exact Settings.classifies_of_standard standard text
      rw [buildArea_of_area built, placed] at failed
      cases failed
    | error e =>
      refine Stops.halts (((buildArea_of_error built _).2 f).1 failed) built Way.Fits.id fun short refs hrefs => ?_
      obtain rfl : refs = w.nodeRefs := by simpa using hrefs
      exact short.refs

theorem resolveAreas_halts (standard : c.classifier = some .standard)
    (relations : ∀ k ∈ s.relations.values, k.relation.IsText)
    (candidates : ∀ w ∈ s.candidates, w.tags.AllText) :
    (resolveAreas c s).FailsBy
      (Halts (NumbersFit s ∧ RefsFit s ∧ ∀ w ∈ s.candidates, w.Fits) s.nodes) := by
  have multipolygons := tryMultipolygons_same (c := c) (s := s) s.relations.values
  refine .followed ?_ ?_
  · refine .forEach_where (I := SameElements s) (.refl s) fun k hk t same => ?_
    refine ⟨fun f failed => ?_, same.trans (same_of_chain AreaStep.same (tryMultipolygon_chain k))⟩
    have halts := tryMultipolygon_halts standard (relations k hk) f failed
    rw [same.nodes] at halts
    exact halts.imp_right fun ⟨told, long⟩ =>
      ⟨told, fun short => long ⟨short.1 k hk, same.refsFit short.2.1⟩⟩
  · rw [multipolygons.candidates]
    refine .forEach_where (I := SameElements s) multipolygons fun w hw t same => ?_
    refine ⟨fun f failed => ?_, same.trans (tryCandidate_same w)⟩
    have halts := tryCandidate_halts standard (candidates w hw) f failed
    rw [same.nodes] at halts
    exact halts.imp_right fun ⟨told, long⟩ => ⟨told, fun short => long (short.2.2 w hw)⟩

end Areas

section Runs

structure Brings (op : Operation) (s t : Store) : Prop where
  candidates : ∀ w ∈ t.candidates, w ∈ s.candidates ∨ op = .addWay w
  relations : ∀ k ∈ t.relations.values, k ∈ s.relations.values ∨ op = .addRelation k.relation
  ways : ∀ id w, t.way? id = some w →
    (∃ v, s.way? id = some v ∧ v.nodeRefs = w.nodeRefs) ∨ op = .addWay w

theorem Brings.of_same (candidates : t.candidates = s.candidates) (relations : t.relations = s.relations)
    (ways : outline t.ways = outline s.ways) (areaWays : t.areaWays = s.areaWays) : Brings op s t := by
  constructor
  · rw [candidates]
    exact fun w hw => .inl hw
  · rw [relations]
    exact fun k hk => .inl hk
  · intro id w hw
    exact .inl ((way?_iff_of_outline ways areaWays id fun _ refs => refs = w.nodeRefs).1 ⟨w, hw, rfl⟩)

theorem way?_of_stored {id : Int} {w v : Way} {b : Bucket} (h : (stored w b s).way? id = some v) :
    s.way? id = some v ∨ v = w := by
  have area (ws : Table Int Way) (found : ((s.areaWays.put w.id w).get? id <|> ws.get? id) = some v) :
      (s.areaWays.get? id <|> ws.get? id) = some v ∨ v = w := by
    rw [Table.get?_put] at found
    split at found
    · exact .inr (Option.some.inj found).symm
    · exact .inl found
  cases b with
  | member => exact area s.ways h
  | candidate => exact area s.ways h
  | plain =>
    change (s.areaWays.get? id <|> (s.ways.put w.id w).get? id) = some v at h
    rw [Table.get?_put] at h
    split at h
    · rw [way?]
      cases found : s.areaWays.get? id with
      | some u =>
        rw [found] at h
        exact .inl h
      | none =>
        rw [found] at h
        exact .inr (Option.some.inj h).symm
    · exact .inl h

variable [Limits]

structure Legible (s : Store) : Prop where
  text : OfText s
  candidates : ∀ w ∈ s.candidates, w.tags.AllText
  levelMaps : LevelMapsReadable s

theorem Legible.empty : Legible empty :=
  ⟨.empty, List.forall_mem_nil _, List.forall_mem_nil _⟩

structure Short (s : Store) : Prop where
  relations : NumbersFit s
  ways : RefsFit s
  candidates : ∀ w ∈ s.candidates, w.Fits

theorem Short.empty : Short empty :=
  ⟨List.forall_mem_nil _, nofun, List.forall_mem_nil _⟩

theorem Operation.IsReadable.isText (h : op.IsReadable c) : op.IsText := by
  cases op with
  | addWay w => exact h.1
  | addRelation r => exact h.1
  | _ => trivial

theorem hasLevels_of_readable {r : Relation} (text : r.tags.AllText) (readable : r.tags.LevelsReadable c) :
    HasLevels r := by
  rw [← levelsOf_ok text, levelsOf_of_text text, levelList]
  cases hv : r.tags.get? "levels" with
  | none => exact ⟨_, rfl⟩
  | some v =>
    obtain ⟨list, rfl⟩ := text.of_get? hv
    exact readable.levels list hv

theorem addWay_brings (w : Way) : Brings (.addWay w) s (addWay c w s).state := by
  by_cases closed : s.phase = .relationsProcessed
  · rw [addWay_of_closed closed]
    exact .of_same rfl rfl rfl rfl
  · obtain ⟨ls, as, -, hs | ⟨b, hs⟩⟩ := addWay_frame (c := c) closed w
    · rw [hs]
      exact .of_same rfl rfl rfl rfl
    · rw [hs]
      refine ⟨?_, ?_, fun id v hv => ?_⟩
      · cases b with
        | candidate =>
          intro v hv
          exact (List.mem_append.1 hv).imp_right fun new => by rw [List.mem_singleton.1 new]
        | _ => exact fun v hv => .inl hv
      · cases b <;> exact fun k hk => .inl hk
      · exact (way?_of_stored hv).imp (fun old => ⟨v, old, rfl⟩) fun new => by rw [new]

theorem addRelation_brings (r : Relation) : Brings (.addRelation r) s (addRelation c r s).state := by
  by_cases closed : s.phase = .relationsProcessed
  · rw [addRelation_of_closed closed]
    exact .of_same rfl rfl rfl rfl
  · obtain ⟨ids, ls, as, hs | ⟨kind, -, hs⟩⟩ := addRelation_frame (c := c) closed r
    · rw [hs]
      exact .of_same rfl rfl rfl rfl
    · rw [hs]
      refine ⟨fun w hw => .inl hw, fun k hk => ?_, fun id w hw => .inl ⟨w, hw, rfl⟩⟩
      exact (Table.mem_values_put hk).symm.imp_right fun new => by rw [new]

variable [Geometry]

theorem call_brings (single : op.IsCall) : Brings op s (apply c op s).state := by
  have same {t : Store} (h : SameElements s t) : Brings op s t :=
    .of_same h.candidates h.relations h.ways h.areaWays
  cases op with
  | load document => cases single
  | addWay w => exact addWay_brings w
  | addRelation r => exact addRelation_brings r
  | addNode n =>
    exact addNode_keeps (same (.refl s)) (.of_same rfl rfl rfl rfl) (.of_same rfl rfl rfl rfl)
  | linesComplete => exact linesComplete_keeps (same (.refl s)) (.of_same rfl rfl rfl rfl)
  | pointsComplete =>
    exact pointsComplete_keeps (same (.refl s)) (same resolveAreas_same) fun t ht => ⟨ht.1, ht.2, ht.3⟩
  | finish => exact finish_keeps (same (.refl s)) (same applyRelations_same) fun t ht => ⟨ht.1, ht.2, ht.3⟩

theorem Legible.call (h : Legible s) (single : op.IsCall) (readable : op.IsReadable c)
    (routes : c.HasTextRoutes) : Legible (apply c op s).state := by
  have brings := call_brings (c := c) (s := s) single
  refine ⟨h.text.call single readable.isText routes, fun w hw => ?_, fun k hk map => ?_⟩
  · obtain hw | rfl := brings.candidates w hw
    · exact h.candidates w hw
    · exact readable.1
  · obtain hk | rfl := brings.relations k hk
    · exact h.levelMaps k hk map
    · exact hasLevels_of_readable readable.1.1 readable.2

theorem Short.call (h : Short s) (single : op.IsCall) (fits : op.Fits) : Short (apply c op s).state := by
  have brings := call_brings (c := c) (s := s) single
  refine ⟨fun k hk => ?_, fun id w hw => ?_, fun w hw => ?_⟩
  · obtain hk | rfl := brings.relations k hk
    · exact h.relations k hk
    · exact fits
  · obtain ⟨v, hv, along⟩ | rfl := brings.ways id w hw
    · rw [← along]
      exact h.ways id v hv
    · exact fits.refs
  · obtain hw | rfl := brings.candidates w hw
    · exact h.candidates w hw
    · exact fits

def StopsCall (op : Operation) (p : Prop) (nodes : Table Int Node) (f : Failure) : Prop :=
  op = .pointsComplete ∧ NoVerdict nodes f ∨ LongUnless p f

theorem Legible.stops (h : Legible s) (valid : c.problems = []) (standard : c.classifier = some .standard)
    (routes : c.HasTextRoutes) (single : op.IsCall) (readable : op.IsReadable c) (passes : op.Passes s.phase) :
    (apply c op s).FailsBy (StopsCall op (Short s ∧ op.Fits) s.nodes) := by
  have long {p : Prop} {o : Outcome Store} (ho : o.FailsBy (LongUnless p)) (short : Short s ∧ op.Fits → p) :
      o.FailsBy (StopsCall op (Short s ∧ op.Fits) s.nodes) :=
    fun f failed => .inr ⟨(ho f failed).1, fun fits => (ho f failed).2 (short fits)⟩
  cases op with
  | load document => cases single
  | addNode n => exact .of_none (addNode_ok valid passes n)
  | addWay w => exact long (addWay_long valid standard passes readable.1 readable.2) fun fits => fits.2.id
  | addRelation r =>
    exact long (addRelation_long valid standard passes readable.1.1 readable.2) fun fits => fits.2.id
  | linesComplete => exact .of_none (congrArg Outcome.failure (linesComplete_eq passes))
  | pointsComplete =>
    have resolving := resolveAreas_halts standard h.text.relations h.candidates
    change (pointsComplete c s).FailsBy _
    rw [pointsComplete_of_open passes]
    refine .andThen (fun f failed => ?_) fun t => .of_none rfl
    refine (resolving f failed).imp (⟨rfl, ·⟩) fun ⟨told, long⟩ => ⟨told, fun fits => long ?_⟩
    exact ⟨fits.1.relations, fits.1.ways, fits.1.candidates⟩
  | finish => exact long (finish_long h.text routes passes h.levelMaps) fun fits => fits.1.relations

theorem Leads.legible {h : List Call} (hl : Leads c empty h s) (routes : c.HasTextRoutes)
    (readable : ∀ k ∈ h, k.op.IsReadable c) : Legible s :=
  hl.keeps_of_calls readable .empty fun _ single hop _ ht => ht.call single hop routes

theorem Leads.short {h : List Call} (hl : Leads c empty h s) (fits : ∀ k ∈ h, k.op.Fits) : Short s :=
  hl.keeps_of_calls fits .empty fun _ single hop _ ht => ht.call single hop

/-- With valid settings, the standard classifier and text for the routes, a call on readable data fails for
its phase, for want of a verdict of the geometry when areas are resolved, or because an id or a reference that
has come in by then is too long to be written, and for nothing else.  Every relation that is kept is of the
kind that its tags say, and a ring of ways goes before the geometry with four positions at least, or is
rejected unseen. -/
theorem readable_data_stops_nothing {name ref separator : String} (valid : c.problems = [])
    (standard : c.classifier = some .standard) (hname : c.routeNameTag = .text name)
    (href : c.routeRefTag = .text ref) (hseparator : c.routeSeparator = .text separator)
    {ops : List Operation} (readable : ∀ k ∈ history c ops empty, k.op.IsReadable c) :
    ∀ g k l, history c ops empty = g ++ k :: l →
      (¬ k.Accepted → ∃ e, apply c k.op k.found = Outcome.fail k.found (.phase e)) ∧
      (k.Accepted → ∀ f, (apply c k.op k.found).failure = some f →
        k.op = .pointsComplete ∧ NoVerdict k.found.nodes f ∨
        f = .number .tooLongToWrite ∧ ∃ j ∈ g ++ [k], ¬ j.op.Fits) ∧
      (∀ r ∈ k.found.relations.values, classify c r.relation.tags = .ok (some r.kind)) ∧
      ∀ ways rings, Ring.assemble ways = some rings → ∀ ids ∈ rings,
        (∃ missing, RingOfNodes.build k.found.nodes ids = .error (.unknownNodes missing)) ∨
        RingOfNodes.build k.found.nodes ids = .error (.tooFewNodes ids) ∨
        RingOfNodes.IsJudged k.found.nodes ids ∧
          ∀ r, RingOfNodes.build k.found.nodes ids = .ok r → 4 ≤ r.positions.length := by
  intro g k l split
  have routes := Settings.hasTextRoutes_of_valid valid hname href hseparator
  have leads := leads_history (c := c) (s := empty) ops
  rw [split] at leads readable
  rw [List.forall_mem_append, List.forall_mem_cons] at readable
  obtain ⟨before, single, -⟩ := leads.split
  refine ⟨apply_of_refused, fun accepted f failed => ?_, ?_, fun ways rings assembled ids hids => ?_⟩
  · have legible := before.legible routes readable.1
    refine (legible.stops valid standard routes single readable.2.1 accepted f failed).imp_right ?_
    rintro ⟨told, long⟩
    refine ⟨told, by_contra fun none => long ?_⟩
    simp only [not_exists, not_and, not_not] at none
    rw [List.forall_mem_append, List.forall_mem_singleton] at none
    exact ⟨before.short none.1, none.2⟩
  · have kinds := (before.keeps Bucketed.empty fun _ single _ ht => ht.call single).kinds
    intro r hr
    obtain ⟨row, hrow, rfl⟩ := List.mem_map.1 hr
    exact kinds row hrow
  · have closed := Ring.isClosed_of_assemble assembled ids hids
    refine (RingOfNodes.build_cases _ closed).imp_right (.imp_right fun judged => ⟨judged, fun r hr => ?_⟩)
    exact (RingOfNodes.sound_of_build closed hr).size

end Runs

section Examples

open Standard

def upstairs : List Operation :=
  [.addRelation storeys, .addWay rooftop, .linesComplete, .pointsComplete, .finish, .addWay rooftop]

theorem upstairs_loaded :
    let s := run .default (upstairs.take 4) empty
    (∀ k ∈ history .default upstairs empty, k.op.IsReadable .default ∧ k.op.Fits) ∧
      (finish .default s).failure = none ∧
      ∃ e, apply .default (.addWay rooftop) (finish .default s).state =
        Outcome.fail (finish .default s).state (.phase e) := by
  intro s
  have map : Operation.IsReadable .default (.addRelation storeys) := by
    refine ⟨by simp [Relation.IsText, Tags.AllText, storeys], ?_, ?_, ?_⟩
    · rintro v ⟨⟩
    · rintro v ⟨⟩
    · rintro list ⟨⟩
      exact ⟨_, rfl⟩
  have way : Operation.IsReadable .default (.addWay rooftop) := by
    refine ⟨by simp [Tags.AllText, rooftop], ?_, ?_, ?_⟩
    · rintro v ⟨⟩
      exact ⟨_, rfl⟩
    · rintro v ⟨⟩
    · rintro list ⟨⟩
  have mapFits : storeys.Fits := ⟨rfl, List.forall_mem_nil _⟩
  have wayFits : rooftop.Fits := ⟨rfl, by decide⟩
  have single : ∀ op ∈ upstairs, op.IsCall := by simp [upstairs, Operation.IsCall]
  have history : ∀ k ∈ history .default upstairs empty, k.op.IsReadable .default ∧ k.op.Fits := by
    have ops : ∀ op ∈ upstairs, op.IsReadable .default ∧ op.Fits := by
      simpa [upstairs, Operation.IsReadable, Operation.Fits] using ⟨⟨map, mapFits⟩, way, wayFits⟩
    exact fun k hk => ops k.op (mem_of_mem_history single hk)
  have facts := readable_data_stops_nothing (c := .default) rfl rfl rfl rfl rfl fun k hk => (history k hk).1
  have ending := facts (Store.history .default (upstairs.take 4) empty) ⟨.finish, s⟩
    [⟨.addWay rooftop, (finish .default s).state⟩] rfl
  have late := facts (Store.history .default (upstairs.take 5) empty)
    ⟨.addWay rooftop, (finish .default s).state⟩ [] rfl
  refine ⟨history, ?_, late.1 ?_⟩
  · cases failure : (finish .default s).failure with
    | none => rfl
    | some f =>
      obtain ⟨early, -⟩ | ⟨-, k, hk, long⟩ := ending.2.1 rfl f failure
      · cases early
      · have brought : k ∈ Store.history .default upstairs empty := List.mem_append_left [_] hk
        exact absurd (history k brought).2 long
  · exact fun accepted => accepted rfl

def endlessId : Int := Nat.pow 10 4300

def endless : Relation :=
  ⟨endlessId, [], [("type", .text "restriction"), ("restriction", .text "no_left_turn")]⟩

def aroundEndless : List Operation := [.addRelation endless, .linesComplete, .pointsComplete]

theorem endless_stops_finish :
    let s := run .default aroundEndless empty
    (∀ k ∈ history .default (aroundEndless ++ [.finish]) empty, k.op.IsReadable .default) ∧
      s.phase = .areasResolved ∧ (finish .default s).failure = some (.number .tooLongToWrite) := by
  intro s
  have single : ∀ op ∈ aroundEndless ++ [.finish], op.IsCall := by simp [aroundEndless, Operation.IsCall]
  have sign : Operation.IsReadable .default (.addRelation endless) := by
    refine ⟨by simp [Relation.IsText, Tags.AllText, endless], ?_, ?_, ?_⟩ <;> rintro v ⟨⟩
  have readable : ∀ op ∈ aroundEndless ++ [.finish], op.IsReadable .default := by
    simpa [aroundEndless, Operation.IsReadable] using sign
  have routes : Settings.HasTextRoutes .default := ⟨_, _, _, rfl, rfl, rfl, by decide⟩
  have legible : Legible s := by
    refine (leads_history aroundEndless).legible routes fun k hk => readable k.op (List.mem_append_left _ ?_)
    exact mem_of_mem_history (fun op hop => single op (List.mem_append_left _ hop)) hk
  have fails : (finish .default s).failure.isSome = true := by decide +kernel
  obtain ⟨f, failed⟩ := Option.isSome_iff_exists.1 fails
  obtain ⟨rfl, -⟩ := finish_long legible.text routes rfl legible.levelMaps f failed
  exact ⟨fun k hk => readable k.op (mem_of_mem_history single hk), rfl, failed⟩

end Examples

end Store

end StreetMap
