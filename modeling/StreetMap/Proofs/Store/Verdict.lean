import StreetMap.Proofs.Store.Harvest

/-!
What elements are worth.  The verdict on an element says what the first step that deals with it yields; it
looks at the element, and at what the steps of earlier phases have left.
-/

namespace StreetMap.Store

variable {c : Settings} {s t : Store}

def counted (interval : Json) : Except Failure Unit := (Settings.isMultiple 0 interval).map fun _ => ()

theorem isMultiple_map (n : Nat) (interval : Json) :
    (Settings.isMultiple n interval).map (fun _ => ()) = counted interval := by
  cases interval with
  | int m =>
    by_cases hm : m = 0
    · simp only [counted, Settings.isMultiple, if_pos hm]
    · simp only [counted, Settings.isMultiple, if_neg hm, Except.map]
  | bool b => cases b <;> rfl
  | float x =>
    simp only [counted, Settings.isMultiple]
    cases latticeValue? x with
    | none => rfl
    | some m =>
      by_cases hm : m = 0
      · simp only [if_pos hm]
      · simp only [if_neg hm, Except.map]
  | null => rfl
  | text v => rfl
  | list vs => rfl
  | object ms => rfl

theorem progress_yields (interval : Json) (label : String) (n : Nat) (h : Harvest) :
    Yields (progress interval label n (s.add h)) s ((counted interval).map fun _ => h) := by
  rw [← isMultiple_map n, progress]
  cases Settings.isMultiple n interval with
  | error e => exact .failed rfl
  | ok hit => cases hit <;> exact ⟨rfl, rfl⟩

theorem reopened_eq (h : s.phase = .ingesting) : s.reopened = s := by
  obtain ⟨phase⟩ := s
  cases h
  rfl

def putVerdict (c : Settings) (r : Relation) (kind : RelationKind) : Except Failure Harvest :=
  (counted c.relationInterval).map fun _ => { relations := [(r.id, ⟨r, kind⟩)] }

theorem putRelation_yields {r : Relation} (new : s.relations.has r.id = false) (kind : RelationKind) :
    Yields (putRelation c r kind s) s (putVerdict c r kind) := by
  have hs : { s with relations := s.relations.put r.id ⟨r, kind⟩ } =
      s.add { relations := [(r.id, ⟨r, kind⟩)] } := by
    rw [Table.put_of_new new]
    simp [add, addBounds, insertAll]
  rw [putRelation, hs]
  exact progress_yields _ _ _ _

theorem markMembers_eq (r : Relation) :
    markMembers r s = s.add { areaWayIds := r.wayMembers.map Member.ref } := by
  simp [markMembers, add, addBounds, insertAll]

def boundsOf (w : Way) : List (Int × Int) := w.nodeRefs.map fun n => (n, w.id)

def bucketVerdict (c : Settings) (w : Way) : Bucket → Except Failure Harvest
  | .member => .ok { areaWays := [(w.id, w)] }
  | .candidate =>
    .ok { candidates := [w], areaWays := [(w.id, w)], areaWayIds := [w.id], bounds := boundsOf w }
  | .plain => (counted c.wayInterval).map fun _ => { ways := [(w.id, w)] }

def keepVerdict (c : Settings) (marked : Bool) (w : Way) : Except Failure Harvest :=
  (bucketOf c marked w).bind fun
    | none => .ok {}
    | some b => bucketVerdict c w b

theorem addBound_eq (w : Way) : bound w s = s.add { bounds := boundsOf w } := by
  simp [bound, add, addBounds, boundsOf, insertAll, List.foldl_map]

theorem putInto_yields {w : Way} (newWay : s.ways.has w.id = false)
    (newArea : s.areaWays.has w.id = false) (b : Bucket) :
    Yields (putInto c w b s) s (bucketVerdict c w b) := by
  cases b with
  | member =>
    refine ⟨rfl, ?_⟩
    change { s with areaWays := s.areaWays.put w.id w } = _
    rw [Table.put_of_new newArea]
    simp [add, addBounds, insertAll]
  | candidate =>
    refine ⟨rfl, ?_⟩
    change bound w { s with
      candidates := s.candidates ++ [w]
      areaWays := s.areaWays.put w.id w
      areaWayIds := insertNew s.areaWayIds w.id } = _
    rw [addBound_eq, Table.put_of_new newArea]
    simp [add, insertAll]
  | plain =>
    have hs : { s with ways := s.ways.put w.id w } = s.add { ways := [(w.id, w)] } := by
      rw [Table.put_of_new newWay]
      simp [add, addBounds, insertAll]
    change Yields (progress _ _ _ { s with ways := s.ways.put w.id w }) s _
    rw [hs]
    exact progress_yields _ _ _ _

theorem keepWay_yields {w : Way} (newWay : s.ways.has w.id = false)
    (newArea : s.areaWays.has w.id = false) :
    Yields (keepWay c w s) s (keepVerdict c (w.id ∈ s.areaWayIds) w) := by
  rw [keepWay_eq, keepVerdict]
  cases bucketOf c (w.id ∈ s.areaWayIds) w with
  | error e => exact .failed rfl
  | ok b =>
    cases b with
    | none => exact .done s
    | some b => exact putInto_yields newWay newArea b

section Nodes

def nodeVerdict (c : Settings) (wanted : Bool) (n : Node) : Except Failure Harvest :=
  if n.tags.isBikeRental then .ok { bikeRentals := [(n.id, n)] }
  else if wanted then (counted c.nodeInterval).map fun _ => { nodes := [(n.id, n)] }
  else .ok {}

structure NodeReady (wanted : Bool) (n : Node) (s : Store) : Prop where
  phase : s.phase ≠ .relationsProcessed
  nodes : s.nodes.has n.id = false
  bikeRentals : s.bikeRentals.has n.id = false
  wanted : s.wants n = wanted

theorem addNode_yields {wanted : Bool} {n : Node} (ready : NodeReady wanted n s) :
    Yields (addNode c n s) s (nodeVerdict c wanted n) := by
  rw [addNode_eq ready.phase, nodeVerdict]
  by_cases rental : n.tags.isBikeRental = true
  · rw [if_pos rental, if_pos rental]
    refine ⟨rfl, ?_⟩
    rw [Outcome.done_state, Table.put_of_new ready.bikeRentals]
    simp [add, addBounds, insertAll]
  · rw [if_neg rental, if_neg rental, ready.wanted, ready.nodes]
    cases wanted with
    | false => exact .done s
    | true =>
      have hs : { s with nodes := s.nodes.put n.id n } = s.add { nodes := [(n.id, n)] } := by
        rw [Table.put_of_new ready.nodes]
        simp [add, addBounds, insertAll]
      rw [hs]
      exact progress_yields _ _ _ _

theorem nodeVerdict_ok {wanted : Bool} {n : Node} {h : Harvest} (hv : nodeVerdict c wanted n = .ok h) :
    h = {} ∨ h = { bikeRentals := [(n.id, n)] } ∨ h = { nodes := [(n.id, n)] } := by
  rw [nodeVerdict] at hv
  split at hv
  · cases hv
    exact .inr (.inl rfl)
  · split at hv
    · obtain ⟨-, -, rfl⟩ := map_eq_ok.1 hv
      exact .inr (.inr rfl)
    · cases hv
      exact .inl rfl

theorem NodeReady.stay {wanted wanted' : Bool} {n n' : Node} {h : Harvest} (hid : n.id ≠ n'.id)
    (hv : nodeVerdict c wanted n = .ok h) (ready : NodeReady wanted' n' s) :
    NodeReady wanted' n' (s.add h) := by
  have hw := ready.wanted
  rw [wants] at hw
  obtain rfl | rfl | rfl := nodeVerdict_ok hv <;>
    constructor <;>
    simp [add, Table.has_append, wants, ready.phase, ready.nodes, ready.bikeRentals, hid, hw]

end Nodes

variable [Limits]

def levelVerdict (c : Settings) (k : Key) (t : Tags) : Except Failure Harvest :=
  (levelOf c.raisesFloors k t).result.map fun l =>
    { levels := [(k, l)], anomalies := (levelOf c.raisesFloors k t).findings }

theorem levelVerdict_ok {k : Key} {t : Tags} {h : Harvest} (hv : levelVerdict c k t = .ok h) :
    ∃ l as, h = { levels := [(k, l)], anomalies := as } := by
  obtain ⟨l, -, rfl⟩ := map_eq_ok.1 hv
  exact ⟨l, _, rfl⟩

theorem resolveLevel_yields {k : Key} (new : s.levels.has k = false) (t : Tags) :
    Yields (resolveLevel c k t s) s (levelVerdict c k t) := by
  rw [resolveLevel, if_neg (by simp [new]), levelVerdict, absorb]
  cases (levelOf c.raisesFloors k t).result with
  | error e => exact .failed rfl
  | ok l =>
    refine ⟨rfl, ?_⟩
    change { s.record _ with levels := s.levels.put k l } = _
    rw [Table.put_of_new new]
    simp [add, addBounds, insertAll, record, Logged.findings]

section Relations

def takeInVerdict (c : Settings) (r : Relation) (kind : RelationKind) : Except Failure Harvest :=
  if kind = .multipolygon then
    ((levelVerdict c r.key r.tags).map
      (Harvest.append { areaWayIds := r.wayMembers.map Member.ref })).bind fun h =>
        (putVerdict c r kind).map h.append
  else putVerdict c r kind

def relationVerdict (c : Settings) (r : Relation) : Except Failure Harvest :=
  (admission c r.tags).bind fun
    | none => .ok {}
    | some kind => takeInVerdict c r kind

structure RelationReady (r : Relation) (s : Store) : Prop where
  phase : s.phase = .ingesting
  relations : s.relations.has r.id = false
  levels : s.levels.has r.key = false

theorem takeIn_yields {r : Relation} (ready : RelationReady r s) (kind : RelationKind) :
    Yields (takeIn c r kind s) s (takeInVerdict c r kind) := by
  rw [takeIn, takeInVerdict]
  split
  · change Yields (((Outcome.done (markMembers r s)).andThen (resolveLevel c r.key r.tags)).andThen _) s _
    refine Yields.andThen (v := (levelVerdict c r.key r.tags).map
      (Harvest.append { areaWayIds := r.wayMembers.map Member.ref })) ?_ ?_
    · refine Yields.andThen (v := .ok { areaWayIds := r.wayMembers.map Member.ref })
        (w := fun _ => levelVerdict c r.key r.tags) ⟨rfl, markMembers_eq r⟩ ?_
      intro h hh
      cases hh
      exact resolveLevel_yields (by simpa [add] using ready.levels) r.tags
    · intro h hh
      refine putRelation_yields ?_ kind
      obtain ⟨g, hl, rfl⟩ := map_eq_ok.1 hh
      obtain ⟨l, as, rfl⟩ := levelVerdict_ok hl
      simpa [add, Harvest.append] using ready.relations
  · exact putRelation_yields ready.relations kind

theorem addRelation_yields {r : Relation} (ready : RelationReady r s) :
    Yields (addRelation c r s) s (relationVerdict c r) := by
  rw [addRelation_eq (by rw [ready.phase]; decide), reopened_eq ready.phase,
    if_neg (by simp [ready.relations]), relationVerdict]
  cases admission c r.tags with
  | error e => exact .failed rfl
  | ok kind =>
    cases kind with
    | none => exact .done s
    | some kind => exact takeIn_yields ready kind

theorem relationVerdict_ok {r : Relation} {h : Harvest} (hv : relationVerdict c r = .ok h) :
    h = {} ∨ ∃ kind ids ls as,
      h = { relations := [(r.id, ⟨r, kind⟩)], areaWayIds := ids, levels := ls, anomalies := as } ∧
        (kind = .multipolygon → ids = r.wayMembers.map Member.ref) ∧ ∀ row ∈ ls, row.1 = r.key := by
  obtain ⟨kind, -, hv⟩ := bind_eq_ok.1 hv
  cases kind with
  | none => cases hv; exact .inl rfl
  | some kind =>
    refine .inr ⟨kind, ?_⟩
    change takeInVerdict c r kind = .ok h at hv
    rw [takeInVerdict] at hv
    split at hv
    · obtain ⟨_, hm, hv⟩ := bind_eq_ok.1 hv
      obtain ⟨_, hl, rfl⟩ := map_eq_ok.1 hm
      obtain ⟨_, hp, rfl⟩ := map_eq_ok.1 hv
      obtain ⟨level, as, rfl⟩ := levelVerdict_ok hl
      obtain ⟨-, -, rfl⟩ := map_eq_ok.1 hp
      refine ⟨r.wayMembers.map Member.ref, [(r.key, level)], as, ?_, fun _ => rfl, ?_⟩
      · simp [Harvest.append]
      · simp
    · rename_i hkind
      obtain ⟨-, -, rfl⟩ := map_eq_ok.1 hv
      exact ⟨[], [], [], rfl, fun h => absurd h hkind, List.forall_mem_nil _⟩

theorem RelationReady.stay {r r' : Relation} {h : Harvest} (hid : r.id ≠ r'.id)
    (hv : relationVerdict c r = .ok h) (ready : RelationReady r' s) : RelationReady r' (s.add h) := by
  cases relationVerdict_ok hv with
  | inl hh => rw [hh, add_nothing]; exact ready
  | inr hh =>
    obtain ⟨kind, ids, ls, as, rfl, -, hls⟩ := hh
    have hl : Table.has ls r'.key = false := by
      rw [← Bool.not_eq_true, Table.has_iff_mem_keys]
      intro hmem
      obtain ⟨row, hrow, hkey⟩ := List.mem_map.1 hmem
      exact hid (congrArg Key.id ((hls row hrow).symm.trans hkey))
    refine ⟨ready.phase, ?_, ?_⟩
    · simp [add, Table.has_append, ready.relations, hid]
    · simp [add, Table.has_append, ready.levels, hl]

end Relations

section Ways

def wayVerdict (c : Settings) (marked : Bool) (w : Way) : Except Failure Harvest :=
  (levelVerdict c w.key w.tags).bind fun h => (keepVerdict c marked w).map h.append

structure WayReady (marked : Bool) (w : Way) (s : Store) : Prop where
  phase : s.phase = .ingesting
  ways : s.ways.has w.id = false
  areaWays : s.areaWays.has w.id = false
  levels : s.levels.has w.key = false
  marked : decide (w.id ∈ s.areaWayIds) = marked

theorem addWay_yields {marked : Bool} {w : Way} (ready : WayReady marked w s) :
    Yields (addWay c w s) s (wayVerdict c marked w) := by
  rw [addWay_eq (by rw [ready.phase]; decide), reopened_eq ready.phase,
    if_neg (by simp [ready.ways, ready.areaWays])]
  refine (resolveLevel_yields ready.levels w.tags).andThen (w := fun _ => keepVerdict c marked w) ?_
  intro h hh
  obtain ⟨l, as, rfl⟩ := levelVerdict_ok hh
  have hm : decide (w.id ∈ (s.add { levels := [(w.key, l)], anomalies := as }).areaWayIds) = marked := by
    rw [← ready.marked]
    rfl
  rw [← hm]
  apply keepWay_yields
  · simpa [add] using ready.ways
  · simpa [add] using ready.areaWays

theorem wayVerdict_ok {marked : Bool} {w : Way} {h : Harvest} (hv : wayVerdict c marked w = .ok h) :
    ∃ l as, h = { levels := [(w.key, l)], anomalies := as } ∨
      h = { areaWays := [(w.id, w)], levels := [(w.key, l)], anomalies := as } ∨
      h = { candidates := [w], areaWays := [(w.id, w)], areaWayIds := [w.id], bounds := boundsOf w,
            levels := [(w.key, l)], anomalies := as } ∨
      marked = false ∧ h = { ways := [(w.id, w)], levels := [(w.key, l)], anomalies := as } := by
  obtain ⟨_, hl, hv⟩ := bind_eq_ok.1 hv
  obtain ⟨g, hk, rfl⟩ := map_eq_ok.1 hv
  obtain ⟨l, as, rfl⟩ := levelVerdict_ok hl
  refine ⟨l, as, ?_⟩
  obtain ⟨b, hb, hg⟩ := bind_eq_ok.1 hk
  match b with
  | none => cases hg; exact .inl (by simp [Harvest.append])
  | some .member => cases hg; exact .inr (.inl (by simp [Harvest.append]))
  | some .candidate => cases hg; exact .inr (.inr (.inl (by simp [Harvest.append])))
  | some .plain =>
    obtain ⟨_, -, rfl⟩ := map_eq_ok.1 hg
    refine .inr (.inr (.inr ⟨?_, by simp [Harvest.append]⟩))
    cases marked with
    | false => rfl
    | true => cases hb

theorem WayReady.stay {marked marked' : Bool} {w w' : Way} {h : Harvest} (hid : w.id ≠ w'.id)
    (hv : wayVerdict c marked w = .ok h) (ready : WayReady marked' w' s) :
    WayReady marked' w' (s.add h) := by
  have hkey : w.key ≠ w'.key := fun e => hid (congrArg Key.id e)
  have hid' : ¬ w'.id = w.id := fun e => hid e.symm
  have hm := ready.marked
  obtain ⟨l, as, rfl | rfl | rfl | ⟨-, rfl⟩⟩ := wayVerdict_ok hv <;>
    constructor <;>
    simp [add, Table.has_append, insertAll, ready.phase, ready.ways, ready.areaWays, ready.levels, hid,
      hid', hkey, hm]

end Ways

end StreetMap.Store
