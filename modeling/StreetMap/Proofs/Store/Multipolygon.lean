import StreetMap.Proofs.Store.Preservation

/-!
A multipolygon is resolved as a whole or not at all.  If its boundary makes an area, this is placed, its ways
bound it at all their nodes, and plain ways among its members take the tags that they lack.  If not, the try
leaves a mark and the unknown roles that it has met.
-/

namespace StreetMap.Store

variable {c : Settings} {s t : Store} {r : Relation} {a : Area}

def Completed (source t u : Tags) : Prop :=
  ∀ key v, u.get? key = some v ↔ t.get? key = some v ∨ t.get? key = none ∧ Carries source key v

/-- What a try at a multipolygon leaves once its boundary has made an area. -/
structure ResolvedAs (c : Settings) (s : Store) (r : Relation) (a : Area) (t : Store) : Prop where
  rest : t = { s with
    processed := insertNew s.processed r.key
    anomalies := t.anomalies
    boundsAt := t.boundsAt
    areas := t.areas
    ways := t.ways }
  findings : t.anomalies = s.anomalies ++ (r.wayMembers.filter fun m => !m.isBoundary).map (roleFinding r)
  bounds : ∀ node way, way ∈ waysAt t.boundsAt node ↔ way ∈ waysAt s.boundsAt node ∨ BoundBy s r node way
  placed : ∃ p : PlacedArea, p.area = a ∧ UsedAsTagged c p ∧
    t.areas = s.areas ++ if p.walkable || p.parkAndRide then [p] else []
  keys : t.ways.keys = s.ways.keys
  members : ∀ id w, s.ways.get? id = some w → (∃ m ∈ r.wayMembers, m.ref = id) →
    ∃ tags, t.ways.get? id = some { w with tags } ∧ Completed r.tags w.tags tags
  others : ∀ id, (∀ m ∈ r.wayMembers, m.ref ≠ id) → t.ways.get? id = s.ways.get? id

theorem completed_iff {source t u : Tags} :
    Completed source t u ↔ ∀ key, u.get? key = (t.get? key).or (carriedAt source key) := by
  refine forall_congr' fun key => (forall_congr' fun v => ?_).trans Option.ext_iff.symm
  rw [Option.or_eq_some_iff, carriedAt_eq_some]

theorem Completed.again {source t u v : Tags} (h : Completed source t u) (h' : Completed source u v) :
    Completed source t v := by
  rw [completed_iff] at *
  intro key
  rw [h', h, Option.or_assoc, Option.or_self]

theorem copyTags_completed (source t : Tags) : Completed source t (copyTags source t) :=
  completed_iff.2 (get?_copyTags source t)

theorem get?_retag_self {id : Int} {w : Way} (hw : s.ways.get? id = some w) (f : Tags → Tags) :
    (retag id f s).ways.get? id = some { w with tags := f w.tags } := by
  rw [retag, hw]
  exact Table.get?_put_self _ _ _

theorem get?_retag_of_ne {id other : Int} (hne : id ≠ other) (f : Tags → Tags) :
    (retag other f s).ways.get? id = s.ways.get? id := by
  rw [retag]
  split
  · rfl
  · exact Table.get?_put_of_ne _ _ hne

theorem get?_foldl_retag_of_ne {ms : List Member} {id : Int} (hne : ∀ m ∈ ms, m.ref ≠ id) (f : Tags → Tags)
    (s : Store) : (ms.foldl (fun s m => retag m.ref f s) s).ways.get? id = s.ways.get? id := by
  induction ms generalizing s with
  | nil => rfl
  | cons m ms ih =>
    rw [List.forall_mem_cons] at hne
    rw [List.foldl_cons, ih hne.2, get?_retag_of_ne (Ne.symm hne.1)]

theorem get?_foldl_retag {ms : List Member} {id : Int} {w : Way} (source : Tags)
    (hw : s.ways.get? id = some w) (hm : ∃ m ∈ ms, m.ref = id) :
    ∃ tags, (ms.foldl (fun s m => retag m.ref (copyTags source) s) s).ways.get? id = some { w with tags } ∧
      Completed source w.tags tags := by
  induction ms generalizing s w with
  | nil => exact absurd hm (by simp)
  | cons m ms ih =>
    rw [List.foldl_cons]
    by_cases here : m.ref = id
    · have retagged := get?_retag_self hw (copyTags source)
      rw [here]
      by_cases again : ∃ m ∈ ms, m.ref = id
      · obtain ⟨tags, ht, completed⟩ := ih retagged again
        exact ⟨tags, ht, (copyTags_completed source w.tags).again completed⟩
      · rw [get?_foldl_retag_of_ne (by simpa using again)]
        exact ⟨_, retagged, copyTags_completed source w.tags⟩
    · exact ih ((get?_retag_of_ne (Ne.symm here) _).trans hw) (by simpa [here] using hm)

theorem keys_copyToMembers (r : Relation) (s : Store) : (copyToMembers r s).ways.keys = s.ways.keys := by
  apply keys_of_outline
  refine List.foldlRecOn (motive := fun t : Store => outline t.ways = outline s.ways) r.wayMembers _ rfl ?_
  exact fun t ht m _ => (outline_retag m.ref _).trans ht

section Trying

variable [Limits] [Geometry]

/-- Why a try that comes to nothing stops the load: an unknown role is too long to be written, or the rings of
the boundary stop the build. -/
inductive Unable (s : Store) (r : Relation) (f : Failure) : Prop
  | role (long : ¬ RolesFit s r r.wayMembers) (told : f = .number .tooLongToWrite)
  | rings (boundary : HasBoundary s r.wayMembers) (fit : RolesFit s r r.wayMembers) {e : AreaError}
      (unbuilt : areaOf s r = .error e) (stops : Stops r.key e f)

theorem resolveMultipolygon_failure_eq_none (boundary : HasBoundary s r.wayMembers)
    (fit : RolesFit s r r.wayMembers) (built : areaOf s r = .ok a) :
    (resolveMultipolygon c r s).failure = none ↔ c.Classifies r.tags := by
  have parent : a.parent = ⟨r.key, r.tags⟩ := (Area.sound_of_build built).1
  rw [(resolveMultipolygon_of_area boundary fit built).2, Outcome.andThen_failure_eq_none,
    place_failure_eq_none, parent]
  exact and_iff_left rfl

theorem resolveMultipolygon_resolved (boundary : HasBoundary s r.wayMembers) (fit : RolesFit s r r.wayMembers)
    (built : areaOf s r = .ok a) (classified : c.Classifies r.tags) :
    ResolvedAs c s r a (resolveMultipolygon c r s).state := by
  have parent : a.parent = ⟨r.key, r.tags⟩ := (Area.sound_of_build built).1
  obtain ⟨placed, p, hp, uses, hs⟩ := place_ends (c := c) (s := enclosed s r) (a := a)
    (by rw [parent]; exact classified)
  rw [(resolveMultipolygon_of_area boundary fit built).1, Outcome.andThen_state placed, hs, Outcome.done_state]
  obtain ⟨ws, hws⟩ := copyToMembers_frame (s := { enclosed s r with
    areas := (enclosed s r).areas ++ if p.walkable || p.parkAndRide then [p] else [] }) r
  have found : roleFindings s r r.wayMembers =
      (r.wayMembers.filter fun m => !m.isBoundary).map (roleFinding r) := by
    rw [roleFindings_of_fit fit, unknownRoles_of_boundary boundary]
  exact
    { rest := by rw [hws]; rfl
      findings := by rw [hws]; exact congrArg (s.anomalies ++ ·) found
      bounds := by
        intro node way
        rw [hws, ← mem_boundaryBounds]
        exact mem_waysAt_addBounds _ _ _ _
      placed := ⟨p, hp, uses, by rw [hws]; rfl⟩
      keys := keys_copyToMembers r _
      members := fun id w hw hm => get?_foldl_retag r.tags hw hm
      others := fun id hne => get?_foldl_retag_of_ne hne _ _ }

theorem resolveMultipolygon_abandoned (unbuilt : ¬ Constructs s r) :
    (resolveMultipolygon c r s).state = abandoned s r ∧
      ∀ f, (resolveMultipolygon c r s).failure = some f ↔ Unable s r f := by
  by_cases fit : RolesFit s r r.wayMembers
  · by_cases boundary : HasBoundary s r.wayMembers
    · cases built : areaOf s r with
      | ok a => exact absurd ⟨boundary, fit, a, built⟩ unbuilt
      | error e =>
        obtain ⟨state, failure⟩ := resolveMultipolygon_of_error (c := c) boundary fit built
        refine ⟨state, fun f => (failure f).trans ⟨fun stops => .rings boundary fit built stops, ?_⟩⟩
        rintro (⟨long, -⟩ | ⟨-, -, built', stops⟩)
        · exact absurd fit long
        · cases built.symm.trans built'
          exact stops
    · obtain ⟨state, failure⟩ := resolveMultipolygon_of_missing (c := c) boundary fit
      rw [failure]
      refine ⟨state, fun f => iff_of_false nofun ?_⟩
      rintro (⟨long, -⟩ | ⟨found, -⟩)
      · exact long fit
      · exact boundary found
  · obtain ⟨state, failure⟩ := resolveMultipolygon_of_long (c := c) fit
    rw [failure]
    refine ⟨state, fun f => ⟨fun told => .role fit (Option.some.inj told).symm, ?_⟩⟩
    rintro (⟨-, rfl⟩ | ⟨-, found, -⟩)
    · rfl
    · exact absurd found fit

/-- A multipolygon that has not been tried is marked, and it is resolved as a whole if its boundary makes an
area that can be classified.  If it makes none, or an unknown role cannot be written, the try leaves only the
unknown roles up to there or up to the first part of the boundary that is missing. -/
theorem resolved_or_abandoned (c : Settings) (s : Store) (k : KeptRelation) (kind : k.kind = .multipolygon)
    (new : k.relation.key ∉ s.processed) :
    let r := k.relation
    let o := tryMultipolygon c k s
    (∀ a, HasBoundary s r.wayMembers → RolesFit s r r.wayMembers → areaOf s r = .ok a →
      (o.failure = none ↔ c.Classifies r.tags) ∧ (c.Classifies r.tags → ResolvedAs c s r a o.state)) ∧
    (¬ Constructs s r →
      o.state = { s with
        processed := insertNew s.processed r.key
        anomalies := s.anomalies ++ roleFindings s r r.wayMembers } ∧
      ∀ f, o.failure = some f ↔ Unable s r f) ∧
    (c.classifier = some .standard → r.tags.AllText → c.Classifies r.tags) := by
  intro r o
  have tried : o = resolveMultipolygon c r s := by
    rcases tryMultipolygon_cases c k s with ⟨-, ho⟩ | ⟨skipped, -⟩
    · exact ho
    · exact absurd ⟨kind, new⟩ skipped
  rw [tried]
  refine ⟨fun a boundary fit built => ?_, resolveMultipolygon_abandoned,
    fun standard text => Settings.classifies_of_standard standard text⟩
  exact ⟨resolveMultipolygon_failure_eq_none boundary fit built,
    resolveMultipolygon_resolved boundary fit built⟩

end Trying

section Examples

open Standard

def market : Relation :=
  ⟨20, [⟨.text "way", 12, .text "path"⟩, ⟨.text "way", 10, .text "outer"⟩, ⟨.text "way", 11, .text "outer"⟩],
    [("type", .text "multipolygon"), ("highway", .text "pedestrian"), ("name", .text "Market")]⟩

def aroundMarket : List Operation :=
  [.addWay ⟨12, [1, 2], [("highway", .text "footway")]⟩, .addRelation market, .addWay ⟨10, [1, 2, 3], []⟩,
    .addWay ⟨11, [3, 1], []⟩, .linesComplete, atCorner 1 0 0, atCorner 2 1 0]

theorem market_resolved_or_abandoned :
    let k : KeptRelation := ⟨market, .multipolygon⟩
    let s := run .default aroundMarket empty
    let t := run .default (aroundMarket ++ [atCorner 3 0 1]) empty
    ((tryMultipolygon .default k s).state.areas.length = 0 ∧
      (tryMultipolygon .default k s).state.anomalies = [roleFinding market ⟨.text "way", 12, .text "path"⟩]) ∧
    (tryMultipolygon .default k t).failure = none ∧
      (∃ a, ResolvedAs .default t market a (tryMultipolygon .default k t).state) ∧
      ((tryMultipolygon .default k t).state.ways.get? 12).any fun w =>
        w.tags.is "highway" "footway" && w.tags.is "name" "Market" := by
  intro k s t
  constructor
  · have missing : ¬ HasBoundary s market.wayMembers := by
      rw [hasBoundary_iff]
      decide +kernel
    have left := (resolved_or_abandoned .default s k rfl (by decide +kernel)).2.1 fun h => missing h.1
    rw [left.1]
    decide +kernel
  · have boundary : HasBoundary t market.wayMembers := by
      rw [hasBoundary_iff]
      decide +kernel
    have fit : RolesFit t market market.wayMembers := by
      rw [RolesFit]
      decide +kernel
    have homes : (areaOf t market).map Area.homes = .ok [] := by decide +kernel
    obtain ⟨a, built, -⟩ := map_eq_ok.1 homes
    obtain ⟨resolved, -, classifies⟩ := resolved_or_abandoned .default t k rfl (by decide +kernel)
    obtain ⟨stops, whole⟩ := resolved a boundary fit built
    have classified := classifies rfl (by simp [Tags.AllText, k, market])
    exact ⟨stops.2 classified, ⟨a, whole classified⟩, by decide +kernel⟩

def parkedMarket : Relation :=
  ⟨21, [⟨.text "way", 10, .text "outer"⟩],
    [("type", .text "multipolygon"), ("highway", .text "pedestrian"), ("name", .text "Market"),
      ("amenity", .text "parking"), ("park_ride", .int 5)]⟩

def aroundParkedMarket : List Operation :=
  [.addWay ⟨10, [1, 2, 3, 1], [("highway", .text "footway")]⟩, .addRelation parkedMarket, .linesComplete,
    atCorner 1 0 0, atCorner 2 1 0, atCorner 3 0 1]

theorem parkedMarket_half_resolved :
    let k : KeptRelation := ⟨parkedMarket, .multipolygon⟩
    let s := run .default aroundParkedMarket empty
    let o := tryMultipolygon .default k s
    s.relations.values = [k] ∧ k.relation.key ∉ s.processed ∧ s.areas.length = 0 ∧
      o.failure.isSome ∧ o.state.isProcessed k.relation.key ∧
      o.state.walkableAreas.map (fun a => a.parent.key) = [k.relation.key] ∧
      waysAt o.state.boundsAt 1 = [10] ∧
      (o.state.ways.get? 10).map (fun w => w.tags.has "name") = some false := by
  intro k s o
  exact ⟨rfl, by decide +kernel⟩

end Examples

end StreetMap.Store
