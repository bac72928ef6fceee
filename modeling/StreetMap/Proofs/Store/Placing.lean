import StreetMap.Proofs.Area
import StreetMap.Proofs.Store.Keyed
import StreetMap.Proofs.Store.Overlap
import StreetMap.Proofs.Tags
import StreetMap.Standard

/-!
Areas in the store.  Each parent has one at most, which stands in the nodes that are kept and is there for
the uses that the tags of its parent give it.
-/

namespace StreetMap.Store

variable {c : Settings} {s t : Store} {op : Operation}

/-- The tags of a way or relation that may have an area, as they are. -/
def parentTags? (s : Store) : Key → Option Tags
  | ⟨.way, id⟩ => (s.areaWays.get? id).map Way.tags
  | ⟨.relation, id⟩ => (s.relations.get? id).map fun k => k.relation.tags
  | ⟨.node, _⟩ => none

/-- Tags of an area that can be walked or cycled on. -/
def IsWalkable (c : Settings) (t : Tags) : Prop :=
  c.isElementRoutable t = .ok true ∧ ∃ p, c.permissions t .pedestrianAndBicycle = .ok p ∧ p ≠ .none

structure UsedAsTagged (c : Settings) (p : PlacedArea) : Prop where
  walkable : p.walkable = true ↔ IsWalkable c p.area.parent.tags
  parkAndRide : p.parkAndRide = true ↔ p.area.parent.tags.isParkAndRide = .ok true

structure WellPlaced (c : Settings) (s : Store) (p : PlacedArea) : Prop where
  processed : p.area.parent.key ∈ s.processed
  parent : s.parentTags? p.area.parent.key = some p.area.parent.tags
  sound : p.area.IsSound s.nodes
  uses : UsedAsTagged c p

def areaKeys (s : Store) : List Key := s.areas.map fun p => p.area.parent.key

structure WellBuilt (c : Settings) (s : Store) : Prop where
  keys : s.areaKeys.Nodup
  placed : ∀ p ∈ s.areas, WellPlaced c s p

structure Supports (s t : Store) : Prop where
  processed : ∀ k ∈ s.processed, k ∈ t.processed
  parents : ∀ k tags, s.parentTags? k = some tags → t.parentTags? k = some tags
  nodes : ∀ id n, s.nodes.get? id = some n → t.nodes.get? id = some n

section Support

theorem parentTags?_mono (areaWays : ∀ id w, s.areaWays.get? id = some w → t.areaWays.get? id = some w)
    (relations : ∀ id k, s.relations.get? id = some k → t.relations.get? id = some k) (k : Key)
    (tags : Tags) (h : s.parentTags? k = some tags) : t.parentTags? k = some tags := by
  obtain ⟨kind, id⟩ := k
  cases kind with
  | node => cases h
  | way =>
    obtain ⟨w, hw, rfl⟩ := Option.map_eq_some_iff.1 h
    exact Option.map_eq_some_iff.2 ⟨w, areaWays id w hw, rfl⟩
  | relation =>
    obtain ⟨r, hr, rfl⟩ := Option.map_eq_some_iff.1 h
    exact Option.map_eq_some_iff.2 ⟨r, relations id r hr, rfl⟩

theorem Supports.of_same (processed : ∀ k ∈ s.processed, k ∈ t.processed)
    (areaWays : t.areaWays = s.areaWays) (relations : t.relations = s.relations)
    (nodes : t.nodes = s.nodes) : Supports s t where
  processed := processed
  parents := parentTags?_mono (by rw [areaWays]; exact fun _ _ h => h)
    (by rw [relations]; exact fun _ _ h => h)
  nodes := by rw [nodes]; exact fun _ _ h => h

theorem SameElements.supports (same : SameElements s t) : Supports s t :=
  .of_same same.processed same.areaWays same.relations same.nodes

theorem OnlyAdds.supports (adds : OnlyAdds s t) : Supports s t where
  processed := by rw [adds.processed]; exact fun _ h => h
  parents := parentTags?_mono (fun _ _ h => Table.get?_of_prefix adds.areaWays h)
    (fun _ _ h => Table.get?_of_prefix adds.relations h)
  nodes := by rw [adds.nodes]; exact fun _ _ h => h

theorem WellPlaced.mono {p : PlacedArea} (h : WellPlaced c s p) (supports : Supports s t) :
    WellPlaced c t p where
  processed := supports.processed _ h.processed
  parent := supports.parents _ _ h.parent
  sound := h.sound.mono supports.nodes
  uses := h.uses

theorem WellBuilt.mono (h : WellBuilt c s) (areas : t.areas = s.areas) (supports : Supports s t) :
    WellBuilt c t where
  keys := by rw [areaKeys, areas]; exact h.keys
  placed := by rw [areas]; exact fun p hp => (h.placed p hp).mono supports

theorem WellBuilt.new (h : WellBuilt c s) {k : Key} (new : k ∉ s.processed) : k ∉ s.areaKeys := by
  intro hk
  obtain ⟨p, hp, rfl⟩ := List.mem_map.1 hk
  exact new (h.placed p hp).processed

theorem WellBuilt.add (h : WellBuilt c s) {p : PlacedArea} (new : p.area.parent.key ∉ s.areaKeys)
    (placed : WellPlaced c s p) : WellBuilt c { s with areas := s.areas ++ [p] } where
  keys := by
    rw [areaKeys, List.map_append]
    exact h.keys.append (List.nodup_singleton _) (List.disjoint_singleton.2 new)
  placed := by
    intro q hq
    have supports : Supports s { s with areas := s.areas ++ [p] } := .of_same (fun _ h => h) rfl rfl rfl
    rcases List.mem_append.1 hq with hq | hq
    · exact (h.placed q hq).mono supports
    · rw [List.mem_singleton.1 hq]
      exact placed.mono supports

end Support

section Building

theorem place_cases (a : Area) :
    (place c a s).state = s ∨ ∃ p : PlacedArea, p.area = a ∧ UsedAsTagged c p ∧
      (place c a s).state = { s with areas := s.areas ++ [p] } := by
  rw [place]
  dsimp only
  cases hp : c.permissions a.parent.tags .pedestrianAndBicycle with
  | error e => exact .inl rfl
  | ok p =>
    cases hr : c.isElementRoutable a.parent.tags with
    | error e => exact .inl rfl
    | ok routable =>
      have walkable : (routable && p ≠ .none) = true ↔ IsWalkable c a.parent.tags := by
        simp [IsWalkable, hp, hr]
      simp only [Outcome.withValue_ok]
      cases hpark : a.parent.tags.isParkAndRide with
      | error e =>
        dsimp only [Outcome.fail]
        split
        · exact .inr ⟨_, rfl, ⟨walkable, by simp [hpark]⟩, rfl⟩
        · exact .inl rfl
      | ok parkAndRide =>
        dsimp only [Outcome.done]
        split
        · exact .inr ⟨_, rfl, ⟨walkable, by simp [hpark]⟩, rfl⟩
        · exact .inl rfl

theorem place_ends {a : Area} (classified : c.Classifies a.parent.tags) :
    (place c a s).Ends fun t => ∃ p : PlacedArea, p.area = a ∧ UsedAsTagged c p ∧
      t = { s with areas := s.areas ++ if p.walkable || p.parkAndRide then [p] else [] } := by
  obtain ⟨⟨routable, hr⟩, ⟨p, hp⟩, ⟨parkAndRide, hpark⟩⟩ := classified
  have walkable : (routable && p ≠ .none) = true ↔ IsWalkable c a.parent.tags := by
    simp [IsWalkable, hp, hr]
  have parking : parkAndRide = true ↔ a.parent.tags.isParkAndRide = .ok true := by simp [hpark]
  rw [place, hp, hr, hpark]
  refine ⟨rfl, ⟨a, routable && p ≠ .none, parkAndRide⟩, rfl, ⟨walkable, parking⟩, ?_⟩
  dsimp only [Outcome.withValue, Outcome.done]
  split
  · rfl
  · rw [List.append_nil]

theorem place_failure_eq_none {a : Area} :
    (place c a s).failure = none ↔ c.Classifies a.parent.tags := by
  refine ⟨fun placed => ?_, fun classified => (place_ends classified).1⟩
  rw [place] at placed
  rw [Settings.Classifies]
  dsimp only at placed
  cases hp : c.permissions a.parent.tags .pedestrianAndBicycle with
  | error e => simp [hp] at placed
  | ok p =>
    cases hr : c.isElementRoutable a.parent.tags with
    | error e => simp [hp, hr] at placed
    | ok routable =>
      cases hpark : a.parent.tags.isParkAndRide with
      | error e => simp [hp, hr, hpark] at placed
      | ok parkAndRide => exact ⟨⟨routable, rfl⟩, ⟨p, rfl⟩, parkAndRide, rfl⟩

theorem place_steady {a : Area} (readable : ∃ b, a.parent.tags.isParkAndRide = .ok b)
    (failed : (place c a s).failure ≠ none) : (place c a s).state = s := by
  obtain ⟨b, hb⟩ := readable
  rw [place] at failed ⊢
  dsimp only at failed ⊢
  cases hp : c.permissions a.parent.tags .pedestrianAndBicycle with
  | error e => rfl
  | ok p =>
    cases hr : c.isElementRoutable a.parent.tags with
    | error e => rfl
    | ok routable =>
      rw [hp, hr, hb] at failed
      exact absurd rfl failed

theorem copyToMembers_frame (r : Relation) : ∃ ws, copyToMembers r s = { s with ways := ws } := by
  refine List.foldlRecOn (motive := fun t : Store => ∃ ws, t = { s with ways := ws }) r.wayMembers _
    ⟨s.ways, rfl⟩ ?_
  rintro _ ⟨ws, rfl⟩ m -
  rw [retag]
  split <;> exact ⟨_, rfl⟩

theorem WellBuilt.place (h : WellBuilt c s) {a : Area} (new : a.parent.key ∉ s.areaKeys)
    (processed : a.parent.key ∈ s.processed) (parent : s.parentTags? a.parent.key = some a.parent.tags)
    (sound : a.IsSound s.nodes) : WellBuilt c (place c a s).state := by
  rcases place_cases (c := c) (s := s) a with hs | ⟨p, rfl, uses, hs⟩
  · rw [hs]
    exact h
  · rw [hs]
    exact h.add new ⟨processed, parent, sound, uses⟩

variable [Limits] [Geometry]

theorem buildArea_keeps {P : Store → Prop} {what : String} {parent : Parent} {outer inner : List Way}
    {f : Area → Store → Outcome Store} (hs : P s)
    (hf : ∀ a, a.parent = parent → a.IsSound s.nodes → P (f a s).state) :
    P (buildArea what parent outer inner s f).state := by
  rw [buildArea]
  split
  · rename_i a built
    have facts := Area.sound_of_build built
    exact hf a facts.1 facts.2
  · split
    · exact withValue_keeps hs fun _ _ => hs
    · exact hs

theorem WellBuilt.tryMultipolygon (h : WellBuilt c s) {k : KeptRelation}
    (kept : s.relations.get? k.relation.id = some k) : WellBuilt c (tryMultipolygon c k s).state := by
  rw [Store.tryMultipolygon]
  split
  · exact h
  · rename_i untried
    rw [Bool.or_eq_true, not_or] at untried
    have new := h.new (k := k.relation.key) (by simpa [isProcessed] using untried.2)
    have marked : ∀ log, WellBuilt c ((markProcessed k.relation.key s).record log) :=
      fun log => h.mono rfl (.of_same (fun _ h => mem_insertNew.2 (.inl h)) rfl rfl rfl)
    have bounded : ∀ log bounds,
        WellBuilt c { (markProcessed k.relation.key s).record log with boundsAt := bounds } :=
      fun log bounds => (marked log).mono rfl (.of_same (fun _ h => h) rfl rfl rfl)
    refine absorb_keeps (marked _) fun b _ => ?_
    cases b with
    | none => exact marked _
    | some b =>
      refine buildArea_keeps (marked _) fun a ha sound => ?_
      obtain ⟨bounds, hbounds⟩ := bounds_frame (b.outer ++ b.inner) _
      rw [hbounds]
      refine Outcome.andThen_keeps (WellBuilt.place (bounded _ bounds) ?_ ?_ ?_ sound) fun t ht => ?_
      · rw [ha]
        exact new
      · rw [ha]
        exact mem_insertNew.2 (.inr rfl)
      · rw [ha]
        exact Option.map_eq_some_iff.2 ⟨k, kept, rfl⟩
      · obtain ⟨ws, hws⟩ := copyToMembers_frame (s := t) k.relation
        change WellBuilt c (copyToMembers k.relation t)
        rw [hws]
        exact ht.mono rfl (.of_same (fun _ h => h) rfl rfl rfl)

theorem tryCandidate_steady {w : Way} (readable : ∃ b, w.tags.isParkAndRide = .ok b)
    (failed : (tryCandidate c w s).failure ≠ none) : (tryCandidate c w s).state = s := by
  rw [tryCandidate] at failed ⊢
  split
  · rfl
  · rename_i new
    rw [if_neg new] at failed
    have unbuilt : (buildArea "area way" ⟨w.key, w.tags⟩ [w] [] s (Store.place c)).failure ≠ none := by
      intro ok
      rw [Outcome.andThen_failure ok] at failed
      exact failed rfl
    rw [Outcome.andThen_of_failed unbuilt]
    rw [buildArea] at unbuilt ⊢
    split
    · rename_i a built
      rw [built] at unbuilt
      refine place_steady ?_ unbuilt
      rw [(Area.sound_of_build built).1]
      exact readable
    · split
      · exact withValue_keeps (P := (· = s)) rfl fun _ _ => rfl
      · rfl

theorem WellBuilt.tryCandidate_of_ok (h : WellBuilt c s) {w : Way} (kept : s.areaWays.get? w.id = some w)
    (ok : (tryCandidate c w s).failure = none) : WellBuilt c (tryCandidate c w s).state := by
  rw [tryCandidate] at ok ⊢
  split
  · exact h
  · rename_i untried
    rw [if_neg untried, Outcome.andThen_failure_eq_none] at ok
    rw [Outcome.andThen_state ok.1]
    rw [Bool.or_eq_true, not_or] at untried
    have new := h.new (k := w.key) (by simpa [isProcessed] using untried.1)
    have marked : WellBuilt c (markProcessed w.key s) :=
      h.mono rfl (.of_same (fun _ h => mem_insertNew.2 (.inl h)) rfl rfl rfl)
    refine buildArea_keeps (P := fun t => WellBuilt c (markProcessed w.key t)) marked fun a ha sound => ?_
    rcases place_cases (c := c) (s := s) a with hs | ⟨p, rfl, uses, hs⟩
    · rw [hs]
      exact marked
    · rw [hs]
      refine marked.add (p := p) (by rw [ha]; exact new) ⟨?_, ?_, sound, uses⟩
      · rw [ha]
        exact mem_insertNew.2 (.inr rfl)
      · rw [ha]
        exact Option.map_eq_some_iff.2 ⟨w, kept, rfl⟩

theorem WellBuilt.tryCandidate (h : WellBuilt c s) {w : Way} (kept : s.areaWays.get? w.id = some w)
    (readable : ∃ b, w.tags.isParkAndRide = .ok b) : WellBuilt c (tryCandidate c w s).state := by
  by_cases failed : (Store.tryCandidate c w s).failure = none
  · exact h.tryCandidate_of_ok kept failed
  · rw [tryCandidate_steady readable failed]
    exact h

end Building

section Runs

/-- The tags of every candidate tell whether it is for parking. -/
def ParkingReadable (s : Store) : Prop := ∀ w ∈ s.candidates, ∃ b, w.tags.isParkAndRide = .ok b

theorem RelationStep.areas (step : RelationStep s t) : t.areas = s.areas := by
  cases step <;> rfl

theorem WellBuilt.atPhase (h : WellBuilt c s) (p : Phase) : WellBuilt c { s with phase := p } :=
  h.mono rfl (.of_same (fun _ h => h) rfl rfl rfl)

variable [Limits]

theorem applyRelations_areas : (applyRelations c s).state.areas = s.areas :=
  eq_of_chain (f := areas) RelationStep.areas applyRelations_chain

variable [Geometry]

theorem CallStep.parkingReadable (step : CallStep c op s t) (h : ParkingReadable t) : ParkingReadable s :=
  fun w hw => h w (step.grows.2.mem hw)

theorem WellBuilt.tryMultipolygons (h : WellBuilt c s) (keyed : Keyed s) :
    WellBuilt c (Outcome.forEach (Store.tryMultipolygon c) s.relations.values s).state := by
  refine (Outcome.forEach_keeps (P := fun t => WellBuilt c t ∧ SameElements s t) ⟨h, .refl s⟩
    fun k hk t ⟨ht, same⟩ => ?_).1
  have kept := keyed.get?_relation hk
  rw [← same.relations] at kept
  exact ⟨ht.tryMultipolygon kept, same.trans (same_of_chain AreaStep.same (tryMultipolygon_chain k))⟩

theorem WellBuilt.resolveAreas (h : WellBuilt c s) (keyed : Keyed s) (readable : ParkingReadable s) :
    WellBuilt c (resolveAreas c s).state := by
  refine (Outcome.andThen_keeps (P := fun t => WellBuilt c t ∧ SameElements s t)
    ⟨h.tryMultipolygons keyed, tryMultipolygons_same _⟩ fun t ⟨ht, same⟩ => ?_).1
  refine Outcome.forEach_keeps (P := fun t => WellBuilt c t ∧ SameElements s t) ⟨ht, same⟩
    fun w hw u ⟨hu, same'⟩ => ?_
  rw [same.candidates] at hw
  have kept := keyed.candidates.2 w hw
  rw [← same'.areaWays] at kept
  exact ⟨hu.tryCandidate kept (readable w hw), same'.trans (tryCandidate_same w)⟩

theorem WellBuilt.resolveAreas_of_ok (h : WellBuilt c s) (keyed : Keyed s)
    (ok : (Store.resolveAreas c s).failure = none) : WellBuilt c (Store.resolveAreas c s).state := by
  rw [Store.resolveAreas, Outcome.andThen_failure_eq_none] at ok
  rw [Store.resolveAreas, Outcome.andThen_state ok.1]
  have same := tryMultipolygons_same (c := c) (s := s) s.relations.values
  refine (Outcome.forEach_keeps_of_ok (P := fun t => WellBuilt c t ∧ SameElements s t)
    ⟨h.tryMultipolygons keyed, same⟩ ?_ ok.2).1
  rintro w hw u ⟨hu, same'⟩ tried
  rw [same.candidates] at hw
  have kept := keyed.candidates.2 w hw
  rw [← same'.areaWays] at kept
  exact ⟨hu.tryCandidate_of_ok kept tried, same'.trans (tryCandidate_same w)⟩

theorem WellBuilt.call (h : WellBuilt c s) (single : op.IsCall)
    (resolves : op = .pointsComplete → WellBuilt c (Store.resolveAreas c s).state) :
    WellBuilt c (apply c op s).state := by
  have step := call_step (c := c) (s := s) single
  generalize (apply c op s).state = t at step
  cases step with
  | refused _ _ closed => exact h
  | rental opened rental => exact h.mono rfl (.of_same (fun _ h => h) rfl rfl rfl)
  | node opened plain wanted new =>
    exact h.mono rfl ⟨fun _ h => h, fun _ _ h => h, fun _ _ h => Table.get?_put_of_get? new h⟩
  | passed opened plain old => exact h
  | way opened adds => exact (h.atPhase .ingesting).mono adds.areas adds.supports
  | relation opened adds => exact (h.atPhase .ingesting).mono adds.areas adds.supports
  | marked opened => exact h.mono rfl (.of_same (fun _ h => h) rfl rfl rfl)
  | resolving opened same made =>
    rw [made]
    exact resolves rfl
  | resolved opened same tried made =>
    rw [made]
    exact (resolves rfl).atPhase .areasResolved
  | concluding opened same made =>
    rw [made]
    exact h.mono applyRelations_areas applyRelations_same.supports
  | concluded opened same made =>
    rw [made]
    exact (h.mono applyRelations_areas applyRelations_same.supports).atPhase .relationsProcessed

theorem WellBuilt.call_of_ok (h : WellBuilt c s) (keyed : Keyed s) (single : op.IsCall)
    (ok : (apply c op s).failure = none) : WellBuilt c (apply c op s).state := by
  refine h.call single fun points => ?_
  subst points
  change (pointsComplete c s).failure = none at ok
  by_cases opened : s.phase = .linesMarked ∨ s.phase = .areasResolved
  · rw [pointsComplete_of_open opened, Outcome.andThen_failure_eq_none] at ok
    exact h.resolveAreas_of_ok keyed ok.1
  · rw [pointsComplete_of_closed opened] at ok
    cases ok

theorem Reachable.wellBuilt (h : Reachable c s) (readable : ParkingReadable s) : WellBuilt c s := by
  have start : WellBuilt c empty := ⟨.nil, List.forall_mem_nil _⟩
  have kept : Keyed s ∧ (ParkingReadable s → WellBuilt c s) := by
    refine h.call_induction (P := fun t => Keyed t ∧ (ParkingReadable t → WellBuilt c t))
      ⟨.empty, fun _ => start⟩ fun op single t ⟨keyed, built⟩ => ?_
    refine ⟨keyed.call single, fun later => ?_⟩
    have earlier := (call_step single).parkingReadable later
    exact (built earlier).call single fun _ => (built earlier).resolveAreas keyed earlier
  exact kept.2 readable

theorem Leads.wellBuilt {h : List Call} (hl : Leads c empty h s)
    (ok : ∀ k ∈ h, (apply c k.op k.found).failure = none) : WellBuilt c s := by
  have start : Keyed empty ∧ WellBuilt c empty := ⟨.empty, .nil, List.forall_mem_nil _⟩
  refine (hl.keeps_where (P := fun t => Keyed t ∧ WellBuilt c t) ok start ?_).2
  intro op single t ok ⟨keyed, built⟩
  exact ⟨keyed.call single, built.call_of_ok keyed single ok⟩

end Runs

section Repeating

variable [Limits] [Geometry]

/-- No multipolygon breaks off the resolving of areas. -/
def MultipolygonsPass (c : Settings) (s : Store) : Prop :=
  s.phase = .linesMarked ∨ s.phase = .areasResolved →
    (Outcome.forEach (tryMultipolygon c) s.relations.values s).failure = none

theorem pointsComplete_kept :
    (pointsComplete c s).state.relations = s.relations ∧
      (pointsComplete c s).state.candidates = s.candidates := by
  have same := resolveAreas_same (c := c) (s := s)
  exact pointsComplete_keeps (P := fun t => t.relations = s.relations ∧ t.candidates = s.candidates)
    ⟨rfl, rfl⟩ ⟨same.relations, same.candidates⟩ fun _ ht => ht

theorem tryCandidates_again {ws : List Way} (readable : ∀ w ∈ ws, ∃ b, w.tags.isParkAndRide = .ok b) :
    let t := (Outcome.forEach (tryCandidate c) ws s).state
    (Outcome.forEach (tryCandidate c) ws t).state = t ∧
      (Outcome.forEach (tryCandidate c) ws t).failure =
        (Outcome.forEach (tryCandidate c) ws s).failure := by
  apply Outcome.forEach_again (Q := fun w t => Waits t w)
  · exact fun w hw t failed => tryCandidate_steady (readable w hw) failed
  · exact fun w _ t ok => tryCandidate_waits w ok
  · exact fun w v t waits => waits.same (tryCandidate_same v)
  · exact fun w t waits => tryCandidate_again waits

theorem resolveAreas_again (readable : ParkingReadable s)
    (pass : (Outcome.forEach (tryMultipolygon c) s.relations.values s).failure = none) :
    (resolveAreas c (resolveAreas c s).state).state = (resolveAreas c s).state ∧
      (resolveAreas c (resolveAreas c s).state).failure = (resolveAreas c s).failure := by
  have same := tryMultipolygons_same (c := c) (s := s) s.relations.values
  have processed := multipolygons_processed pass
  have first : resolveAreas c s = (Outcome.forEach (tryMultipolygon c) s.relations.values s).andThen
    fun t => Outcome.forEach (tryCandidate c) t.candidates t := rfl
  rw [first, Outcome.andThen_state pass, Outcome.andThen_failure pass]
  generalize (Outcome.forEach (tryMultipolygon c) s.relations.values s).state = t at same processed
  have same' := tryCandidates_same (c := c) (s := t) t.candidates
  rw [ParkingReadable, ← same.candidates] at readable
  have again := tryCandidates_again (c := c) (s := t) readable
  generalize (Outcome.forEach (tryCandidate c) t.candidates t).state = u at same' again
  have idle : (Outcome.forEach (tryMultipolygon c) u.relations.values u).Ends (· = u) := by
    apply tryMultipolygons_again
    rw [same'.relations, same.relations]
    exact fun k hk hkind => same'.processed _ (processed k hk hkind)
  rw [resolveAreas, Outcome.andThen_state idle.1, Outcome.andThen_failure idle.1, idle.2, same'.candidates]
  exact again

theorem pointsComplete_twice (readable : ParkingReadable s) (pass : MultipolygonsPass c s) :
    (pointsComplete c (pointsComplete c s).state).state = (pointsComplete c s).state := by
  by_cases opened : s.phase = .linesMarked ∨ s.phase = .areasResolved
  · by_cases ok : (pointsComplete c s).failure = none
    · have settled := pointsComplete_settles ok
      refine (pointsComplete_again settled.1 (.inr settled.2)).2.trans ?_
      rw [← settled.2]
    · have again := resolveAreas_again readable (pass opened)
      rw [pointsComplete_of_open opened] at ok ⊢
      have failed : (resolveAreas c s).failure ≠ none :=
        fun h => ok (Outcome.andThen_failure_eq_none.2 ⟨h, rfl⟩)
      rw [Outcome.andThen_of_failed failed]
      have opened' : (resolveAreas c s).state.phase = .linesMarked ∨
          (resolveAreas c s).state.phase = .areasResolved := by
        rw [resolveAreas_same.phase]
        exact opened
      rw [pointsComplete_of_open opened', Outcome.andThen_of_failed (again.2 ▸ failed)]
      exact again.1
  · rw [pointsComplete_of_closed opened]
    change (pointsComplete c s).state = s
    rw [pointsComplete_of_closed opened]
    rfl

end Repeating

section Uses

theorem mem_walkableAreas {a : Area} :
    a ∈ s.walkableAreas ↔ ∃ p ∈ s.areas, p.walkable = true ∧ p.area = a := by
  simp [walkableAreas, and_assoc]

theorem mem_parkAndRideAreas {a : Area} :
    a ∈ s.parkAndRideAreas ↔ ∃ p ∈ s.areas, p.parkAndRide = true ∧ p.area = a := by
  simp [parkAndRideAreas, and_assoc]

theorem exists_placed {a : Area} (ha : a ∈ s.walkableAreas ++ s.parkAndRideAreas) :
    ∃ p ∈ s.areas, p.area = a := by
  rw [List.mem_append, mem_walkableAreas, mem_parkAndRideAreas] at ha
  rcases ha with ⟨p, hp, -, hpa⟩ | ⟨p, hp, -, hpa⟩
  · exact ⟨p, hp, hpa⟩
  · exact ⟨p, hp, hpa⟩

theorem WellBuilt.uses (h : WellBuilt c s) {a : Area} (ha : a ∈ s.walkableAreas ++ s.parkAndRideAreas) :
    ∃ tags, s.parentTags? a.parent.key = some tags ∧ (a ∈ s.walkableAreas ↔ IsWalkable c tags) ∧
      (a ∈ s.parkAndRideAreas ↔ tags.isParkAndRide = .ok true) := by
  obtain ⟨p, hp, rfl⟩ := exists_placed ha
  refine ⟨_, (h.placed p hp).parent, ?_, ?_⟩
  · rw [mem_walkableAreas]
    constructor
    · rintro ⟨q, hq, walkable, hqp⟩
      rw [← hqp]
      exact (h.placed q hq).uses.walkable.1 walkable
    · exact fun walkable => ⟨p, hp, (h.placed p hp).uses.walkable.2 walkable, rfl⟩
  · rw [mem_parkAndRideAreas]
    constructor
    · rintro ⟨q, hq, parking, hqp⟩
      rw [← hqp]
      exact (h.placed q hq).uses.parkAndRide.1 parking
    · exact fun parking => ⟨p, hp, (h.placed p hp).uses.parkAndRide.2 parking, rfl⟩

end Uses

section Results

variable [Limits] [Geometry]

/-- Where the tags of candidates tell whether these are for parking, every parent has one area at most, of
sound rings that stand in the nodes that are kept, for the uses that the parent's tags give it.  If no
multipolygon breaks off the resolving of areas, to resolve them again changes nothing. -/
theorem areas_built_once (reachable : Reachable c s) (readable : ParkingReadable s) :
    (s.walkableAreas.map fun a => a.parent.key).Nodup ∧
    (s.parkAndRideAreas.map fun a => a.parent.key).Nodup ∧
    (∀ a ∈ s.walkableAreas, ∀ b ∈ s.parkAndRideAreas, a.parent.key = b.parent.key → a = b) ∧
    (∀ a ∈ s.walkableAreas ++ s.parkAndRideAreas,
      a.parent.key ∈ s.processed ∧ a.IsSound s.nodes ∧
        ∃ tags, s.parentTags? a.parent.key = some tags ∧ (a ∈ s.walkableAreas ↔ IsWalkable c tags) ∧
          (a ∈ s.parkAndRideAreas ↔ tags.isParkAndRide = .ok true)) ∧
    (MultipolygonsPass c s →
      (pointsComplete c (pointsComplete c s).state).state = (pointsComplete c s).state) := by
  have built := reachable.wellBuilt readable
  have distinct (f : PlacedArea → Bool) :
      (((s.areas.filter f).map PlacedArea.area).map fun a => a.parent.key).Nodup := by
    rw [List.map_map]
    exact built.keys.sublist (List.filter_sublist.map _)
  refine ⟨distinct _, distinct _, ?_, ?_, pointsComplete_twice readable⟩
  · intro a ha b hb same
    obtain ⟨p, hp, -, rfl⟩ := mem_walkableAreas.1 ha
    obtain ⟨q, hq, -, rfl⟩ := mem_parkAndRideAreas.1 hb
    rw [List.inj_on_of_nodup_map built.keys hp hq same]
  · intro a ha
    obtain ⟨p, hp, rfl⟩ := exists_placed ha
    exact ⟨(built.placed p hp).processed, (built.placed p hp).sound, built.uses ha⟩

end Results

section Examples

open Standard

def atCorner (id : Int) (lon lat : Float) : Operation := .addNode ⟨id, ⟨lon, lat⟩, []⟩

def triangle (tags : Tags) : List Operation :=
  [.addWay ⟨10, [1, 2, 3, 1], tags⟩, .linesComplete, atCorner 1 0 0, atCorner 2 1 0, atCorner 3 0 1]

def carPark : Tags :=
  [("highway", .text "pedestrian"), ("amenity", .text "parking"), ("park_ride", .text "bus")]

theorem carPark_built_once :
    let s := run .default (triangle carPark ++ [.pointsComplete]) empty
    Reachable .default s ∧ ParkingReadable s ∧ MultipolygonsPass .default s ∧
      (s.walkableAreas.map fun a => a.parent.key).Nodup ∧ (∀ a ∈ s.walkableAreas, a.IsSound s.nodes) ∧
      (pointsComplete .default (pointsComplete .default s).state).state = (pointsComplete .default s).state := by
  intro s
  have reachable : Reachable .default s := ⟨_, rfl⟩
  have last : s = (pointsComplete .default (run .default (triangle carPark) empty)).state :=
    run_append _ _ _ _
  have kept := pointsComplete_kept (c := .default) (s := run .default (triangle carPark) empty)
  rw [← last] at kept
  have readable : ParkingReadable s := by
    rw [ParkingReadable, kept.2]
    exact List.forall_mem_singleton.2 ⟨true, rfl⟩
  have pass : MultipolygonsPass .default s := by
    rw [MultipolygonsPass, kept.1]
    exact fun _ => rfl
  have facts := areas_built_once reachable readable
  refine ⟨reachable, readable, pass, facts.1, fun a ha => ?_, facts.2.2.2.2 pass⟩
  exact (facts.2.2.2.1 a (List.mem_append_left _ ha)).2.1

example :
    let s := run .default (triangle carPark ++ [.pointsComplete]) empty
    s.walkableAreas.map (fun a => a.parent.key) = [⟨.way, 10⟩] ∧
      s.parkAndRideAreas.map (fun a => a.parent.key) = [⟨.way, 10⟩] := by decide +kernel

def vastSquare : List Operation :=
  [.addRelation ⟨20, [⟨.text "way", 10, .text "outer"⟩, ⟨.text "way", 11, .text "inner"⟩],
      [("type", .text "multipolygon"), ("highway", .text "pedestrian")]⟩,
    .addWay ⟨10, [1, 2, 3, 4, 1], []⟩, .addWay ⟨11, [5, 6, 7, 5], []⟩, .linesComplete,
    atCorner 1 0 0, atCorner 2 3e+288 0, atCorner 3 3e+288 3e+288, atCorner 4 0 3e+288,
    atCorner 5 1e+288 1e+288, atCorner 6 1e+288 2e+288, atCorner 7 0 3e+288]

theorem vastSquare_resolved_at_second :
    ∃ s, Reachable .default s ∧ ¬ MultipolygonsPass .default s ∧ s.phase = .linesMarked ∧
      (pointsComplete .default s).state.phase = .linesMarked ∧
      (pointsComplete .default (pointsComplete .default s).state).state.phase = .areasResolved := by
  have phases :
      (pointsComplete .default (run .default vastSquare empty)).state.phase = .linesMarked ∧
      (pointsComplete .default (pointsComplete .default (run .default vastSquare empty)).state).state.phase =
        .areasResolved := by decide +kernel
  refine ⟨run .default vastSquare empty, ⟨vastSquare, rfl⟩, fun pass => ?_, rfl, phases⟩
  have readable : ParkingReadable (run .default vastSquare empty) := List.forall_mem_nil _
  rw [pointsComplete_twice readable pass, phases.1] at phases
  cases phases.2

end Examples

end StreetMap.Store
