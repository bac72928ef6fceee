import StreetMap.Proofs.Area
import StreetMap.Proofs.Store.Verdict

/-!
What multipolygons and candidates are worth once the nodes are in.  The verdicts look at ways and nodes by
id, which resolving areas does not change as long as no member of a multipolygon is a plain way.
-/

namespace StreetMap.Store

variable {c : Settings} {s t : Store}

structure SameLookups (s t : Store) : Prop where
  ways : ∀ id, s.way? id = t.way? id
  nodes : ∀ id, s.nodes.get? id = t.nodes.get? id

theorem SameLookups.of_add {h : Harvest} (nodes : h.nodes = []) (ways : h.ways = [])
    (areaWays : h.areaWays = []) : SameLookups s (s.add h) := by
  constructor
  · intro id
    simp [way?, add, ways, areaWays]
  · intro id
    simp [add, nodes]

theorem SameLookups.symm (h : SameLookups s t) : SameLookups t s :=
  ⟨fun id => (h.ways id).symm, fun id => (h.nodes id).symm⟩

theorem SameLookups.trans {u : Store} (h : SameLookups s t) (h' : SameLookups t u) : SameLookups s u :=
  ⟨fun id => (h.ways id).trans (h'.ways id), fun id => (h.nodes id).trans (h'.nodes id)⟩

theorem SameLookups.hasNodes (h : SameLookups s t) (ids : List Int) : s.hasNodes ids = t.hasNodes ids := by
  have hnodes : s.nodes.has = t.nodes.has := by
    funext id
    rw [Table.has, Table.has, h.nodes]
  rw [Store.hasNodes, Store.hasNodes, hnodes]

theorem foldl_bound (ws : List Way) (s : Store) :
    ws.foldl (fun s w => bound w s) s = s.add { bounds := ws.flatMap boundsOf } := by
  induction ws generalizing s with
  | nil => exact (add_nothing s).symm
  | cons w ws ih =>
    rw [List.foldl_cons, ih, addBound_eq, add_add]
    rfl

theorem copyToMembers_of_no_plain {r : Relation}
    (h : ∀ m ∈ r.wayMembers, s.ways.has m.ref = false) : copyToMembers r s = s := by
  have hs : ∀ ms : List Member, (∀ m ∈ ms, s.ways.has m.ref = false) →
      ms.foldl (fun s m => retag m.ref (copyTags r.tags) s) s = s := by
    intro ms
    induction ms with
    | nil => exact fun _ => rfl
    | cons m ms ih =>
      intro hms
      have hm : retag m.ref (copyTags r.tags) s = s := by
        rw [retag, Table.get?_eq_none (hms m List.mem_cons_self)]
      rw [List.foldl_cons, hm]
      exact ih fun m hm => hms m (List.mem_cons_of_mem _ hm)
  exact hs r.wayMembers h

theorem markProcessed_eq (k : Key) : markProcessed k s = s.add { processed := [k] } := by
  simp [markProcessed, add, addBounds, insertAll]

theorem record_eq {α : Type} (x : Logged α) : s.record x.log = s.add { anomalies := x.findings } := by
  simp [record, add, addBounds, insertAll, Logged.findings]

theorem absorb_yields {α : Type} {x : Logged α} {f : α → Store → Outcome Store}
    {w : α → Except Failure Harvest}
    (hf : ∀ a, x.result = .ok a → Yields (f a (s.record x.log)) (s.record x.log) (w a)) :
    Yields (s.absorb x f) s (x.result.bind fun a =>
      (w a).map (Harvest.append { anomalies := x.findings })) := by
  rw [absorb]
  cases ha : x.result with
  | error e => exact .failed rfl
  | ok a =>
    have h := hf a ha
    rw [record_eq] at h ⊢
    exact h.after

def placing (c : Settings) (a : Area) : Except Failure (List PlacedArea) :=
  (c.permissions a.parent.tags .pedestrianAndBicycle).bind fun p =>
    (c.isElementRoutable a.parent.tags).bind fun routable =>
      a.parent.tags.isParkAndRide.map fun parkAndRide =>
        if (routable && p ≠ .none) || parkAndRide then [⟨a, routable && p ≠ .none, parkAndRide⟩] else []

def placeVerdict (c : Settings) (a : Area) : Except Failure Harvest :=
  (placing c a).map fun ps => { areas := ps }

theorem place_yields (a : Area) : Yields (place c a s) s (placeVerdict c a) := by
  rw [placeVerdict, placing, place]
  cases c.permissions a.parent.tags .pedestrianAndBicycle with
  | error e => exact .failed rfl
  | ok p =>
    cases c.isElementRoutable a.parent.tags with
    | error e => exact .failed rfl
    | ok routable =>
      dsimp only [Outcome.withValue, Except.bind]
      cases a.parent.tags.isParkAndRide with
      | error e => exact .failed rfl
      | ok parkAndRide =>
        refine ⟨rfl, ?_⟩
        dsimp only [Outcome.done]
        split
        · simp [add, addBounds, insertAll]
        · simp

def AreasOf (k : Key) (h : Harvest) : Prop :=
  ∃ areas bounds processed anomalies,
    h = { areas, bounds, processed, anomalies } ∧ ∀ k' ∈ processed, k' = k

theorem AreasOf.append {k : Key} {g h : Harvest} (hg : AreasOf k g) (hh : AreasOf k h) :
    AreasOf k (g.append h) := by
  obtain ⟨as, bs, ps, fs, rfl, hp⟩ := hg
  obtain ⟨as', bs', ps', fs', rfl, hp'⟩ := hh
  refine ⟨as ++ as', bs ++ bs', ps ++ ps', fs ++ fs', by simp [Harvest.append], ?_⟩
  intro k' hk
  cases List.mem_append.1 hk with
  | inl hk => exact hp k' hk
  | inr hk => exact hp' k' hk

theorem placeVerdict_areas {k : Key} {a : Area} {h : Harvest} (hv : placeVerdict c a = .ok h) :
    AreasOf k h := by
  obtain ⟨ps, -, rfl⟩ := map_eq_ok.1 hv
  exact ⟨ps, [], [], [], rfl, List.forall_mem_nil _⟩

theorem AreasOf.lookups {k : Key} {h : Harvest} (hh : AreasOf k h) : SameLookups (s.add h) s := by
  obtain ⟨as, bs, ps, fs, rfl, -⟩ := hh
  exact (SameLookups.of_add rfl rfl rfl).symm

theorem AreasOf.new {k k' : Key} {h : Harvest} (hh : AreasOf k h) (hne : k ≠ k')
    (new : k' ∉ s.processed) : k' ∉ (s.add h).processed := by
  obtain ⟨as, bs, ps, fs, rfl, hp⟩ := hh
  intro hk
  cases mem_insertAll.1 hk with
  | inl hk => exact new hk
  | inr hk => exact hne (hp k' hk).symm

variable [Limits]

theorem gather_congr (h : SameLookups s t) (r : Relation) (ms : List Member) (b : Boundary) :
    gather s r ms b = gather t r ms b := by
  induction ms generalizing b with
  | nil => rfl
  | cons m ms ih => simp only [gather, h.ways, h.hasNodes, ih]

variable [Geometry]

def buildVerdict (what : String) (nodes : Table Int Node) (parent : Parent) (outer inner : List Way)
    (v : Area → Except Failure Harvest) : Except Failure Harvest :=
  match Area.build parent (outer.map Way.nodeRefs) (inner.map Way.nodeRefs) nodes with
  | .ok a => v a
  | .error e =>
    if e.isRejection then (Json.number (skippingText what parent.key e)).map fun _ => {}
    else .error (.area e)

def boundaryVerdict (c : Settings) (s : Store) (r : Relation) : Option Boundary → Except Failure Harvest
  | none => .ok {}
  | some b =>
    buildVerdict "multipolygon" s.nodes ⟨r.key, r.tags⟩ b.outer b.inner fun a =>
      (placeVerdict c a).map (Harvest.append { bounds := (b.outer ++ b.inner).flatMap boundsOf })

def multipolygonVerdict (c : Settings) (s : Store) (k : KeptRelation) : Except Failure Harvest :=
  if k.kind = .multipolygon then
    let found := gather s k.relation k.relation.wayMembers ⟨[], []⟩
    (found.result.bind fun b => (boundaryVerdict c s k.relation b).map
      (Harvest.append { anomalies := found.findings })).map
      (Harvest.append { processed := [k.relation.key] })
  else .ok {}

def candidateVerdict (c : Settings) (s : Store) (w : Way) : Except Failure Harvest :=
  if s.hasNodes w.nodeRefs then
    (buildVerdict "area way" s.nodes ⟨w.key, w.tags⟩ [w] [] (placeVerdict c)).map fun h =>
      h.append { processed := [w.key] }
  else .ok {}

theorem buildArea_yields {what : String} {parent : Parent} {outer inner : List Way}
    {f : Area → Store → Outcome Store} {v : Area → Except Failure Harvest}
    (hf : ∀ a, Yields (f a s) s (v a)) :
    Yields (buildArea what parent outer inner s f) s (buildVerdict what s.nodes parent outer inner v) := by
  rw [buildArea, buildVerdict]
  cases Area.build parent (outer.map Way.nodeRefs) (inner.map Way.nodeRefs) s.nodes with
  | ok a => exact hf a
  | error e =>
    dsimp only
    split
    · cases Json.number (skippingText what parent.key e) with
      | ok line => exact ⟨rfl, (add_nothing s).symm⟩
      | error e' => exact .failed rfl
    · exact .failed rfl

theorem buildVerdict_congr (h : SameLookups s t) (what : String) (parent : Parent) (outer inner : List Way)
    (v : Area → Except Failure Harvest) :
    buildVerdict what s.nodes parent outer inner v = buildVerdict what t.nodes parent outer inner v := by
  rw [buildVerdict, buildVerdict, Area.build_congr h.nodes]

theorem boundaryVerdict_congr (h : SameLookups s t) (r : Relation) :
    boundaryVerdict c s r = boundaryVerdict c t r := by
  funext b
  cases b with
  | none => rfl
  | some b => exact buildVerdict_congr h _ _ _ _ _

theorem multipolygonVerdict_congr (h : SameLookups s t) :
    multipolygonVerdict c s = multipolygonVerdict c t := by
  funext k
  rw [multipolygonVerdict, multipolygonVerdict, gather_congr h, boundaryVerdict_congr h]

theorem candidateVerdict_congr (h : SameLookups s t) : candidateVerdict c s = candidateVerdict c t := by
  funext w
  rw [candidateVerdict, candidateVerdict, h.hasNodes, buildVerdict_congr h]

structure MultipolygonReady (start : Store) (k : KeptRelation) (s : Store) : Prop where
  lookups : SameLookups s start
  new : k.relation.key ∉ s.processed
  plain : k.kind = .multipolygon → ∀ m ∈ k.relation.wayMembers, s.ways.has m.ref = false

theorem boundary_yields {r : Relation} (plain : ∀ m ∈ r.wayMembers, s.ways.has m.ref = false)
    (b : Option Boundary) :
    Yields (match b with
      | none => Outcome.done s
      | some b =>
        buildArea "multipolygon" ⟨r.key, r.tags⟩ b.outer b.inner s fun a s =>
          (place c a ((b.outer ++ b.inner).foldl (fun s w => bound w s) s)).andThen fun s =>
            Outcome.done (copyToMembers r s)) s (boundaryVerdict c s r b) := by
  cases b with
  | none => exact .done s
  | some b =>
    apply buildArea_yields
    intro a
    rw [foldl_bound]
    apply (place_yields a).after.andThen_idle
    intro h hh
    obtain ⟨g, hg, rfl⟩ := map_eq_ok.1 hh
    obtain ⟨ps, -, rfl⟩ := map_eq_ok.1 hg
    apply copyToMembers_of_no_plain
    simpa [add, Harvest.append] using plain

theorem tryMultipolygon_yields {k : KeptRelation} (ready : MultipolygonReady t k s) :
    Yields (tryMultipolygon c k s) s (multipolygonVerdict c t k) := by
  rw [← multipolygonVerdict_congr ready.lookups, tryMultipolygon, multipolygonVerdict]
  by_cases hkind : k.kind = .multipolygon
  · rw [if_neg (by simp [hkind, isProcessed, ready.new]), if_pos hkind, resolveMultipolygon,
      markProcessed_eq]
    have same : SameLookups s (s.add { processed := [k.relation.key] }) :=
      .of_add rfl rfl rfl
    rw [gather_congr same, boundaryVerdict_congr same]
    apply Yields.after
    apply absorb_yields
    intro b _
    apply boundary_yields
    simpa [add, record] using ready.plain hkind
  · rw [if_pos (by simp [hkind]), if_neg hkind]
    exact .done s

structure CandidateReady (start : Store) (w : Way) (s : Store) : Prop where
  lookups : SameLookups s start
  new : w.key ∉ s.processed

theorem tryCandidate_yields {w : Way} (ready : CandidateReady t w s) :
    Yields (tryCandidate c w s) s (candidateVerdict c t w) := by
  rw [← candidateVerdict_congr ready.lookups, tryCandidate, candidateVerdict]
  by_cases hnodes : s.hasNodes w.nodeRefs = true
  · rw [if_neg (by simp [isProcessed, ready.new, hnodes]), if_pos hnodes]
    have built : Yields (buildArea "area way" ⟨w.key, w.tags⟩ [w] [] s (place c)) s
        (buildVerdict "area way" s.nodes ⟨w.key, w.tags⟩ [w] [] (placeVerdict c)) := buildArea_yields place_yields
    have marked := built.andThen (f := fun s => Outcome.done (markProcessed w.key s))
      (w := fun _ => .ok { processed := [w.key] }) fun _ _ => ⟨rfl, markProcessed_eq w.key⟩
    cases hv : buildVerdict "area way" s.nodes ⟨w.key, w.tags⟩ [w] [] (placeVerdict c) with
    | error e => rwa [hv] at marked
    | ok h => rwa [hv] at marked
  · rw [if_pos (by simp [hnodes]), if_neg hnodes]
    exact .done s

theorem buildVerdict_areas {k : Key} {what : String} {nodes : Table Int Node} {parent : Parent} {outer inner : List Way}
    {v : Area → Except Failure Harvest} {h : Harvest} (hv : ∀ a g, v a = .ok g → AreasOf k g)
    (hb : buildVerdict what nodes parent outer inner v = .ok h) : AreasOf k h := by
  rw [buildVerdict] at hb
  split at hb
  · exact hv _ h hb
  · split at hb
    · obtain ⟨-, -, rfl⟩ := map_eq_ok.1 hb
      exact ⟨[], [], [], [], rfl, List.forall_mem_nil _⟩
    · cases hb

theorem multipolygonVerdict_areas {k : KeptRelation} {h : Harvest}
    (hv : multipolygonVerdict c s k = .ok h) : AreasOf k.relation.key h := by
  rw [multipolygonVerdict] at hv
  split at hv
  · obtain ⟨g, hg, rfl⟩ := map_eq_ok.1 hv
    obtain ⟨b, -, hg⟩ := bind_eq_ok.1 hg
    obtain ⟨f, hf, rfl⟩ := map_eq_ok.1 hg
    refine AreasOf.append ⟨[], [], [k.relation.key], [], rfl, by simp⟩
      (AreasOf.append ⟨[], [], [], _, rfl, List.forall_mem_nil _⟩ ?_)
    cases b with
    | none =>
      cases hf
      exact ⟨[], [], [], [], rfl, List.forall_mem_nil _⟩
    | some b =>
      refine buildVerdict_areas ?_ hf
      intro a g hg
      obtain ⟨g', hg', rfl⟩ := map_eq_ok.1 hg
      exact AreasOf.append ⟨[], _, [], [], rfl, List.forall_mem_nil _⟩ (placeVerdict_areas hg')
  · cases hv
    exact ⟨[], [], [], [], rfl, List.forall_mem_nil _⟩

theorem candidateVerdict_areas {w : Way} {h : Harvest} (hv : candidateVerdict c s w = .ok h) :
    AreasOf w.key h := by
  rw [candidateVerdict] at hv
  split at hv
  · obtain ⟨g, hg, rfl⟩ := map_eq_ok.1 hv
    exact (buildVerdict_areas (fun _ _ => placeVerdict_areas) hg).append
      ⟨[], [], [w.key], [], rfl, by simp⟩
  · cases hv
    exact ⟨[], [], [], [], rfl, List.forall_mem_nil _⟩

theorem MultipolygonReady.stay {k k' : KeptRelation} {h : Harvest}
    (hne : k.relation.key ≠ k'.relation.key) (hv : multipolygonVerdict c t k = .ok h)
    (ready : MultipolygonReady t k' s) : MultipolygonReady t k' (s.add h) := by
  have areas := multipolygonVerdict_areas hv
  refine ⟨areas.lookups.trans ready.lookups, areas.new hne ready.new, ?_⟩
  obtain ⟨as, bs, ps, fs, rfl, -⟩ := areas
  simpa [add] using ready.plain

theorem CandidateReady.stay {w w' : Way} {h : Harvest} (hne : w.key ≠ w'.key)
    (hv : candidateVerdict c t w = .ok h) (ready : CandidateReady t w' s) :
    CandidateReady t w' (s.add h) := by
  have areas := candidateVerdict_areas hv
  exact ⟨areas.lookups.trans ready.lookups, areas.new hne ready.new⟩

end StreetMap.Store
