import StreetMap.Proofs.Store.Candidates
import StreetMap.Proofs.Store.Independence
import StreetMap.Standard

/-!
Nodes in several sources.  Where there are no multipolygons, it makes no difference in how many sources the
nodes come, since each candidate is processed once, when the last of its nodes is in, and what its nodes
make does not depend on when that is.
-/

namespace StreetMap.Store

open Outcome (Agree Commutes Ends)

variable {c : Settings} {s t : Store} {w : Way}

def withAreas (areas : List PlacedArea) (processed : List Key) (s : Store) : Store :=
  { s with areas, processed }

/-- The stores are the same, but areas may have come in another order. -/
structure AreasAlike (s t : Store) : Prop where
  others : t = s.withAreas t.areas t.processed
  areas : s.areas.Perm t.areas
  processed : ∀ k, s.isProcessed k = t.isProcessed k

theorem AreasAlike.walkableAreas (h : AreasAlike s t) : s.walkableAreas.Perm t.walkableAreas :=
  (h.areas.filter _).map _

theorem AreasAlike.parkAndRideAreas (h : AreasAlike s t) : s.parkAndRideAreas.Perm t.parkAndRideAreas :=
  (h.areas.filter _).map _

section Independence

variable {areas : List PlacedArea} {processed : List Key}

theorem addNode_commutes (n : Node) : Commutes (withAreas areas processed) (addNode c n) :=
  addNode_altered (fun _ => areas) (fun _ => processed) id n

variable [Limits]

theorem finish_commutes : Commutes (withAreas areas processed) (finish c) :=
  finish_altered (fun _ => areas) (fun _ => processed) id fun _ _ _ _ => rfl

end Independence

section Resolution

variable [Limits] [Geometry]

def areasFrom (c : Settings) (nodes : Table Int Node) (w : Way) : List PlacedArea :=
  match areasOfWay c nodes w with
  | .ok ps => ps
  | .error _ => []

structure Tally (c : Settings) (s : Store) : Prop where
  distinct : (s.candidates.map Way.id).Nodup
  ways : ∀ k ∈ s.processed, k.kind = .way
  decided : WaysDecided c s
  areas : ∃ ws : List Way, ws.Nodup ∧ (∀ w, w ∈ ws ↔ w ∈ s.candidates ∧ w.key ∈ s.processed) ∧
    s.areas = ws.flatMap (areasFrom c s.nodes)

def Resolvable (c : Settings) (s : Store) (w : Way) : Prop :=
  s.hasNodes w.nodeRefs = true → ∃ ps, areasOfWay c s.nodes w = .ok ps

theorem Tally.decision (h : Tally c s) (hw : w ∈ s.candidates) (processed : w.key ∈ s.processed) :
    Decided c s w := by
  obtain ⟨v, hv, hid, decided⟩ := h.decided w.id processed
  obtain rfl : v = w := List.inj_on_of_nodup_map h.distinct hv hw hid
  exact decided

theorem Tally.mono (h : Tally c s) (candidates : t.candidates = s.candidates)
    (nodes : s.nodes <+: t.nodes) (areas : t.areas = s.areas) (processed : t.processed = s.processed) :
    Tally c t where
  distinct := candidates ▸ h.distinct
  ways := processed ▸ h.ways
  decided := h.decided.mono (by simp [processed]) (by simp [candidates]) nodes (by simp [areas])
  areas := by
    obtain ⟨ws, distinct, mem, hareas⟩ := h.areas
    refine ⟨ws, distinct, by rwa [candidates, processed], ?_⟩
    rw [areas, hareas]
    apply List.flatMap_congr
    intro w hw
    have hw := (mem w).1 hw
    rw [areasFrom, areasFrom, areasOfWay_settled (h.decision hw.1 hw.2).complete nodes]

theorem Tally.add {ps : List PlacedArea} (h : Tally c s) (hw : w ∈ s.candidates)
    (new : w.key ∉ s.processed) (complete : s.hasNodes w.nodeRefs = true)
    (worth : areasOfWay c s.nodes w = .ok ps) :
    Tally c { s with areas := s.areas ++ ps, processed := insertNew s.processed w.key } where
  distinct := h.distinct
  ways := by
    intro k hk
    cases mem_insertNew.1 hk with
    | inl hk => exact h.ways k hk
    | inr hk => rw [hk]; rfl
  decided := h.decided.add hw complete worth
  areas := by
    obtain ⟨ws, distinct, mem, hareas⟩ := h.areas
    refine ⟨ws ++ [w], ?_, ?_, ?_⟩
    · refine distinct.append (List.nodup_singleton w) (List.disjoint_singleton.2 fun hw => ?_)
      exact new ((mem w).1 hw).2
    · intro v
      rw [List.mem_append, List.mem_singleton, mem]
      constructor
      · rintro (hv | rfl)
        · exact ⟨hv.1, mem_insertNew.2 (.inl hv.2)⟩
        · exact ⟨hw, mem_insertNew.2 (.inr rfl)⟩
      · rintro ⟨hv, hk⟩
        refine (mem_insertNew.1 hk).imp (⟨hv, ·⟩) fun hk => ?_
        exact List.inj_on_of_nodup_map h.distinct hv hw (congrArg Key.id hk)
    · rw [List.flatMap_append, hareas]
      simp [areasFrom, worth]

structure Prepared (c : Settings) (s : Store) : Prop where
  phase : s.phase = .linesMarked
  settled : Settled c .linesComplete s
  plain : ∀ k ∈ s.relations.values, k.kind ≠ .multipolygon
  tally : Tally c s

theorem Prepared.afterNode (h : Prepared c s) (n : Node) : Prepared c (addNode c n s).state := by
  generalize ht : (addNode c n s).state = t
  have step := addNode_step (c := c) (s := s) n
  rw [ht] at step
  cases step with
  | refused _ _ closed => exact h
  | passed opened plain old => exact h
  | rental opened rental =>
    exact ⟨h.phase, h.settled, h.plain, h.tally.mono rfl List.prefix_rfl rfl rfl⟩
  | node opened plain wanted new =>
    exact ⟨h.phase, h.settled, h.plain, h.tally.mono rfl ⟨_, (Table.put_of_new new).symm⟩ rfl rfl⟩

theorem resolveAreas_of_plain (plain : ∀ k ∈ s.relations.values, k.kind ≠ .multipolygon) :
    (Outcome.forEach (tryMultipolygon c) s.relations.values s).Ends (· = s) :=
  tryMultipolygons_again fun k hk hkind => absurd hkind (plain k hk)

structure Resolved (c : Settings) (s t : Store) : Prop where
  others : ∃ areas processed, t = s.withAreas areas processed
  tally : Tally c t

theorem Resolved.tryCandidate (h : Resolved c s t) (hw : w ∈ s.candidates)
    (resolvable : Resolvable c s w) : (tryCandidate c w t).Ends (Resolved c s) := by
  obtain ⟨⟨areas, processed, rfl⟩, tally⟩ := h
  cases tryCandidate_trial c w (s.withAreas areas processed) with
  | passed waits idle =>
    rw [idle]
    exact ⟨rfl, ⟨_, _, rfl⟩, tally⟩
  | built new complete worth ends =>
    refine ⟨ends.1, ?_⟩
    rw [ends.2]
    exact ⟨⟨_, _, rfl⟩, tally.add hw new complete worth⟩
  | failed new complete worth failed state =>
    obtain ⟨ps, ok⟩ := resolvable complete
    cases worth.symm.trans ok

theorem Resolved.tryCandidate_fails (h : Resolved c s t) (hw : w ∈ s.candidates)
    (stuck : ¬ Resolvable c s w) : (Store.tryCandidate c w t).failure ≠ none := by
  obtain ⟨⟨areas, processed, rfl⟩, tally⟩ := h
  cases tryCandidate_trial c w (s.withAreas areas processed) with
  | passed waits idle =>
    refine absurd (fun complete => ?_) stuck
    cases waits with
    | inl tried =>
      obtain ⟨ps, worth, -⟩ := (tally.decision hw tried).placed
      exact ⟨ps, worth⟩
    | inr incomplete => cases incomplete.symm.trans complete
  | built new complete worth ends => exact absurd (fun _ => ⟨_, worth⟩) stuck
  | failed new complete worth failed state => exact failed

theorem Prepared.resolved (h : Prepared c s) : Resolved c s s := ⟨⟨s.areas, s.processed, rfl⟩, h.tally⟩

theorem resolveAreas_ends (h : Prepared c s) (resolvable : ∀ w ∈ s.candidates, Resolvable c s w) :
    (resolveAreas c s).Ends (Resolved c s) := by
  refine (resolveAreas_of_plain h.plain).andThen ?_
  rintro _ rfl
  exact Outcome.forEach_ends h.resolved fun w hw t ht => ht.tryCandidate hw (resolvable w hw)

theorem pointsComplete_fails (h : Prepared c s) (stuck : ∃ w ∈ s.candidates, ¬ Resolvable c s w) :
    (pointsComplete c s).failure ≠ none := by
  have idle := resolveAreas_of_plain (c := c) h.plain
  have broken : (resolveAreas c s).failure ≠ none := by
    rw [resolveAreas, Outcome.andThen_failure idle.1, idle.2]
    exact Outcome.forEach_fails h.resolved (fun w hw resolvable t ht => ht.tryCandidate hw resolvable)
      (fun w hw stuck t ht => ht.tryCandidate_fails hw stuck) stuck
  rw [pointsComplete_of_open (.inl h.phase), Outcome.andThen_of_failed broken]
  exact broken

theorem pointsComplete_ends (h : Prepared c s) (resolvable : ∀ w ∈ s.candidates, Resolvable c s w) :
    (pointsComplete c s).Ends fun t => ∃ u, Resolved c s u ∧ (∀ w ∈ s.candidates, Waits u w) ∧
      t = { u with phase := .areasResolved } := by
  have ends := resolveAreas_ends h resolvable
  rw [pointsComplete_of_open (.inl h.phase), Ends, Outcome.andThen_failure ends.1,
    Outcome.andThen_state ends.1]
  exact ⟨rfl, _, ends.2, resolveAreas_waits ends.1, rfl⟩

theorem Tally.processed_iff (h : Tally c s) (waits : ∀ w ∈ s.candidates, Waits s w) (k : Key) :
    k ∈ s.processed ↔ ∃ w ∈ s.candidates, w.key = k ∧ s.hasNodes w.nodeRefs = true := by
  constructor
  · intro hk
    obtain ⟨kind, id⟩ := k
    obtain rfl : kind = .way := h.ways _ hk
    obtain ⟨w, hw, rfl, decided⟩ := h.decided id hk
    exact ⟨w, hw, rfl, decided.complete⟩
  · rintro ⟨w, hw, rfl, complete⟩
    refine (waits w hw).resolve_right fun incomplete => ?_
    cases incomplete.symm.trans complete

theorem Resolved.alike {start u v : Store} (hu : Resolved c start u) (hv : Resolved c start v)
    (waitsu : ∀ w ∈ start.candidates, Waits u w) (waitsv : ∀ w ∈ start.candidates, Waits v w) :
    AreasAlike { u with phase := .areasResolved } { v with phase := .areasResolved } := by
  obtain ⟨⟨as, ps, rfl⟩, tallyu⟩ := hu
  obtain ⟨⟨as', ps', rfl⟩, tallyv⟩ := hv
  have processed : ∀ k, k ∈ ps ↔ k ∈ ps' :=
    fun k => (tallyu.processed_iff waitsu k).trans (tallyv.processed_iff waitsv k).symm
  refine ⟨rfl, ?_, fun k => ?_⟩
  · obtain ⟨ws, distinct, mem, hareas⟩ := tallyu.areas
    obtain ⟨ws', distinct', mem', hareas'⟩ := tallyv.areas
    have same : ws.Perm ws' := by
      rw [List.perm_ext_iff_of_nodup distinct distinct']
      intro w
      rw [mem, mem']
      exact and_congr_right fun _ => processed w.key
    change as.Perm as'
    rw [show as = _ from hareas, show as' = _ from hareas']
    exact same.flatMap_right _
  · exact decide_eq_decide.2 (processed k)

theorem pointsComplete_alike (hs : Prepared c s) (ht : Prepared c t)
    (others : ∃ areas processed, t = s.withAreas areas processed) :
    Agree AreasAlike (pointsComplete c s) (pointsComplete c t) := by
  obtain ⟨areas, processed, rfl⟩ := others
  by_cases resolvable : ∀ w ∈ s.candidates, Resolvable c s w
  · obtain ⟨oks, u, hu, waitsu, hsu⟩ := pointsComplete_ends hs resolvable
    obtain ⟨okt, v, hv, waitsv, htv⟩ := pointsComplete_ends ht resolvable
    refine ⟨iff_of_true oks okt, fun _ => ?_⟩
    rw [hsu, htv]
    obtain ⟨⟨as, ps, rfl⟩, tallyv⟩ := hv
    exact hu.alike ⟨⟨as, ps, rfl⟩, tallyv⟩ waitsu waitsv
  · have stuck : ∃ w ∈ s.candidates, ¬ Resolvable c s w := by
      simpa using resolvable
    exact .of_failed (pointsComplete_fails hs stuck) (pointsComplete_fails ht stuck)

end Resolution

section Cutting

variable [Limits] [Geometry]

def addNodes (c : Settings) (ns : List Node) (s : Store) : Outcome Store := addExtract c ⟨ns, [], []⟩ s

theorem addNodes_eq (ns : List Node) :
    addNodes c ns s = ((linesComplete s).andThen (Outcome.forEach (addNode c) ns)).andThen (pointsComplete c) :=
  rfl

structure Twins (c : Settings) (s t : Store) : Prop where
  left : Prepared c s
  right : Prepared c t
  others : ∃ areas processed, t = s.withAreas areas processed

theorem Twins.refl (h : Prepared c s) : Twins c s s := ⟨h, h, s.areas, s.processed, rfl⟩

theorem Prepared.afterNodes (h : Prepared c s) (ns : List Node) :
    Prepared c (Outcome.forEach (addNode c) ns s).state :=
  Outcome.forEach_keeps h fun n _ _ ht => ht.afterNode n

theorem Twins.afterNodes (h : Twins c s t) (ns : List Node) :
    Agree (Twins c) (Outcome.forEach (addNode c) ns s) (Outcome.forEach (addNode c) ns t) := by
  have right := h.right.afterNodes ns
  obtain ⟨areas, processed, rfl⟩ := h.others
  have commutes : Commutes (withAreas areas processed) (Outcome.forEach (addNode c) ns) :=
    .forEach fun n _ => addNode_commutes n
  rw [commutes s] at right ⊢
  exact ⟨.rfl, fun _ => ⟨h.left.afterNodes ns, right, areas, processed, rfl⟩⟩

theorem stuck_mono (nodes : s.nodes <+: t.nodes) (stuck : ¬ Resolvable c s w) : ¬ Resolvable c t w := by
  intro resolvable
  apply stuck
  intro complete
  rw [← areasOfWay_settled complete nodes]
  exact resolvable (hasNodes_mono nodes complete)

theorem addNodes_kept (ns : List Node) (s : Store) :
    (Outcome.forEach (addNode c) ns s).state.candidates = s.candidates ∧
      s.nodes <+: (Outcome.forEach (addNode c) ns s).state.nodes := by
  refine Outcome.forEach_keeps (P := fun t : Store => t.candidates = s.candidates ∧ s.nodes <+: t.nodes)
    ⟨rfl, List.prefix_rfl⟩ fun n _ t ht => ?_
  have step := addNode_step (c := c) (s := t) n
  refine ⟨Eq.trans ?_ ht.1, ht.2.trans step.nodes⟩
  generalize (addNode c n t).state = u at step
  cases step <;> rfl

theorem Resolved.linesMarked {u : Store} (h : Prepared c t) (hu : Resolved c t u) :
    (linesComplete { u with phase := .areasResolved }).Ends fun v => Prepared c v ∧
      ∃ areas processed, v = t.withAreas areas processed := by
  obtain ⟨⟨areas, processed, rfl⟩, tally⟩ := hu
  have ends := linesComplete_again (c := c)
    (s := { t.withAreas areas processed with phase := .areasResolved }) h.settled nofun
  refine ⟨ends.1, ?_⟩
  rw [ends.2]
  refine ⟨⟨rfl, h.settled, h.plain, tally.mono rfl List.prefix_rfl rfl rfl⟩, areas, processed, ?_⟩
  rw [← h.phase]
  rfl

theorem cut_alike {rest : List (List Node)} (h : Twins c s t) :
    Agree AreasAlike ((Outcome.forEach (addNode c) rest.flatten s).andThen (pointsComplete c))
      ((pointsComplete c t).andThen (Outcome.forEach (addNodes c) rest)) := by
  induction rest generalizing s t with
  | nil =>
    change Agree AreasAlike (pointsComplete c s) ((pointsComplete c t).andThen Outcome.done)
    rw [Outcome.andThen_done]
    exact pointsComplete_alike h.left h.right h.others
  | cons ns rest ih =>
    obtain ⟨areas, processed, hst⟩ := h.others
    by_cases resolvable : ∀ w ∈ t.candidates, Resolvable c t w
    · obtain ⟨ok, u, hu, -, hpoints⟩ := pointsComplete_ends h.right resolvable
      obtain ⟨marked, prepared, areas', processed', hlines⟩ := hu.linesMarked h.right
      apply Agree.after ⟨ok, hpoints⟩
      rw [Outcome.forEach_cons, addNodes_eq, Outcome.andThen_assoc, Outcome.andThen_assoc]
      apply Agree.after ⟨marked, hlines⟩
      rw [hlines] at prepared
      have twins : Twins c s (t.withAreas areas' processed') :=
        ⟨h.left, prepared, areas', processed', by rw [hst]; rfl⟩
      rw [List.flatten_cons, Outcome.forEach_append, Outcome.andThen_assoc]
      exact (twins.afterNodes ns).andThen fun _ _ twins => ih twins
    · have stuck : ∃ w ∈ t.candidates, ¬ Resolvable c t w := by simpa using resolvable
      have broken := pointsComplete_fails h.right stuck
      apply Agree.of_failed
      · obtain ⟨w, hw, stuck⟩ := stuck
        rw [hst] at hw stuck
        have kept := addNodes_kept (c := c) (ns :: rest).flatten s
        intro ok
        refine pointsComplete_fails (h.left.afterNodes (ns :: rest).flatten)
          ⟨w, by rw [kept.1]; exact hw, ?_⟩ (Outcome.andThen_failure_eq_none.1 ok).2
        exact stuck_mono (s := s) kept.2 stuck
      · rw [Outcome.andThen_of_failed broken]
        exact broken

end Cutting

section Sources

structure Loading (s : Store) : Prop where
  phase : s.phase = .ingesting
  areas : s.areas = []
  processed : s.processed = []
  keyed : Keyed s

theorem Loading.opened (h : Loading s) : s.phase ≠ .relationsProcessed := by
  rw [h.phase]
  decide

theorem Loading.adds (h : Loading s) (adds : OnlyAdds s.reopened t) (keyed : Keyed t) : Loading t where
  phase := adds.phase
  areas := adds.areas.trans h.areas
  processed := adds.processed.trans h.processed
  keyed := keyed

variable [Limits]

theorem loading_relations (rs : List Relation) : Loading (Outcome.forEach (addRelation c) rs empty).state := by
  refine Outcome.forEach_keeps ⟨rfl, rfl, rfl, .empty⟩ fun r _ s hs => ?_
  exact hs.adds (adds_of_chain (addRelation_chain hs.opened r)) (hs.keyed.addRelation r)

theorem Loading.ways (h : Loading s) (ws : List Way) :
    Loading (Outcome.forEach (addWay c) ws s).state ∧
      (Outcome.forEach (addWay c) ws s).state.relations = s.relations := by
  refine Outcome.forEach_keeps (P := fun t => Loading t ∧ t.relations = s.relations) ⟨h, rfl⟩
    fun w _ t ht => ⟨?_, (addWay_relations w).trans ht.2⟩
  exact ht.1.adds (adds_of_chain (addWay_chain ht.1.opened w)) (ht.1.keyed.addWay w)

theorem finish_areas : (finish c s).state.areas = s.areas ∧ (finish c s).state.processed = s.processed :=
  finish_keeps (P := fun t => t.areas = s.areas ∧ t.processed = s.processed) ⟨rfl, rfl⟩
    ⟨applyRelations_areas, applyRelations_processed⟩ fun _ h => h

theorem AreasAlike.finish (h : AreasAlike s t) : Agree AreasAlike (finish c s) (finish c t) := by
  have kept := finish_areas (c := c) (s := s)
  rw [h.others, finish_commutes]
  refine ⟨.rfl, fun _ => ⟨rfl, ?_, fun k => ?_⟩⟩
  · rw [kept.1]
    exact h.areas
  · rw [isProcessed, kept.2]
    exact h.processed k

variable [Geometry]

theorem Loading.prepared (h : Loading s) (plain : ∀ k ∈ s.relations.values, k.kind ≠ .multipolygon) :
    Prepared c (linesComplete s).state := by
  have settled := linesComplete_settles (c := c) (s := s)
  rw [linesComplete_eq h.opened] at settled ⊢
  refine ⟨rfl, settled rfl, plain, h.keyed.candidates.1, ?_, ?_, [], .nil, ?_, h.areas⟩
  · intro k hk
    rw [Outcome.saying_state, marked, h.processed] at hk
    cases hk
  · intro id hid
    rw [Outcome.saying_state, marked, h.processed] at hid
    cases hid
  · intro w
    rw [Outcome.saying_state, marked, h.processed]
    simp

def addLines (c : Settings) (ways : List Way) (relations : List Relation) : Outcome Store :=
  ((Outcome.forEach (addRelation c) relations empty).andThen (Outcome.forEach (addWay c) ways)).andThen
    linesComplete

theorem addLines_prepared {ways : List Way} {relations : List Relation}
    (plain : ∀ k ∈ (Outcome.forEach (addRelation c) relations empty).state.relations.values,
      k.kind ≠ .multipolygon) (ok : (addLines c ways relations).failure = none) :
    Prepared c (addLines c ways relations).state := by
  rw [addLines, Outcome.andThen_failure_eq_none, Outcome.andThen_failure_eq_none] at ok
  rw [addLines, Outcome.andThen_state (Outcome.andThen_failure_eq_none.2 ok.1),
    Outcome.andThen_state ok.1.1]
  have ways := (loading_relations (c := c) relations).ways (c := c) ways
  apply ways.1.prepared
  rw [ways.2]
  exact plain

/-- Where no relation of a source is kept as a multipolygon, it makes no difference to what is kept, before
and after the end of the load, whether all nodes come with the source or some of them come later, in any
number of sources. -/
theorem node_sources_alike {relations : List Relation}
    (plain : ∀ k ∈ (Outcome.forEach (addRelation c) relations empty).state.relations.values,
      k.kind ≠ .multipolygon) (ways : List Way) (first : List Node) (rest : List (List Node)) :
    let whole := addExtract c ⟨first ++ rest.flatten, ways, relations⟩ empty
    let parts := (addExtract c ⟨first, ways, relations⟩ empty).andThen
      (Outcome.forEach (fun ns => addExtract c ⟨ns, [], []⟩) rest)
    Agree AreasAlike whole parts ∧ Agree AreasAlike (whole.andThen (finish c)) (parts.andThen (finish c)) := by
  intro whole parts
  have alike : Agree AreasAlike whole parts := by
    have whole_eq : whole = (addLines c ways relations).andThen fun s =>
        (Outcome.forEach (addNode c) first s).andThen fun s =>
          (Outcome.forEach (addNode c) rest.flatten s).andThen (pointsComplete c) := by
      refine (Outcome.andThen_assoc (addLines c ways relations) _ _).trans ?_
      congr 1
      funext s
      rw [Outcome.forEach_append, Outcome.andThen_assoc]
    have parts_eq : parts = (addLines c ways relations).andThen fun s =>
        (Outcome.forEach (addNode c) first s).andThen fun s =>
          (pointsComplete c s).andThen (Outcome.forEach (addNodes c) rest) := by
      refine (Outcome.andThen_assoc _ _ _).trans ((Outcome.andThen_assoc _ _ _).trans ?_)
      rfl
    rw [whole_eq, parts_eq]
    refine (Agree.refl (addLines_prepared plain)).andThen ?_
    rintro s _ ⟨rfl, prepared⟩
    refine (Agree.refl fun _ => prepared.afterNodes first).andThen ?_
    rintro s _ ⟨rfl, prepared⟩
    exact cut_alike (.refl prepared)
  exact ⟨alike, alike.andThen fun s t h => h.finish⟩

end Sources

open Standard

def twoCarParks : List Way := [⟨10, [1, 2, 3, 1], carPark⟩, ⟨11, [4, 5, 6, 4], carPark⟩]

def twoStoreys : Relation := ⟨30, [], [("type", .text "level_map"), ("levels", .text "0=G;1=U")]⟩

def nodeAt (id : Int) (lon lat : Float) : Node := ⟨id, ⟨lon, lat⟩, []⟩

theorem twoCarParks_alike :
    let first := [nodeAt 1 0 0, nodeAt 2 1 0]
    let rest := [[nodeAt 4 5 5, nodeAt 5 6 5, nodeAt 6 5 6], [nodeAt 1 9 9, nodeAt 3 0 1]]
    let whole := addExtract .default ⟨first ++ rest.flatten, twoCarParks, [twoStoreys]⟩ empty
    let parts := (addExtract .default ⟨first, twoCarParks, [twoStoreys]⟩ empty).andThen
      (Outcome.forEach (fun ns => addExtract .default ⟨ns, [], []⟩) rest)
    whole.state.parkAndRideAreas.map (fun a => a.parent.key.id) = [10, 11] ∧
      parts.state.parkAndRideAreas.map (fun a => a.parent.key.id) = [11, 10] ∧
      whole.state.parkAndRideAreas.Perm parts.state.parkAndRideAreas ∧
      AreasAlike (whole.andThen (finish .default)).state (parts.andThen (finish .default)).state := by
  intro first rest whole parts
  have plain : ∀ k ∈ (Outcome.forEach (addRelation .default) [twoStoreys] empty).state.relations.values,
      k.kind ≠ .multipolygon := by decide +kernel
  have alike := node_sources_alike plain twoCarParks first rest
  have loaded : AreasAlike whole.state parts.state := alike.1.2 (by decide +kernel)
  exact ⟨by decide +kernel, by decide +kernel, loaded.parkAndRideAreas, alike.2.2 (by decide +kernel)⟩

end StreetMap.Store
