import StreetMap.Proofs.Store.Boundary
import StreetMap.Proofs.Store.Independence
import StreetMap.Proofs.Store.IntakeLevel

/-!
The numbering of floors.  It shows in the names of levels from tags and nowhere else: no step looks at such a
name, so that loads which differ in the numbering alone lead to stores that differ in these names alone.
-/

namespace StreetMap

/-- The settings with floors numbered in some way. -/
def Settings.numbered (c : Settings) (n : FloorNumbering) : Settings := { c with floorNumbering := n }

namespace Outcome

variable {σ α : Type} {g : σ → σ} {f f' : σ → Outcome σ}

def Mirrors (g : σ → σ) (o o' : Outcome σ) : Prop :=
  o.failure = none → o'.failure = none → o.state = g o'.state

theorem Commutes.mirrors (hf : Commutes g f) (s : σ) : Mirrors g (f (g s)) (f s) :=
  fun _ _ => congrArg Outcome.state (hf s)

theorem Mirrors.andThen {o o' : Outcome σ} (ho : Mirrors g o o') (hf : ∀ s, Mirrors g (f (g s)) (f' s)) :
    Mirrors g (o.andThen f) (o'.andThen f') := by
  intro ok ok'
  rw [andThen_failure_eq_none] at ok ok'
  rw [andThen_state ok.1, andThen_state ok'.1]
  rw [ho ok.1 ok'.1] at ok ⊢
  exact hf _ ok.2 ok'.2

theorem Mirrors.forEach {f f' : α → σ → Outcome σ} {xs : List α}
    (hf : ∀ x ∈ xs, ∀ s, Mirrors g (f x (g s)) (f' x s)) (s : σ) :
    Mirrors g (forEach f xs (g s)) (forEach f' xs s) := by
  induction xs generalizing s with
  | nil => exact fun _ _ => rfl
  | cons x xs ih => exact (hf x List.mem_cons_self s).andThen (ih fun y hy => hf y (List.mem_cons_of_mem _ hy))

end Outcome

namespace Store

open Outcome (Commutes Mirrors)
open Level

variable [Limits] {c : Settings} {s : Store}

/-- The store as it is where floors of tags are counted from one. -/
def raised : Store → Store := altered id id (List.map fun row => (row.1, row.2.raised))

theorem raised_level? (s : Store) (k : Key) : s.raised.level? k = (s.level? k).map Level.raised :=
  Table.get?_mapValues _ _ _

theorem raised_has_level (s : Store) (k : Key) : s.raised.levels.has k = s.levels.has k := by
  rw [Table.has, Table.has, show s.raised.levels.get? k = _ from raised_level? s k, Option.isSome_map]
  rfl

section Intake

theorem levelOfTag_raised {k : Key} {source : LevelSource} {v : Json} {shown l : Level}
    (tag : source = .levelTag ∨ source = .layerTag)
    (us : (levelOfTag true k source v).result = .ok shown)
    (literal : (levelOfTag false k source v).result = .ok l) :
    shown = l.raised ∧
      (levelOfTag true k source v).findings = (levelOfTag false k source v).findings := by
  obtain ⟨spec, rfl, level, doubt, hr, rfl, findings⟩ := levelOfTag_eq_ok us
  obtain ⟨_, ⟨⟩, level', doubt', hr', rfl, findings'⟩ := levelOfTag_eq_ok literal
  obtain ⟨rfl, -⟩ := read_raised tag hr hr'
  rw [findings, findings', raised_reliable]
  refine ⟨?_, rfl⟩
  split
  · rfl
  · exact (raised_of_other (by decide)).symm

theorem levelOf_raised {k : Key} {t : Tags} {shown l : Level}
    (us : (levelOf true k t).result = .ok shown) (literal : (levelOf false k t).result = .ok l) :
    shown = l.raised ∧ (levelOf true k t).findings = (levelOf false k t).findings := by
  rw [levelOf] at us literal ⊢
  rw [levelOf]
  cases hl : t.get? "level" with
  | some v =>
    rw [hl] at us literal
    exact levelOfTag_raised (.inl rfl) us literal
  | none =>
    rw [hl] at us literal
    cases hy : t.get? "layer" with
    | some v =>
      rw [hy] at us literal
      exact levelOfTag_raised (.inr rfl) us literal
    | none =>
      rw [hy] at us literal
      cases us
      cases literal
      exact ⟨(raised_of_other (by decide)).symm, rfl⟩

theorem resolveLevel_mirrors (k : Key) (t : Tags) (s : Store) :
    Mirrors raised (resolveLevel (c.numbered .us) k t s.raised) (resolveLevel (c.numbered .literal) k t s) := by
  intro ok ok'
  cases known : s.levels.has k with
  | true =>
    rw [resolveLevel, resolveLevel, if_pos known, if_pos ((raised_has_level s k).trans known)]
    rfl
  | false =>
    have new : s.raised.levels.has k = false := (raised_has_level s k).trans known
    cases us : (levelOf (c.numbered .us).raisesFloors k t).result with
    | error e =>
      rw [resolveLevel_of_error new us] at ok
      cases ok
    | ok shown =>
      cases literal : (levelOf (c.numbered .literal).raisesFloors k t).result with
      | error e =>
        rw [resolveLevel_of_error known literal] at ok'
        cases ok'
      | ok l =>
        obtain ⟨rfl, findings⟩ := levelOf_raised us literal
        have same : (levelOf (c.numbered .us).raisesFloors k t).findings =
          (levelOf (c.numbered .literal).raisesFloors k t).findings := findings
        rw [(resolveLevel_of_ok new us).2, (resolveLevel_of_ok known literal).2, same]
        simp only [raised, altered, Table.mapValues_put, id]

theorem keepWay_raised (w : Way) : Commutes raised (keepWay c w) := by
  intro s
  rw [keepWay_eq, keepWay_eq, show s.raised.areaWayIds = s.areaWayIds from rfl]
  cases bucketOf c (w.id ∈ s.areaWayIds) w with
  | error e => rfl
  | ok b =>
    cases b with
    | none => rfl
    | some b =>
      cases b with
      | plain => exact progress_commutes (g := raised) _ _ _ (stored w .plain s)
      | member => rfl
      | candidate => rfl

theorem putRelation_raised (r : Relation) (kind : RelationKind) : Commutes raised (putRelation c r kind) :=
  fun s => progress_commutes (g := raised) _ _ _ { s with relations := s.relations.put r.id ⟨r, kind⟩ }

theorem addWay_mirrors (w : Way) (s : Store) :
    Mirrors raised (addWay (c.numbered .us) w s.raised) (addWay (c.numbered .literal) w s) := by
  by_cases closed : s.phase = .relationsProcessed
  · intro _ ok
    rw [addWay_of_closed closed] at ok
    cases ok
  · rw [addWay_eq closed, addWay_eq (s := s.raised) closed]
    change Mirrors raised (if (s.ways.has w.id || s.areaWays.has w.id) = true then _ else _) _
    split
    · exact fun _ _ => rfl
    · exact (resolveLevel_mirrors w.key w.tags s.reopened).andThen (keepWay_raised (c := c) w).mirrors

theorem addRelation_mirrors (r : Relation) (s : Store) :
    Mirrors raised (addRelation (c.numbered .us) r s.raised) (addRelation (c.numbered .literal) r s) := by
  by_cases closed : s.phase = .relationsProcessed
  · intro _ ok
    rw [addRelation_of_closed closed] at ok
    cases ok
  · rw [addRelation_eq closed, addRelation_eq (s := s.raised) closed]
    change Mirrors raised (if s.relations.has r.id = true then _ else _) _
    split
    · exact fun _ _ => rfl
    · change Mirrors raised (Outcome.withValue _ (admission c r.tags) _) (Outcome.withValue _ (admission c r.tags) _)
      cases admission c r.tags with
      | error e => exact fun _ _ => rfl
      | ok kind =>
        cases kind with
        | none => exact fun _ _ => rfl
        | some kind =>
          rw [Outcome.withValue_ok, Outcome.withValue_ok]
          dsimp only [takeIn]
          split
          · exact (resolveLevel_mirrors r.key r.tags (markMembers r s.reopened)).andThen
              (putRelation_raised (c := c) r kind).mirrors
          · exact (putRelation_raised (c := c) r kind).mirrors s.reopened

theorem linesComplete_raised : Commutes raised linesComplete := by
  intro s
  by_cases closed : s.phase = .relationsProcessed
  · rw [linesComplete_of_closed closed, linesComplete_of_closed (s := s.raised) closed]
    rfl
  · rw [linesComplete_eq closed, linesComplete_eq (s := s.raised) closed]
    rfl

end Intake

section Areas

theorem place_raised (a : Area) : Commutes raised (place c a) := by
  intro s
  rw [place, place]
  cases c.permissions a.parent.tags .pedestrianAndBicycle with
  | error e => rfl
  | ok p =>
    cases c.isElementRoutable a.parent.tags with
    | error e => rfl
    | ok routable =>
      simp only [Outcome.withValue_ok]
      cases a.parent.tags.isParkAndRide with
      | error e =>
        dsimp only
        split <;> rfl
      | ok parkAndRide =>
        dsimp only
        split <;> rfl

theorem copyToMembers_raised (r : Relation) (s : Store) :
    copyToMembers r s.raised = (copyToMembers r s).raised := by
  rw [copyToMembers, copyToMembers]
  induction r.wayMembers generalizing s with
  | nil => rfl
  | cons m ms ih =>
    have first : retag m.ref (copyTags r.tags) s.raised = (retag m.ref (copyTags r.tags) s).raised := by
      rw [retag, retag, show s.raised.ways = s.ways from rfl]
      split <;> rfl
    rw [List.foldl_cons, List.foldl_cons, first, ih]

variable [Geometry]

theorem buildArea_raised {what : String} {parent : Parent} {outer inner : List Way}
    {f : Area → Store → Outcome Store} (hf : ∀ a, Commutes raised (f a)) :
    Commutes raised fun s => buildArea what parent outer inner s f := by
  intro s
  dsimp only
  rw [buildArea, buildArea, show s.raised.nodes = s.nodes from rfl]
  cases Area.build parent (outer.map Way.nodeRefs) (inner.map Way.nodeRefs) s.nodes with
  | ok a => exact hf a s
  | error e =>
    dsimp only
    split
    · cases Json.number (skippingText what parent.key e) <;> rfl
    · rfl

theorem tryMultipolygon_raised (k : KeptRelation) : Commutes raised (tryMultipolygon c k) := by
  intro s
  rw [tryMultipolygon, tryMultipolygon, show s.raised.isProcessed = s.isProcessed from rfl]
  split
  · rfl
  · rw [resolveMultipolygon, resolveMultipolygon]
    have gathered : gather (markProcessed k.relation.key s.raised) = gather (markProcessed k.relation.key s) := by
      funext r ms b
      exact gather_congr (SameLookups.mk (s := markProcessed k.relation.key s.raised)
        (t := markProcessed k.relation.key s) (fun _ => rfl) fun _ => rfl) r ms b
    rw [gathered]
    refine absorb_commutes (g := raised) (fun _ _ => rfl) _ (fun b _ => ?_) (markProcessed k.relation.key s)
    cases b with
    | none => exact fun _ => rfl
    | some b =>
      refine buildArea_raised fun a s => ?_
      rw [foldl_bound_eq, foldl_bound_eq]
      refine ((place_raised a).andThen fun s => ?_) { s with boundsAt := addBounds s.boundsAt _ }
      rw [copyToMembers_raised]
      rfl

theorem tryCandidate_raised (w : Way) : Commutes raised (tryCandidate c w) := by
  intro s
  rw [tryCandidate, tryCandidate, show s.raised.isProcessed = s.isProcessed from rfl,
    show s.raised.hasNodes = s.hasNodes from rfl]
  split
  · rfl
  · exact ((buildArea_raised place_raised).andThen fun _ => rfl) s

theorem pointsComplete_raised : Commutes raised (pointsComplete c) := by
  intro s
  by_cases opened : s.phase = .linesMarked ∨ s.phase = .areasResolved
  · have multipolygons : Commutes raised (Outcome.forEach (tryMultipolygon c) s.relations.values) :=
      .forEach fun k _ => tryMultipolygon_raised k
    have candidates : Commutes raised fun s => Outcome.forEach (tryCandidate c) s.candidates s := by
      intro s
      have all : Commutes raised (Outcome.forEach (tryCandidate c) s.candidates) :=
        .forEach fun w _ => tryCandidate_raised w
      exact all s
    rw [pointsComplete_of_open opened, pointsComplete_of_open (s := s.raised) opened]
    exact ((multipolygons.andThen candidates).andThen fun _ => rfl) s
  · rw [pointsComplete_of_closed opened, pointsComplete_of_closed (s := s.raised) opened]
    rfl

end Areas

section Runs

theorem finish_raised : Commutes raised (finish c) :=
  finish_altered _ _ _ fun ls k l ofMap => by
    have kept : l.raised = l := raised_of_other (by rw [ofMap]; decide)
    rw [Table.mapValues_put, kept]

variable [Geometry]

theorem call_mirrors {op : Operation} (single : op.IsCall) (s : Store) :
    Mirrors raised (apply (c.numbered .us) op s.raised) (apply (c.numbered .literal) op s) := by
  cases op with
  | load document => cases single
  | addNode n => exact (addNode_altered (c := c) _ _ _ n).mirrors s
  | addWay w => exact addWay_mirrors w s
  | addRelation r => exact addRelation_mirrors r s
  | linesComplete => exact linesComplete_raised.mirrors s
  | pointsComplete => exact (pointsComplete_raised (c := c)).mirrors s
  | finish => exact (finish_raised (c := c)).mirrors s

theorem apply_mirrors (op : Operation) (s : Store) :
    Mirrors raised (apply (c.numbered .us) op s.raised) (apply (c.numbered .literal) op s) := by
  cases op with
  | load document =>
    change Mirrors raised (loadDocument _ document s.raised) (loadDocument _ document s)
    cases hx : (Extract.ofDocument document).result with
    | error e =>
      intro ok _
      rw [(loadDocument_of_error hx).2] at ok
      cases ok
    | ok x =>
      rw [Mirrors, (loadDocument_of_ok hx).1, (loadDocument_of_ok hx).1, (loadDocument_of_ok hx).2,
        (loadDocument_of_ok hx).2]
      exact Mirrors.forEach (fun op hop => call_mirrors (isCall_of_mem_operations hop)) s
  | _ => exact call_mirrors (by trivial) s

theorem run_raised {ops : List Operation}
    (us : (Outcome.forEach (apply (c.numbered .us)) ops empty).failure = none)
    (literal : (Outcome.forEach (apply (c.numbered .literal)) ops empty).failure = none) :
    run (c.numbered .us) ops empty = (run (c.numbered .literal) ops empty).raised := by
  rw [(history_ok us).1, (history_ok literal).1]
  exact Mirrors.forEach (fun op _ => apply_mirrors op) empty us literal

end Runs

end Store

end StreetMap
