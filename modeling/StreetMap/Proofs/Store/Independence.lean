import StreetMap.Proofs.Level
import StreetMap.Proofs.Store.Frame

/-!
Independence.  An operation that neither looks at a part of the store nor changes it does the same whatever
stands there.  This is said of changes to that part: they commute with the operation.
-/

namespace StreetMap

namespace Outcome

variable {σ α : Type} {g : σ → σ} {f : σ → Outcome σ}

def map (g : σ → σ) (o : Outcome σ) : Outcome σ := { o with state := g o.state }

def Commutes (g : σ → σ) (f : σ → Outcome σ) : Prop := ∀ s, f (g s) = (f s).map g

@[simp] theorem map_state (g : σ → σ) (o : Outcome σ) : (o.map g).state = g o.state := rfl

@[simp] theorem map_failure (g : σ → σ) (o : Outcome σ) : (o.map g).failure = o.failure := rfl

theorem map_andThen (hf : Commutes g f) (o : Outcome σ) : (o.map g).andThen f = (o.andThen f).map g := by
  obtain ⟨s, log, e⟩ := o
  cases e with
  | some e => rfl
  | none => simp only [andThen, map, hf s]

theorem Commutes.andThen {f' : σ → Outcome σ} (hf : Commutes g f) (hf' : Commutes g f') :
    Commutes g fun s => (f s).andThen f' := by
  intro s
  dsimp only
  rw [hf s, map_andThen hf']

theorem Commutes.forEach {f : α → σ → Outcome σ} {xs : List α} (hf : ∀ x ∈ xs, Commutes g (f x)) :
    Commutes g (forEach f xs) := by
  induction xs with
  | nil => exact fun _ => rfl
  | cons x xs ih =>
    apply (hf x List.mem_cons_self).andThen
    exact ih fun y hy => hf y (List.mem_cons_of_mem _ hy)

end Outcome

namespace Store

open Outcome (Commutes)

variable {c : Settings} {g : Store → Store}

theorem progress_commutes (interval : Json) (label : String) (n : Nat) :
    Commutes g (progress interval label n) := by
  intro s
  rw [progress, progress]
  cases Settings.isMultiple n interval with
  | error e => rfl
  | ok hit => cases hit <;> rfl

theorem absorb_commutes {α : Type} {f : α → Store → Outcome Store}
    (record : ∀ s log, g (s.record log) = (g s).record log) (x : Logged α)
    (hf : ∀ a, x.result = .ok a → Commutes g (f a)) : Commutes g fun s => s.absorb x f := by
  intro s
  dsimp only [Store.absorb]
  rw [← record]
  cases hx : x.result with
  | error e => rfl
  | ok a => simp only [hf a hx _, Outcome.map]

structure Aside (g : Store → Store) : Prop where
  ways : ∀ s, (g s).ways = s.ways
  fromTurns : ∀ s, (g s).fromTurns = s.fromTurns
  toTurns : ∀ s, (g s).toTurns = s.toTurns
  setWays : ∀ s ways, g { s with ways } = { g s with ways }
  setTurns : ∀ s fromTurns toTurns, g { s with fromTurns, toTurns } = { g s with fromTurns, toTurns }
  putLevel : ∀ s k l, l.source = .levelMap →
    g { s with levels := s.levels.put k l } = { g s with levels := (g s).levels.put k l }
  record : ∀ s log, g (s.record log) = (g s).record log

namespace Aside

theorem listOnWay (hg : Aside g) (r : Relation) (key : String) (tag : Json) (id : Int) :
    Commutes g (listOnWay c r key tag id) := by
  intro s
  rw [Store.listOnWay, Store.listOnWay, hg.ways]
  split
  · rename_i value w _ _
    cases addToList c.routeSeparator tag value w.tags with
    | error e => rfl
    | ok t => exact congrArg Outcome.done (hg.setWays s _).symm
  · rfl

theorem applyRoute (hg : Aside g) (r : Relation) : Commutes g (applyRoute c r) :=
  .forEach fun _ _ => .andThen (hg.listOnWay r _ _ _) (hg.listOnWay r _ _ _)

end Aside

def altered (areas : List PlacedArea → List PlacedArea) (processed : List Key → List Key)
    (levels : Table Key Level → Table Key Level) (s : Store) : Store :=
  { s with areas := areas s.areas, processed := processed s.processed, levels := levels s.levels }

variable (areas : List PlacedArea → List PlacedArea) (processed : List Key → List Key)
  (levels : Table Key Level → Table Key Level)

theorem addNode_altered (n : Node) : Commutes (altered areas processed levels) (addNode c n) := by
  intro s
  by_cases closed : s.phase = .relationsProcessed
  · rw [addNode_of_closed closed, addNode_of_closed (s := s.altered areas processed levels) closed]
    rfl
  · rw [addNode_eq closed, addNode_eq (s := s.altered areas processed levels) closed]
    by_cases rental : n.tags.isBikeRental = true
    · rw [if_pos rental, if_pos rental]
      rfl
    · rw [if_neg rental, if_neg rental]
      change (if (s.wants n && !s.nodes.has n.id) = true then _ else _) = _
      split
      · exact progress_commutes (g := altered areas processed levels) _ _ _
          { s with nodes := s.nodes.put n.id n }
      · rfl

variable [Limits]

theorem source_of_levelsOf {r : Relation} {levels : Table String Level} {name : String} {l : Level}
    (h : (levelsOf r).result = .ok levels) (hl : levels.get? name = some l) : l.source = .levelMap := by
  rw [levelsOf] at h
  split at h
  · exact Level.source_of_readMap h hl
  · rw [Logged.bind_result] at h
    obtain ⟨list, -, h⟩ := bind_eq_ok.1 h
    exact Level.source_of_readMap h hl

theorem levelInRole_eq_some {r : Relation} {levels : Table String Level} {m : Member} {l : Level}
    (h : (levelInRole r levels m).result = .ok (some l)) : ∃ name, levels.get? name = some l := by
  have missing : (levelInRole.missing r m).result ≠ .ok (some l) := by
    intro h
    rw [levelInRole.missing, Logged.bind_result] at h
    obtain ⟨-, -, h⟩ := bind_eq_ok.1 h
    cases h
  rw [levelInRole] at h
  split at h
  · split at h
    · rename_i found
      cases h
      exact ⟨_, found⟩
    · exact absurd h missing
  · split at h
    · exact absurd h missing
    · cases h

namespace Aside

theorem applyRestriction (hg : Aside g) (r : Relation) : Commutes g (applyRestriction r) := by
  refine absorb_commutes hg.record _ fun found _ s => ?_
  obtain _ | ⟨ends, turn⟩ := found
  · rfl
  · dsimp only
    rw [hg.fromTurns, hg.toTurns]
    exact congrArg Outcome.done (hg.setTurns s _ _).symm

theorem applyLevel (hg : Aside g) {r : Relation} {levels : Table String Level}
    (ofMap : ∀ name l, levels.get? name = some l → l.source = .levelMap) (m : Member) :
    Commutes g (applyLevel r levels m) := by
  intro s
  rw [Store.applyLevel, Store.applyLevel, hg.ways]
  split
  · rfl
  · cases Json.number m.role.shown with
    | error e => rfl
    | ok role =>
      dsimp only [Outcome.withValue]
      split
      · rfl
      · refine absorb_commutes hg.record _ (fun level h s => ?_) s
        cases level with
        | none => rfl
        | some l =>
          obtain ⟨name, hl⟩ := levelInRole_eq_some h
          exact congrArg Outcome.done (hg.putLevel s _ l (ofMap name l hl)).symm

theorem applyLevelMap (hg : Aside g) (r : Relation) : Commutes g (applyLevelMap r) :=
  absorb_commutes hg.record _ fun _ h => .forEach fun m _ => hg.applyLevel (fun _ _ => source_of_levelsOf h) m

theorem applyRelation (hg : Aside g) (k : KeptRelation)
    (stops : k.kind = .stopArea → Commutes g (applyStopArea k.relation)) : Commutes g (applyRelation c k) := by
  obtain ⟨r, kind⟩ := k
  cases kind with
  | multipolygon => exact fun _ => rfl
  | restriction => exact hg.applyRestriction r
  | levelMap => exact hg.applyLevelMap r
  | roadRoute => exact hg.applyRoute r
  | stopArea => exact stops rfl

end Aside

theorem applyStopArea_altered (r : Relation) :
    Commutes (altered areas processed levels) (applyStopArea r) := by
  intro s
  have platforms : platformsOf (s.altered areas processed levels) r = platformsOf s r := rfl
  have nodes : platformNodes (s.altered areas processed levels) r = platformNodes s r := rfl
  rw [applyStopArea, applyStopArea, platforms, nodes]
  have told (problem : String) : Commutes (altered areas processed levels) fun s =>
      s.absorb (unresolvedStops r problem) fun _ s => Outcome.done s :=
    absorb_commutes (fun _ _ => rfl) _ fun _ _ _ => rfl
  generalize platformsOf s r = ks, platformNodes s r = ns
  split
  · rfl
  · exact told _ s
  · exact told _ s

theorem finish_altered (put : ∀ ls k l, l.source = .levelMap →
    levels (Table.put ls k l) = (levels ls).put k l) :
    Commutes (altered areas processed levels) (finish c) := by
  have aside : Aside (altered areas processed levels) := by
    refine ⟨fun _ => rfl, fun _ => rfl, fun _ => rfl, fun _ _ => rfl, fun _ _ _ => rfl, ?_, fun _ _ => rfl⟩
    intro s k l ofMap
    simp only [altered, put _ k l ofMap]
  intro s
  by_cases resolved : s.phase = .areasResolved
  · have applied : Commutes (altered areas processed levels)
        (Outcome.forEach (applyRelation c) s.relations.values) :=
      .forEach fun k _ => aside.applyRelation k fun _ => applyStopArea_altered _ _ _ k.relation
    rw [finish, finish, if_pos resolved,
      if_pos (show (s.altered areas processed levels).phase = _ from resolved)]
    exact ((Commutes.andThen (fun _ => rfl) applied).andThen fun _ => rfl) s
  · rw [finish_of_closed resolved, finish_of_closed (s := s.altered areas processed levels) resolved]
    rfl

end Store

end StreetMap
