import StreetMap.Proofs.Messages
import StreetMap.Proofs.Tags
import StreetMap.Proofs.Store.Keyed
import StreetMap.Proofs.Store.TurnIndex
import StreetMap.Standard

/-!
The end of a load.  Where tags and roles are text, as they should be, one thing can stop the relations from
being applied: a level map with a level that cannot be read.  Without such a map the end of a load is
refused, and changes nothing, or does all of its work; so no turn restriction is indexed twice.
-/

namespace StreetMap

def Relation.IsText (r : Relation) : Prop := r.tags.AllText ∧ ∀ m ∈ r.members, ∃ role, m.role = .text role

/-- The tags for routes have text for names, and what separates routes there is text that is not empty. -/
def Settings.HasTextRoutes (c : Settings) : Prop :=
  ∃ name ref separator, c.routeNameTag = .text name ∧ c.routeRefTag = .text ref ∧
    c.routeSeparator = .text separator ∧ separator ≠ ""

namespace Store

variable {c : Settings} {s t : Store} {op : Operation}

section Text

def Operation.IsText : Operation → Prop
  | .addWay w => w.tags.AllText
  | .addRelation r => r.IsText
  | _ => True

structure OfText (s : Store) : Prop where
  ways : ∀ w ∈ s.ways.values, w.tags.AllText
  relations : ∀ k ∈ s.relations.values, k.relation.IsText

theorem OfText.empty : OfText empty := ⟨List.forall_mem_nil _, List.forall_mem_nil _⟩

theorem OfText.of_same (h : OfText s) (ways : t.ways = s.ways) (relations : t.relations = s.relations) :
    OfText t := by
  constructor
  · rw [ways]
    exact h.ways
  · rw [relations]
    exact h.relations

theorem OfText.putWay {w : Way} (h : OfText s) (text : w.tags.AllText) (id : Int) :
    OfText { s with ways := s.ways.put id w } where
  ways := fun v hv => (Table.mem_values_put hv).elim (fun e => e ▸ text) (h.ways v)
  relations := h.relations

theorem OfText.stored {w : Way} (h : OfText s) (text : w.tags.AllText) (b : Bucket) :
    OfText (stored w b s) := by
  cases b with
  | plain => exact h.putWay text w.id
  | member => exact h.of_same rfl rfl
  | candidate => exact h.of_same rfl rfl

theorem copyTags_of_text {source t : Tags} (hs : source.AllText) (ht : t.AllText) :
    (copyTags source t).AllText := by
  have copied : ∀ t : Tags, t.AllText → (copiedTags.foldl (copyTag source) t).AllText := by
    intro t ht
    refine List.foldlRecOn copiedTags (copyTag source) ht fun t ht key _ => ?_
    rw [copyTag]
    split
    · rename_i v hv
      obtain ⟨v, rfl⟩ := hs.of_get? hv
      split
      · exact ht
      · exact ht.put key v
    · exact ht
  refine List.foldlRecOn copiedPlatformTags (copyPlatformTag source) (copied t ht) fun t ht tag _ => ?_
  rw [copyPlatformTag]
  split
  · exact ht.put tag.1 tag.2
  · exact ht

theorem OfText.place (h : OfText s) (a : Area) : OfText (place c a s).state := by
  obtain ⟨as, hs⟩ := place_frame (c := c) (s := s) a
  rw [hs]
  exact h.of_same rfl rfl

theorem OfText.copyToMembers {r : Relation} (h : OfText s) (text : r.tags.AllText) :
    OfText (copyToMembers r s) := by
  refine List.foldlRecOn r.wayMembers _ h fun s hs m _ => ?_
  rw [retag]
  split
  · exact hs
  · rename_i w hw
    exact hs.putWay (copyTags_of_text text (hs.ways w (Table.mem_values_of_get? hw))) m.ref

variable [Limits]

theorem OfText.addWay {w : Way} (h : OfText s) (text : w.tags.AllText) : OfText (addWay c w s).state := by
  by_cases closed : s.phase = .relationsProcessed
  · rw [addWay_of_closed closed]
    exact h
  · obtain ⟨ls, as, -, hs⟩ := addWay_frame (c := c) closed w
    have hl : OfText { s.reopened with levels := ls, anomalies := as } := h.of_same rfl rfl
    rcases hs with hs | ⟨b, hs⟩
    · rw [hs]
      exact hl
    · rw [hs]
      exact hl.stored text b

theorem OfText.addRelation {r : Relation} (h : OfText s) (text : r.IsText) :
    OfText (addRelation c r s).state := by
  by_cases closed : s.phase = .relationsProcessed
  · rw [addRelation_of_closed closed]
    exact h
  · obtain ⟨ids, ls, as, hs | ⟨kind, -, hs⟩⟩ := addRelation_frame (c := c) closed r
    · rw [hs]
      exact h.of_same rfl rfl
    · rw [hs]
      exact ⟨h.ways, fun k hk => (Table.mem_values_put hk).elim (fun e => e ▸ text) (h.relations k)⟩

variable [Geometry]

theorem OfText.buildArea {what : String} {parent : Parent} {outer inner : List Way}
    {f : Area → Store → Outcome Store} (h : OfText s) (hf : ∀ a, OfText (f a s).state) :
    OfText (buildArea what parent outer inner s f).state := by
  rw [Store.buildArea]
  split
  · exact hf _
  · split
    · exact withValue_keeps h fun _ _ => h
    · exact h

theorem OfText.tryMultipolygon {k : KeptRelation} (h : OfText s) (text : k.relation.tags.AllText) :
    OfText (tryMultipolygon c k s).state := by
  rw [Store.tryMultipolygon]
  split
  · exact h
  · have noted : ∀ log : Log, OfText ((markProcessed k.relation.key s).record log) :=
      fun log => h.of_same rfl rfl
    refine absorb_keeps (noted _) fun b _ => ?_
    cases b with
    | none => exact noted _
    | some b =>
      refine (noted _).buildArea fun a => ?_
      obtain ⟨bounds, hb⟩ := bounds_frame (b.outer ++ b.inner) _
      rw [hb]
      refine Outcome.andThen_keeps (OfText.place ?_ a) fun t ht => ht.copyToMembers text
      exact h.of_same rfl rfl

theorem OfText.tryCandidate (h : OfText s) (w : Way) : OfText (tryCandidate c w s).state := by
  rw [Store.tryCandidate]
  split
  · exact h
  · exact Outcome.andThen_keeps (h.buildArea fun a => h.place a) fun t ht => ht.of_same rfl rfl

theorem OfText.pointsComplete (h : OfText s) : OfText (pointsComplete c s).state := by
  refine pointsComplete_keeps h (Outcome.andThen_keeps ?_ fun t ht => ?_) fun t ht => ht.of_same rfl rfl
  · exact Outcome.forEach_keeps h fun k hk t ht => ht.tryMultipolygon (h.relations k hk).1
  · exact Outcome.forEach_keeps ht fun w _ t ht => ht.tryCandidate w

end Text

section Relations

def levelList (r : Relation) : String :=
  match r.tags.get? "levels" with
  | some (.text list) => list
  | _ => ""

theorem piecesBy_of_text {separator : String} (full : separator ≠ "") (s : String) :
    piecesBy (.text separator) s = .ok (Text.split separator s) := by
  rw [piecesBy]
  exact full

theorem joinUnique_of_text {separator : String} (full : separator ≠ "") (value existing : String) :
    ∃ joined, joinUnique (.text separator) (.text value) existing = .ok joined := by
  rw [joinUnique, piecesBy_of_text full]
  simp only [bind, Except.bind, pure, Except.pure]
  split
  · exact ⟨_, rfl⟩
  · exact ⟨_, rfl⟩

theorem addToList_of_text (key value : String) {separator : String} {t : Tags} (full : separator ≠ "")
    (text : t.AllText) :
    ∃ u : Tags, addToList (.text separator) (.text key) (.text value) t = .ok u ∧ u.AllText := by
  have put := fun v => text.put key v
  rw [addToList, TagKey.ofJson]
  simp only [bind, Except.bind, pure, Except.pure, Tags.standing_text]
  cases hv : t.get? (.text key) with
  | none => exact ⟨_, rfl, put value⟩
  | some v =>
    obtain ⟨existing, rfl⟩ := text.of_get? hv
    obtain ⟨joined, hj⟩ := joinUnique_of_text full value existing
    dsimp only [Json.asText]
    rw [hj]
    cases joined with
    | none => exact ⟨t, rfl, text⟩
    | some joined => exact ⟨_, rfl, put joined⟩

theorem OfText.absorb {α : Type} {x : Logged α} {f : α → Store → Outcome Store} (h : OfText s)
    (hf : ∀ a t, OfText t → OfText (f a t).state) : OfText (s.absorb x f).state := by
  have noted : OfText (s.record x.log) := h.of_same rfl rfl
  exact absorb_keeps noted fun a _ => hf a _ noted

theorem listOnWay_ends {r : Relation} {key name separator : String} (h : OfText s) (text : r.tags.AllText)
    (routes : c.routeSeparator = .text separator) (full : separator ≠ "") (id : Int) :
    (listOnWay c r key (.text name) id s).Ends OfText := by
  rw [listOnWay]
  split
  · rename_i value w hv hw
    obtain ⟨value, rfl⟩ := text.of_get? hv
    obtain ⟨u, hu, utext⟩ := addToList_of_text name value full (h.ways w (Table.mem_values_of_get? hw))
    rw [routes, hu]
    exact ⟨rfl, h.putWay utext id⟩
  · exact ⟨rfl, h⟩

theorem applyRoute_ends {r : Relation} (h : OfText s) (text : r.tags.AllText) (routes : c.HasTextRoutes) :
    (applyRoute c r s).Ends OfText := by
  obtain ⟨name, ref, separator, hname, href, hseparator, full⟩ := routes
  rw [applyRoute, hname, href]
  refine Outcome.forEach_ends h fun m _ t ht => ?_
  exact (listOnWay_ends ht text hseparator full m.ref).andThen
    fun u hu => listOnWay_ends hu text hseparator full m.ref

variable [Limits]

def HasLevels (r : Relation) : Prop := Level.ReadableList (levelList r) .levelMap true

theorem levelsOf_of_text {r : Relation} (text : r.tags.AllText) :
    levelsOf r = Level.readMap (levelList r) .levelMap true := by
  rw [levelsOf, levelList]
  cases hv : r.tags.get? "levels" with
  | none => rfl
  | some v =>
    obtain ⟨list, rfl⟩ := text.of_get? hv
    by_cases hl : list = ""
    · subst hl
      rfl
    · have full : (Json.text list).isNothing = false := by simpa [Json.isNothing] using hl
      rw [Option.getD_some, full, Json.asText, Logged.ok_bind]
      rfl

theorem levelsOf_ok {r : Relation} (text : r.tags.AllText) :
    (∃ levels, (levelsOf r).result = .ok levels) ↔ HasLevels r := by
  rw [levelsOf_of_text text]
  exact Level.readMap_ok

theorem OfText.applyLevel (h : OfText s) (r : Relation) (levels : Table String Level) (m : Member) :
    OfText (applyLevel r levels m s).state := by
  rw [Store.applyLevel]
  split
  · exact h
  · refine withValue_keeps h fun role _ => ?_
    split
    · exact h
    · refine h.absorb fun level t ht => ?_
      cases level <;> exact ht.of_same rfl rfl

theorem levelInRole_long {r : Relation} {m : Member} {role : String} (member : m ∈ r.members)
    (text : m.role = .text role) (levels : Table String Level) :
    FailsBy (LongUnless r.Fits) (levelInRole r levels m).result := by
  have short (fits : r.Fits) : Numeral.fits m.ref = true ∧ m.role.fits = true ∧ Numeral.fits r.id = true := by
    rw [text]
    exact ⟨fits.refs m member, rfl, fits.id⟩
  rw [levelInRole, text]
  dsimp only
  split
  · exact .ok _
  · exact ((writtenIf_undefinedText r m).report_long short _ _).logged_bind fun _ => .ok _

theorem applyLevel_long {r : Relation} {m : Member} (member : m ∈ r.members) (role : ∃ role, m.role = .text role)
    (levels : Table String Level) : (Store.applyLevel r levels m s).FailsBy (LongUnless r.Fits) := by
  obtain ⟨role, text⟩ := role
  have shown : Json.number m.role.shown = .ok role := by
    rw [text]
    rfl
  rw [Store.applyLevel]
  split
  · exact .of_none rfl
  · refine .withValue (.of_ok shown) fun role => ?_
    split
    · exact .of_none rfl
    · refine absorb_failsBy (levelInRole_long member text levels) fun level t => ?_
      cases level <;> exact .of_none rfl

theorem applyLevelMap_long {r : Relation} (text : r.IsText) (levels : HasLevels r) :
    (applyLevelMap r s).FailsBy (LongUnless r.Fits) := by
  obtain ⟨levels, hlevels⟩ := (levelsOf_ok text.1).2 levels
  refine absorb_failsBy (.of_ok hlevels) fun levels t => ?_
  refine .forEach_where (I := fun _ => True) trivial fun m hm u _ => ⟨?_, trivial⟩
  have member := List.mem_of_mem_filter hm
  exact applyLevel_long member (text.2 m member) levels

theorem unresolvedStops_long (r : Relation) (problem : String) :
    (s.absorb (unresolvedStops r problem) fun _ s => Outcome.done s).FailsBy (LongUnless r.Fits) :=
  absorb_failsBy ((writtenIf_unresolvedText r problem).report_long Relation.Fits.id _ _) fun _ _ => .of_none rfl

theorem applyStopArea_long (r : Relation) : (applyStopArea r s).FailsBy (LongUnless r.Fits) := by
  rw [applyStopArea]
  split
  · exact .of_none rfl
  · exact unresolvedStops_long r _
  · exact unresolvedStops_long r _

theorem applyRestriction_long {r : Relation} (text : r.tags.AllText) :
    (applyRestriction r s).FailsBy (LongUnless r.Fits) := by
  refine absorb_failsBy (TurnRestriction.ofRelation_long text) fun found t => ?_
  cases found <;> exact .of_none rfl

theorem OfText.applyRelation {k : KeptRelation} (h : OfText s) (text : k.relation.IsText)
    (routes : c.HasTextRoutes) : OfText (applyRelation c k s).state := by
  have unresolved : ∀ problem, OfText
      (s.absorb (unresolvedStops k.relation problem) fun _ s => Outcome.done s).state :=
    fun _ => h.absorb fun _ _ ht => ht
  rw [Store.applyRelation]
  cases k.kind with
  | multipolygon => exact h
  | restriction =>
    refine h.absorb fun found t ht => ?_
    cases found <;> exact ht.of_same rfl rfl
  | levelMap =>
    exact h.absorb fun levels t ht => Outcome.forEach_keeps ht fun m _ u hu => hu.applyLevel _ levels m
  | roadRoute => exact (applyRoute_ends h text.1 routes).2
  | stopArea =>
    dsimp only
    rw [applyStopArea]
    split
    · exact h.of_same rfl rfl
    · exact unresolved _
    · exact unresolved _

theorem applyRelation_long {k : KeptRelation} (h : OfText s) (text : k.relation.IsText) (routes : c.HasTextRoutes)
    (levels : k.kind = .levelMap → HasLevels k.relation) :
    (Store.applyRelation c k s).FailsBy (LongUnless k.relation.Fits) := by
  rw [Store.applyRelation]
  cases hk : k.kind with
  | multipolygon => exact .of_none rfl
  | restriction => exact applyRestriction_long text.1
  | levelMap => exact applyLevelMap_long text (levels hk)
  | roadRoute => exact .of_none (applyRoute_ends h text.1 routes).1
  | stopArea => exact applyStopArea_long k.relation

theorem applyRelation_ok {k : KeptRelation} (h : OfText s) (text : k.relation.IsText)
    (fits : k.relation.Fits) (routes : c.HasTextRoutes) :
    (Store.applyRelation c k s).failure = none ↔ (k.kind = .levelMap → HasLevels k.relation) := by
  constructor
  · intro ok hk
    rw [Store.applyRelation, hk, applyLevelMap, Store.absorb] at ok
    rw [← levelsOf_ok text.1]
    cases found : (levelsOf k.relation).result with
    | ok levels => exact ⟨levels, rfl⟩
    | error e =>
      rw [found] at ok
      cases ok
  · exact fun levels => (applyRelation_long h text routes levels).eq_none (LongUnless.never fits)

/-- The levels of all level maps that are kept can be read. -/
def LevelMapsReadable (s : Store) : Prop :=
  ∀ k ∈ s.relations.values, k.kind = .levelMap → HasLevels k.relation

/-- The numbers of all relations that are kept can be written. -/
def NumbersFit (s : Store) : Prop := ∀ k ∈ s.relations.values, k.relation.Fits

theorem OfText.finish (h : OfText s) (routes : c.HasTextRoutes) : OfText (finish c s).state := by
  by_cases opened : s.phase = .areasResolved
  · rw [finish_of_open opened]
    refine Outcome.andThen_keeps ?_ fun t ht => ht.of_same rfl rfl
    exact Outcome.forEach_keeps h fun k hk t ht => ht.applyRelation (h.relations k hk) routes
  · rw [finish_of_closed opened]
    exact h

theorem finish_ok_iff (h : OfText s) (fits : NumbersFit s) (routes : c.HasTextRoutes)
    (opened : s.phase = .areasResolved) : (Store.finish c s).failure = none ↔ LevelMapsReadable s := by
  have applied := (Outcome.forEach_failure (f := Store.applyRelation c) h fun k hk t ht =>
    ⟨ht.applyRelation (h.relations k hk) routes, applyRelation_ok ht (h.relations k hk) (fits k hk) routes⟩).2
  rw [finish_of_open opened, Outcome.andThen_failure_eq_none]
  exact (and_iff_left rfl).trans applied

theorem finish_long (h : OfText s) (routes : c.HasTextRoutes) (opened : s.phase = .areasResolved)
    (levels : LevelMapsReadable s) : (Store.finish c s).FailsBy (LongUnless (NumbersFit s)) := by
  rw [finish_of_open opened]
  refine .andThen (.forEach_where (I := OfText) h fun k hk t ht => ?_) fun _ => .of_none rfl
  have text := h.relations k hk
  refine ⟨fun f hf => ?_, ht.applyRelation text routes⟩
  obtain ⟨told, long⟩ := applyRelation_long ht text routes (levels k hk) f hf
  exact ⟨told, fun fits => long (fits k hk)⟩

end Relations

section Runs

theorem nodup_restrictions (h : Keyed s) : ((restrictions s).map Relation.id).Nodup := by
  rw [restrictions, List.map_map]
  exact h.relation_ids.sublist (List.filter_sublist.map _)

variable [Limits]

structure AppliedOnce (s : Store) : Prop where
  before : s.phase ≠ .relationsProcessed → SameTurns empty s
  after : s.phase = .relationsProcessed → ∃ made, Indexing (restrictions s) made empty s

theorem AppliedOnce.indexed (h : AppliedOnce s) :
    ∃ rs, rs.Sublist (restrictions s) ∧ IndexesHold s rs := by
  by_cases closed : s.phase = .relationsProcessed
  · obtain ⟨made, hmade⟩ := h.after closed
    exact ⟨_, List.filter_sublist, hmade.holds⟩
  · exact ⟨[], List.nil_sublist _, (h.before closed).holds⟩

variable [Geometry]

theorem CallStep.levelMapsReadable (step : CallStep c op s t) (h : LevelMapsReadable t) :
    LevelMapsReadable s :=
  fun k hk => h k ((step.grows.1.map Prod.snd).mem hk)

theorem CallStep.numbersFit (step : CallStep c op s t) (h : NumbersFit t) : NumbersFit s :=
  fun k hk => h k ((step.grows.1.map Prod.snd).mem hk)

theorem OfText.call (h : OfText s) (single : op.IsCall) (text : op.IsText) (routes : c.HasTextRoutes) :
    OfText (apply c op s).state := by
  cases op with
  | load document => cases single
  | addNode n => exact addNode_keeps h (h.of_same rfl rfl) (h.of_same rfl rfl)
  | addWay w => exact h.addWay text
  | addRelation r => exact h.addRelation text
  | linesComplete => exact linesComplete_keeps h (h.of_same rfl rfl)
  | pointsComplete => exact h.pointsComplete
  | finish => exact h.finish routes

theorem AppliedOnce.call (h : AppliedOnce s) (text : OfText s) (fits : NumbersFit s)
    (readable : LevelMapsReadable s) (single : op.IsCall) (routes : c.HasTextRoutes) :
    AppliedOnce (apply c op s).state := by
  by_cases closed : s.phase = .relationsProcessed
  · rw [call_of_closed single closed]
    exact h
  · cases hc : Call.concludes ⟨op, s⟩ with
    | false =>
      have opened := phase_of_call (c := c) single hc closed
      exact ⟨fun _ => (h.before closed).trans (call_sameTurns single hc), fun late => absurd late opened⟩
    | true =>
      cases op with
      | finish =>
        have resolved : s.phase = .areasResolved := of_decide_eq_true hc
        have ok := (finish_ok_iff text fits routes resolved).2 readable
        have indexed := finish_indexing (h.before closed) resolved ok
        exact ⟨fun opened => absurd indexed.2 opened, fun _ => indexed.1⟩
      | _ => cases hc

/-- Where tags and roles are text and numbers are not too long to be written, the end of a load goes well in
its phase just if the levels of all level maps can be read.  If they can, it does all of its work or fails
and changes nothing, and the indexes have no restriction twice, whatever failed earlier. -/
theorem finish_all_or_nothing (routes : c.HasTextRoutes) {ops : List Operation}
    (text : ∀ k ∈ history c ops empty, k.op.IsText) (fits : NumbersFit (run c ops empty)) :
    let s := run c ops empty
    (s.phase = .areasResolved → ((finish c s).failure = none ↔ LevelMapsReadable s)) ∧
    (LevelMapsReadable s →
      ((finish c s).failure ≠ none → (finish c s).state = s) ∧
      ((restrictions s).map Relation.id).Nodup ∧
      ∃ rs, rs.Sublist (restrictions s) ∧ IndexesHold s rs) := by
  intro s
  have start : AppliedOnce empty := ⟨fun _ => .refl _, fun closed => by cases closed⟩
  have kept : OfText s ∧ (NumbersFit s → LevelMapsReadable s → AppliedOnce s) := by
    refine (leads_history ops).keeps_of_calls
      (P := fun t => OfText t ∧ (NumbersFit t → LevelMapsReadable t → AppliedOnce t))
      text ⟨.empty, fun _ _ => start⟩ ?_
    intro op single optext t ⟨ht, applied⟩
    refine ⟨ht.call single optext routes, fun fits later => ?_⟩
    have written := (call_step single).numbersFit fits
    have earlier := (call_step single).levelMapsReadable later
    exact (applied written earlier).call ht written earlier single routes
  have ends := finish_ok_iff kept.1 fits routes
  refine ⟨ends, fun readable => ⟨fun failed => ?_, nodup_restrictions (Reachable.keyed ⟨ops, rfl⟩),
    (kept.2 fits readable).indexed⟩⟩
  by_cases resolved : s.phase = .areasResolved
  · exact absurd ((ends resolved).2 readable) failed
  · rw [finish_of_closed resolved]
    rfl

end Runs

section Examples

open Standard

def storeys : Relation := ⟨301, [], [("type", .text "level_map"), ("levels", .text "-1-2,G=Ground")]⟩

def triedTwice : List Operation :=
  [.addRelation noLeftTurn, .addRelation storeys, .linesComplete, .finish, .pointsComplete, .finish, .finish]

theorem triedTwice_finish_all_or_nothing :
    let s := run .default triedTwice empty
    NumbersFit s ∧ LevelMapsReadable s ∧ (finish .default s).failure ≠ none ∧ (finish .default s).state = s ∧
      ∃ rs, rs.Sublist [noLeftTurn] ∧ IndexesHold s rs := by
  intro s
  have routes : Settings.HasTextRoutes .default := ⟨_, _, _, rfl, rfl, rfl, by decide⟩
  have restriction : noLeftTurn.IsText := by simp [Relation.IsText, Tags.AllText, noLeftTurn]
  have map : storeys.IsText := by simp [Relation.IsText, Tags.AllText, storeys]
  have text : ∀ op ∈ triedTwice, op.IsText := by simp [triedTwice, Operation.IsText, restriction, map]
  have single : ∀ op ∈ triedTwice, op.IsCall := by simp [triedTwice, Operation.IsCall]
  have kept : s.relations.values = [⟨noLeftTurn, .restriction⟩, ⟨storeys, .levelMap⟩] := rfl
  have fits : NumbersFit s := by
    have turn : noLeftTurn.Fits := ⟨rfl, by simp [noLeftTurn]; decide⟩
    have map : storeys.Fits := ⟨rfl, List.forall_mem_nil _⟩
    simp [NumbersFit, kept, turn, map]
  have readable : LevelMapsReadable s := by
    have levels : HasLevels storeys := (levelsOf_ok map.1).1 ⟨_, rfl⟩
    simp [LevelMapsReadable, kept, levels]
  have facts :=
    (finish_all_or_nothing routes (fun k hk => text k.op (mem_of_mem_history single hk)) fits).2 readable
  have refused : (finish .default s).failure ≠ none := nofun
  exact ⟨fits, readable, refused, facts.1 refused, facts.2.2⟩

def skyscraper : Relation := ⟨301, [], [("type", .text "level_map"), ("levels", .text "G@inf")]⟩

theorem skyscraper_finish :
    ∃ s, Reachable .default s ∧ s.turnsFrom 10 = [] ∧
      (finish .default s).failure = some (.number .infiniteToInteger) ∧
      (finish .default s).state.phase = .areasResolved ∧
      ((finish .default s).state.turnsFrom 10).length = 1 ∧
      ((finish .default (finish .default s).state).state.turnsFrom 10).length = 2 ∧
      ((finish .default (finish .default s).state).state.turnsTo 11).length = 2 := by
  refine ⟨run .default [.addRelation noLeftTurn, .addRelation skyscraper, .linesComplete, .pointsComplete]
    empty, ⟨_, rfl⟩, rfl, rfl, rfl, rfl, rfl, rfl⟩

end Examples

end Store

end StreetMap
