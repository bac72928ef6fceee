import StreetMap.Proofs.Messages
import StreetMap.Proofs.Tags
import StreetMap.Proofs.Store.Calls
import StreetMap.Standard

/-!
The levels of ways.  A way that is kept has a level.  The level of a way that comes in is read from its
level tag, or else from its layer tag; where no floor can be told from it, the way gets the default level
and the load goes on with a finding.
-/

namespace StreetMap.Store

variable {c : Settings} {s t : Store} {op : Operation}

section Kept

/-- Every way that is kept has a level. -/
def Levelled (s : Store) : Prop :=
  ∀ id, s.ways.has id = true ∨ s.areaWays.has id = true → s.levels.has ⟨.way, id⟩ = true

theorem IntakeStep.levelled (step : IntakeStep c s t) (h : Levelled s) : Levelled t := by
  cases step with
  | note log findings => exact h
  | level k l new => exact fun id hid => Table.has_put_of_has (h id hid)
  | members r => exact h
  | relation k new kind => exact h
  | way w b newWay newArea fate levelled =>
    have put : ∀ id, id = w.id → s.levels.has ⟨.way, id⟩ = true := by
      rintro id rfl
      exact levelled
    intro id hid
    cases b with
    | plain =>
      rcases hid with hid | hid
      · exact (Table.has_put.1 hid).elim (put id) fun hid => h id (.inl hid)
      · exact h id (.inr hid)
    | member =>
      rcases hid with hid | hid
      · exact h id (.inl hid)
      · exact (Table.has_put.1 hid).elim (put id) fun hid => h id (.inr hid)
    | candidate =>
      rcases hid with hid | hid
      · exact h id (.inl hid)
      · exact (Table.has_put.1 hid).elim (put id) fun hid => h id (.inr hid)

theorem levelled_of_chain (chain : Relation.ReflTransGen (IntakeStep c) s t) (h : Levelled s) :
    Levelled t := by
  induction chain with
  | refl => exact h
  | tail _ step ih => exact step.levelled ih

theorem Levelled.same (h : Levelled s) (same : SameElements s t) : Levelled t := by
  intro id hid
  rw [has_of_outline same.ways, same.areaWays] at hid
  exact same.levels _ (h id hid)

variable [Limits] [Geometry]

theorem Levelled.call (h : Levelled s) (single : op.IsCall) : Levelled (apply c op s).state := by
  have step := call_step (c := c) (s := s) single
  generalize ht : (apply c op s).state = t at step
  cases step with
  | refused _ _ closed => exact h
  | rental opened rental => exact h
  | node opened plain wanted new => exact h
  | passed opened plain old => exact h
  | marked opened => exact h
  | way opened adds => exact ht ▸ levelled_of_chain (addWay_chain opened _) h
  | relation opened adds => exact ht ▸ levelled_of_chain (addRelation_chain opened _) h
  | resolving opened same => exact h.same same
  | resolved opened same tried =>
    have kept := h.same same
    exact kept
  | concluding opened same => exact h.same same
  | concluded opened same =>
    have kept := h.same same
    exact kept

theorem Reachable.levelled (h : Reachable c s) : Levelled s := by
  refine h.call_induction ?_ fun _ single _ ht => ht.call single
  rintro id (hid | hid) <;> cases hid

end Kept

section Reading

open Level

/-- The text that gives a level, and what it is: the level tag, or else the layer tag. -/
def levelText? (t : Tags) : Option (String × LevelSource) :=
  match t.get? "level", t.get? "layer" with
  | some (.text v), _ => some (v, .levelTag)
  | none, some (.text v) => some (v, .layerTag)
  | _, _ => none

variable [Limits]

theorem levelOf_of_text {raise : Bool} {k : Key} {t : Tags} (h : t.AllText) :
    levelOf raise k t = match levelText? t with
      | some (v, source) => levelOfTag raise k source (.text v)
      | none => pure .default := by
  rw [levelOf, levelText?]
  cases hl : t.get? "level" with
  | some v =>
    obtain ⟨v, rfl⟩ := h.of_get? hl
    rfl
  | none =>
    cases hy : t.get? "layer" with
    | none => rfl
    | some v =>
      obtain ⟨v, rfl⟩ := h.of_get? hy
      rfl

variable {raise : Bool} {k : Key} {source : LevelSource} {v : String}

theorem levelOfTag_of_error {e : NumeralError} (h : read v source raise = .error e) :
    (levelOfTag raise k source (.text v)).result = .error (.number e) := by
  rw [levelOfTag, Json.asText, Logged.ok_bind, Logged.bind_result, readLogged_of_error h]
  rfl

theorem levelOfTag_of_ok {level : Level} {doubt : Option Doubt}
    (h : read v source raise = .ok (level, doubt)) :
    (levelOfTag raise k source (.text v)).result =
      if level.reliable then .ok level else (Json.number (ambiguityText k v)).map fun _ => .default := by
  rw [levelOfTag, Json.asText, Logged.ok_bind, Logged.bind_result, readLogged_of_ok h]
  cases hr : level.reliable with
  | true => simp [Except.bind, hr]
  | false =>
    cases ambiguityText k v <;> simp [Except.bind, Except.map, hr, Logged.bind_result, Logged.find, Json.number]

theorem levelOfTag_finds {level : Level} {doubt : Option Doubt} {message : String}
    (h : read v source raise = .ok (level, doubt)) (guessed : level.reliable = false)
    (written : ambiguityText k v = .ok message) :
    (levelOfTag raise k source (.text v)).findings = [⟨.levelAmbiguous, k.id, message⟩] := by
  rw [levelOfTag, Json.asText, Logged.ok_bind, Logged.bind_findings, readLogged_findings,
    readLogged_of_ok h, List.nil_append]
  dsimp only
  rw [guessed, written]
  rfl

/-- A text that gives an element no level: a number in it has no room, or no floor is to be found in it and
the id of the element is too long for the finding that would say so. -/
def GivesNone (raise : Bool) (id : Int) (source : LevelSource) (v : String) : Prop :=
  Unreadable source raise (Spec.ofText v) ∨
    (Spec.ofText v).floor? source raise = none ∧ Numeral.fits id = false

theorem levelOf_fails {t : Tags} (h : t.AllText) :
    (∃ e, (levelOf raise k t).result = .error e) ↔
      ∃ v source, levelText? t = some (v, source) ∧ GivesNone raise k.id source v := by
  rw [levelOf_of_text h]
  cases levelText? t with
  | none => simp
  | some found =>
    obtain ⟨v, source⟩ := found
    simp only [Option.some.injEq, Prod.mk.injEq, exists_and_left, exists_eq_left', and_assoc, GivesNone]
    rw [← read_eq_error]
    cases hr : read v source raise with
    | error e => simp [levelOfTag_of_error hr]
    | ok found =>
      obtain ⟨level, doubt⟩ := found
      have reliable := reliable_of_read hr
      rw [levelOfTag_of_ok hr]
      cases hl : level.reliable with
      | true =>
        rw [hl] at reliable
        simp [reliable.1 rfl]
      | false =>
        rw [hl] at reliable
        have guessed : (Spec.ofText v).floor? source raise = none := by simpa using reliable
        rw [if_neg Bool.false_ne_true, ← Bool.not_eq_true, ← (writtenIf_ambiguityText k v).number_eq_error]
        cases Json.number (ambiguityText k v) <;> simp [Except.map, guessed]

theorem levelOf_guessed {t : Tags} {l : Level} (h : t.AllText) (hv : levelText? t = some (v, source))
    (guessed : (Spec.ofText v).floor? source raise = none) (hl : (levelOf raise k t).result = .ok l) :
    l = .default ∧ ∃ message, (levelOf raise k t).findings = [⟨.levelAmbiguous, k.id, message⟩] := by
  rw [levelOf_of_text h, hv] at hl ⊢
  dsimp only at hl ⊢
  cases hr : read v source raise with
  | error e =>
    rw [levelOfTag_of_error hr] at hl
    cases hl
  | ok found =>
    obtain ⟨level, doubt⟩ := found
    have doubtful : level.reliable = false := by
      rw [← Bool.not_eq_true, reliable_of_read hr]
      exact not_not_intro guessed
    rw [levelOfTag_of_ok hr, doubtful] at hl
    cases written : ambiguityText k v with
    | error e =>
      rw [written] at hl
      cases hl
    | ok message =>
      rw [written] at hl
      cases hl
      exact ⟨rfl, message, levelOfTag_finds hr doubtful written⟩

end Reading

section Intake

theorem keepWay_frame (w : Way) :
    (keepWay c w s).state.levels = s.levels ∧ (keepWay c w s).state.anomalies = s.anomalies := by
  rw [keepWay_eq]
  apply withValue_keeps (P := fun t => t.levels = s.levels ∧ t.anomalies = s.anomalies) ⟨rfl, rfl⟩
  intro b _
  cases b with
  | none => exact ⟨rfl, rfl⟩
  | some b =>
    dsimp only
    rw [putInto_state]
    cases b <;> exact ⟨rfl, rfl⟩

theorem progress_ok {interval : Json} (positive : Settings.isPositive interval = true) (label : String)
    (n : Nat) : (progress interval label n s).failure = none := by
  obtain ⟨hit, hm⟩ := Settings.isMultiple_of_positive positive n
  rw [progress, hm]
  cases hit <;> rfl

theorem keepWay_ok {w : Way} (valid : c.problems = []) (answers : c.Answers) (text : w.tags.AllText) :
    (keepWay c w s).failure = none := by
  obtain ⟨routable, hr⟩ := answers w.tags text
  obtain ⟨parkAndRide, hp⟩ := text.isParkAndRide
  have bucket : ∃ b, bucketOf c (w.id ∈ s.areaWayIds) w = .ok b := by
    rw [bucketOf, hr, hp, orElse_ok]
    split
    · exact ⟨_, rfl⟩
    · simp only [bind, Except.bind]
      split <;> exact ⟨_, rfl⟩
  obtain ⟨b, hb⟩ := bucket
  rw [keepWay_eq, hb]
  cases b with
  | none => rfl
  | some b =>
    rw [Outcome.withValue_ok]
    dsimp only
    rw [putInto]
    split
    · exact progress_ok (Settings.positive_of_valid valid).2.1 _ _
    · rfl

variable [Limits]

theorem resolveLevel_of_ok {k : Key} {t : Tags} {l : Level} (new : s.levels.has k = false)
    (h : (levelOf c.raisesFloors k t).result = .ok l) :
    (resolveLevel c k t s).Ends (· = { s with
      levels := s.levels.put k l
      anomalies := s.anomalies ++ (levelOf c.raisesFloors k t).findings }) := by
  rw [resolveLevel, if_neg (by simp [new]), absorb, h]
  exact ⟨rfl, rfl⟩

theorem resolveLevel_of_error {k : Key} {t : Tags} {e : Failure} (new : s.levels.has k = false)
    (h : (levelOf c.raisesFloors k t).result = .error e) : (resolveLevel c k t s).failure = some e := by
  rw [resolveLevel, if_neg (by simp [new]), absorb, h]

variable {w : Way}

theorem addWay_of_new (h : Levelled s) (opened : s.phase ≠ .relationsProcessed)
    (new : s.levels.has w.key = false) :
    addWay c w s = (resolveLevel c w.key w.tags s.reopened).andThen (keepWay c w) := by
  have unkept : ¬ (s.ways.has w.id || s.areaWays.has w.id) = true := by
    intro kept
    rw [Bool.or_eq_true] at kept
    have levelled := h w.id kept
    rw [show (⟨.way, w.id⟩ : Key) = w.key from rfl, new] at levelled
    cases levelled
  rw [addWay_eq opened, if_neg unkept]

theorem addWay_of_levelled (valid : c.problems = []) (answers : c.Answers)
    (opened : s.phase ≠ .relationsProcessed) (text : w.tags.AllText)
    (old : s.levels.has w.key = true) : (addWay c w s).Ends fun t => t.levels.has w.key = true := by
  rw [addWay_eq opened]
  split
  · exact ⟨rfl, old⟩
  · have idle : resolveLevel c w.key w.tags s.reopened = Outcome.done s.reopened := if_pos old
    rw [idle, Outcome.done_andThen]
    refine ⟨keepWay_ok valid answers text, ?_⟩
    change (keepWay c w s.reopened).state.levels.has w.key = true
    rw [(keepWay_frame w).1]
    exact old

theorem addWay_of_readable {l : Level} (valid : c.problems = []) (answers : c.Answers) (h : Levelled s)
    (opened : s.phase ≠ .relationsProcessed) (text : w.tags.AllText) (new : s.levels.has w.key = false)
    (hl : (levelOf c.raisesFloors w.key w.tags).result = .ok l) :
    (addWay c w s).Ends fun t => t.level? w.key = some l ∧
      t.anomalies = s.anomalies ++ (levelOf c.raisesFloors w.key w.tags).findings := by
  rw [addWay_of_new h opened new]
  apply (resolveLevel_of_ok (s := s.reopened) new hl).andThen
  rintro t rfl
  refine ⟨keepWay_ok valid answers text, ?_, (keepWay_frame w).2⟩
  rw [level?, (keepWay_frame w).1]
  exact Table.get?_put_self _ _ _

theorem addWay_of_unreadable {e : Failure} (h : Levelled s) (opened : s.phase ≠ .relationsProcessed)
    (new : s.levels.has w.key = false)
    (hl : (levelOf c.raisesFloors w.key w.tags).result = .error e) : (addWay c w s).failure ≠ none := by
  rw [addWay_of_new h opened new, ne_eq, Outcome.andThen_failure_eq_none,
    resolveLevel_of_error (s := s.reopened) new hl]
  simp

variable [Geometry]

/-- A way with text tags can be added to an open store unless its level text gives none, and it has a level
from then on.  A text in which no floor is to be found gives the default level, with a finding. -/
theorem added_way_has_level (valid : c.problems = []) (answers : c.Answers) (h : Reachable c s)
    (opened : s.phase ≠ .relationsProcessed) (text : w.tags.AllText) :
    ((addWay c w s).failure = none ↔ s.levels.has w.key = true ∨
      ∀ v source, levelText? w.tags = some (v, source) →
        ¬ GivesNone c.raisesFloors w.id source v) ∧
    ((addWay c w s).failure = none → (addWay c w s).state.levels.has w.key = true ∧
      (s.levels.has w.key = false → ∀ v source, levelText? w.tags = some (v, source) →
        (Level.Spec.ofText v).floor? source c.raisesFloors = none →
        (addWay c w s).state.level? w.key = some .default ∧ ∃ message,
          (addWay c w s).state.anomalies = s.anomalies ++ [⟨.levelAmbiguous, w.id, message⟩])) ∧
    ∀ spec source raise, (∃ level doubt, Level.read spec source raise = .ok (level, doubt)) ↔
      ¬ Level.Unreadable source raise (.ofText spec) := by
  refine ⟨?_, ?_, ?_⟩
  · cases has : s.levels.has w.key with
    | true => simp [(addWay_of_levelled valid answers opened text has).1]
    | false =>
      cases hl : (levelOf c.raisesFloors w.key w.tags).result with
      | ok l =>
        have fine : ¬ ∃ e, (levelOf c.raisesFloors w.key w.tags).result = .error e := by simp [hl]
        have readable := (not_congr (levelOf_fails text)).1 fine
        simp only [not_exists, not_and] at readable
        simp only [(addWay_of_readable valid answers h.levelled opened text has hl).1, true_iff]
        exact .inr readable
      | error e =>
        have unreadable := (levelOf_fails text).1 ⟨e, hl⟩
        obtain ⟨v, source, hv, hu⟩ := unreadable
        simp only [addWay_of_unreadable h.levelled opened has hl, Bool.false_eq_true, false_or, false_iff]
        exact fun readable => readable v source hv hu
  · intro ok
    cases has : s.levels.has w.key with
    | true => exact ⟨(addWay_of_levelled valid answers opened text has).2, nofun⟩
    | false =>
      cases hl : (levelOf c.raisesFloors w.key w.tags).result with
      | error e => exact absurd ok (addWay_of_unreadable h.levelled opened has hl)
      | ok l =>
        have added := (addWay_of_readable valid answers h.levelled opened text has hl).2
        refine ⟨Table.has_of_get? added.1, fun _ v source hv guessed => ?_⟩
        rw [added.1, added.2]
        obtain ⟨rfl, message, hfound⟩ := levelOf_guessed text hv guessed hl
        exact ⟨rfl, message, by rw [hfound]; rfl⟩
  · intro spec source raise
    rw [← Level.read_eq_error]
    cases Level.read spec source raise with
    | error e => simp
    | ok found => exact ⟨fun _ => nofun, fun _ => ⟨found.1, found.2, rfl⟩⟩

end Intake

section Examples

open Standard

def rooftop : Way := ⟨1, [10, 11], [("highway", .text "footway"), ("level", .text "roof")]⟩

theorem rooftop_has_level :
    Reachable .default empty ∧ levelText? rooftop.tags = some ("roof", .levelTag) ∧
      (addWay .default rooftop empty).failure = none ∧
      (addWay .default rooftop empty).state.level? rooftop.key = some .default ∧
      ∃ message, (addWay .default rooftop empty).state.anomalies = [⟨.levelAmbiguous, 1, message⟩] := by
  have start : Reachable .default empty := ⟨[], rfl⟩
  have text : rooftop.tags.AllText := by simp [rooftop, Tags.AllText]
  have added : (addWay .default rooftop empty).failure = none := rfl
  have facts := (added_way_has_level rfl (Settings.answers_of_standard rfl) start (by decide) text).2.1 added
  exact ⟨start, rfl, added, facts.2 rfl "roof" .levelTag rfl rfl⟩

def skyway : Way := ⟨1, [10, 11], [("highway", .text "footway"), ("level", .text "x@inf")]⟩

theorem skyway_is_not_added :
    Reachable .default empty ∧ empty.phase ≠ .relationsProcessed ∧ skyway.tags.AllText ∧
      (addWay .default skyway empty).failure = some (.number .infiniteToInteger) ∧
      (addWay .default skyway empty).state.levels.has skyway.key = false := by
  refine ⟨⟨[], rfl⟩, by decide, ?_, rfl, rfl⟩
  simp [skyway, Tags.AllText]

end Examples

end StreetMap.Store
