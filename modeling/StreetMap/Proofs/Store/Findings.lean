import StreetMap.Proofs.Store.TurnIndex

/-!
What is found when relations are applied.  All findings that an operation says are recorded, after those that
were there, and each kind of relation has findings of its own kinds.
-/

namespace StreetMap

namespace Outcome

variable {σ α : Type} {o : Outcome σ}

def findings (o : Outcome σ) : List Anomaly := o.log.filterMap Note.anomaly?

theorem andThen_findings {f : σ → Outcome σ} (ok : o.failure = none) :
    (o.andThen f).findings = o.findings ++ (f o.state).findings := by
  simp only [findings, andThen, ok, List.filterMap_append]

theorem forEach_findings {P : σ → Prop} {f : α → σ → Outcome σ} {g : α → List Anomaly} {xs : List α}
    {s : σ} (hs : P s)
    (hf : ∀ x ∈ xs, ∀ t, P t → (f x t).failure = none → P (f x t).state ∧ (f x t).findings = g x)
    (ok : (forEach f xs s).failure = none) : (forEach f xs s).findings = xs.flatMap g := by
  induction xs generalizing s with
  | nil => rfl
  | cons x xs ih =>
    rw [forEach_cons, andThen_failure_eq_none] at ok
    have first := hf x List.mem_cons_self s hs ok.1
    rw [forEach_cons, andThen_findings ok.1, first.2, List.flatMap_cons,
      ih first.1 (fun y hy => hf y (List.mem_cons_of_mem _ hy)) ok.2]

theorem mem_findings_andThen {f : σ → Outcome σ} {P : Anomaly → Prop} (ho : ∀ a ∈ o.findings, P a)
    (hf : ∀ s, ∀ a ∈ (f s).findings, P a) : ∀ a ∈ (o.andThen f).findings, P a := by
  by_cases ok : o.failure = none
  · rw [andThen_findings ok]
    exact List.forall_mem_append.2 ⟨ho, hf _⟩
  · rwa [andThen_of_failed ok]

theorem mem_findings_forEach {f : α → σ → Outcome σ} {P : Anomaly → Prop}
    (hf : ∀ x s, ∀ a ∈ (f x s).findings, P a) (xs : List α) (s : σ) :
    ∀ a ∈ (forEach f xs s).findings, P a := by
  induction xs generalizing s with
  | nil => exact List.forall_mem_nil _
  | cons x xs ih => exact mem_findings_andThen (hf x s) ih

end Outcome

namespace TurnRestriction

variable [Limits]

theorem ofRelation_findings (r : Relation) : ∀ a ∈ (ofRelation r).findings,
    a.kind ∈ [.turnRestrictionBad, .turnRestrictionUnknown, .turnRestrictionException] := by
  rw [ofRelation]
  split
  · intro a ha
    rw [Logged.report_bind_kind (List.forall_mem_nil _) a ha]
    decide
  · rename_i e _
    rw [Logged.bind_findings, List.forall_mem_append]
    refine ⟨fun a ha => ?_, ?_⟩
    · rw [modesOf_findings a ha]
      decide
    · split
      · rw [Logged.bind_findings, Logged.lift_findings, Logged.lift_result, List.nil_append]
        split
        · split
          · intro a ha
            rw [Logged.report_bind_kind (List.forall_mem_nil _) a ha]
            decide
          · rw [Logged.bind_findings, timeOf_findings, List.nil_append]
            split <;> exact List.forall_mem_nil _
        · exact List.forall_mem_nil _
      · exact List.forall_mem_nil _

end TurnRestriction

namespace Store

variable {c : Settings} {s : Store} {α : Type}

theorem absorb_findings (x : Logged α) (f : α → Store → Outcome Store) :
    (s.absorb x f).findings = x.findings ++ match x.result with
      | .ok a => (f a (s.record x.log)).findings
      | .error _ => [] := by
  rw [absorb]
  cases x.result with
  | error e => exact (List.append_nil _).symm
  | ok a => exact List.filterMap_append

def Records (s : Store) (o : Outcome Store) : Prop := o.state.anomalies = s.anomalies ++ o.findings

theorem Records.silent {o : Outcome Store} (anomalies : o.state.anomalies = s.anomalies)
    (findings : o.findings = []) : Records s o := by
  rw [Records, anomalies, findings, List.append_nil]

theorem Records.andThen {o : Outcome Store} {f : Store → Outcome Store} (ho : Records s o)
    (hf : ∀ t, Records t (f t)) : Records s (o.andThen f) := by
  by_cases ok : o.failure = none
  · rw [Records, Outcome.andThen_state ok, Outcome.andThen_findings ok, hf, ho, List.append_assoc]
  · rwa [Outcome.andThen_of_failed ok]

theorem Records.forEach {f : α → Store → Outcome Store} (hf : ∀ x t, Records t (f x t)) (xs : List α)
    (s : Store) : Records s (Outcome.forEach f xs s) := by
  induction xs generalizing s with
  | nil => exact .silent rfl rfl
  | cons x xs ih => exact (hf x s).andThen ih

theorem Records.absorb {f : α → Store → Outcome Store} (x : Logged α) (hf : ∀ a t, Records t (f a t)) :
    Records s (s.absorb x f) := by
  rw [Records, absorb_findings, Store.absorb]
  cases x.result with
  | error e => rw [List.append_nil]; rfl
  | ok a =>
    dsimp only
    rw [hf, ← List.append_assoc]
    rfl

theorem listOnWay_records (r : Relation) (key : String) (tag : Json) (id : Int) (s : Store) :
    Records s (listOnWay c r key tag id s) := by
  rw [listOnWay]
  split
  · rename_i w _ _
    cases addToList c.routeSeparator tag _ w.tags <;> exact .silent rfl rfl
  · exact .silent rfl rfl

theorem applyRoute_findings (r : Relation) (s : Store) : (applyRoute c r s).findings = [] := by
  have listed (key : String) (tag : Json) (id : Int) (s : Store) :
      (listOnWay c r key tag id s).findings = [] := by
    rw [listOnWay]
    split
    · rename_i w _ _
      cases addToList c.routeSeparator tag _ w.tags <;> rfl
    · rfl
  refine List.eq_nil_iff_forall_not_mem.2 (Outcome.mem_findings_forEach (P := fun _ => False) ?_ _ _)
  intro m t
  refine Outcome.mem_findings_andThen ?_ fun u => ?_
  · rw [listed]
    exact List.forall_mem_nil _
  · rw [listed]
    exact List.forall_mem_nil _

variable [Limits]

theorem applyLevel_records (r : Relation) (levels : Table String Level) (m : Member) (s : Store) :
    Records s (applyLevel r levels m s) := by
  rw [applyLevel]
  split
  · exact .silent rfl rfl
  · cases Json.number m.role.shown with
    | error e => exact .silent rfl rfl
    | ok role =>
      dsimp only [Outcome.withValue]
      split
      · exact .silent rfl rfl
      · exact .absorb _ fun level t => by cases level <;> exact .silent rfl rfl

theorem applyRelation_records (k : KeptRelation) (s : Store) : Records s (applyRelation c k s) := by
  rw [applyRelation]
  cases k.kind with
  | multipolygon => exact .silent rfl rfl
  | restriction => exact .absorb _ fun found t => by cases found <;> exact .silent rfl rfl
  | levelMap => exact .absorb _ fun levels t => .forEach (applyLevel_records k.relation levels) _ t
  | roadRoute =>
    exact .forEach (fun m t => (listOnWay_records _ _ _ _ t).andThen fun u => listOnWay_records _ _ _ _ u) _ s
  | stopArea =>
    dsimp only
    rw [applyStopArea]
    split
    · exact .silent rfl rfl
    · exact .absorb _ fun _ t => .silent rfl rfl
    · exact .absorb _ fun _ t => .silent rfl rfl

def reports : RelationKind → List AnomalyKind
  | .multipolygon | .roadRoute => []
  | .restriction => [.turnRestrictionBad, .turnRestrictionUnknown, .turnRestrictionException]
  | .levelMap => [.levelUndefined]
  | .stopArea => [.stopAreaUnresolved]

theorem applyLevel_findings (r : Relation) (levels : Table String Level) (m : Member) (s : Store) :
    (applyLevel r levels m s).findings =
      if !s.ways.has m.ref || !m.role.fits || r.tags.has ("role:" ++ m.role.display) then []
      else (levelInRole r levels m).findings := by
  rw [applyLevel, Json.shown]
  cases s.ways.has m.ref with
  | false => rfl
  | true =>
    cases m.role.fits with
    | false => rfl
    | true =>
      change (if r.tags.has ("role:" ++ m.role.display) = true then _ else _ : Outcome Store).findings = _
      cases r.tags.has ("role:" ++ m.role.display) with
      | true => rfl
      | false =>
        rw [if_neg (by decide), if_neg (by decide), absorb_findings]
        cases (levelInRole r levels m).result with
        | error e => exact List.append_nil _
        | ok level => cases level <;> exact List.append_nil _

theorem applyRelation_reports (k : KeptRelation) (s : Store) :
    ∀ a ∈ (applyRelation c k s).findings, a.kind ∈ reports k.kind := by
  have told (problem : String) : ∀ a ∈ (s.absorb (unresolvedStops k.relation problem)
      fun _ s => Outcome.done s).findings, a.kind ∈ reports .stopArea := by
    rw [absorb_findings, List.forall_mem_append]
    refine ⟨fun a ha => ?_, by split <;> exact List.forall_mem_nil _⟩
    rw [Logged.report_kind _ _ _ a ha]
    decide
  rw [applyRelation]
  cases k.kind with
  | multipolygon => exact List.forall_mem_nil _
  | restriction =>
    dsimp only
    rw [applyRestriction, absorb_findings, List.forall_mem_append]
    refine ⟨TurnRestriction.ofRelation_findings k.relation, ?_⟩
    split
    · rename_i found _
      cases found <;> exact List.forall_mem_nil _
    · exact List.forall_mem_nil _
  | levelMap =>
    dsimp only
    rw [applyLevelMap, absorb_findings, levelsOf_findings, List.nil_append]
    split
    · refine Outcome.mem_findings_forEach (fun m t => ?_) _ _
      rw [applyLevel_findings]
      split
      · exact List.forall_mem_nil _
      · intro a ha
        rw [levelInRole_findings _ _ _ a ha]
        decide
    · exact List.forall_mem_nil _
  | roadRoute =>
    dsimp only
    rw [applyRoute_findings]
    exact List.forall_mem_nil _
  | stopArea =>
    dsimp only
    rw [applyStopArea]
    split
    · exact List.forall_mem_nil _
    · exact told _
    · exact told _

end Store

end StreetMap
