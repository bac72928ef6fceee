import StreetMap.Proofs.Extract
import StreetMap.Proofs.Store.Frame
import StreetMap.Store.Operation

/-!
A run call by call.  A load is the calls that feed its document to the store, up to the first that
fails; so a run of operations is a run of single calls, each with the store that it finds.
-/

namespace StreetMap

def Extract.operations (x : Extract) : List Store.Operation :=
  x.relations.map .addRelation ++ x.ways.map .addWay ++ [.linesComplete] ++ x.nodes.map .addNode
    ++ [.pointsComplete]

namespace Store

variable {c : Settings} {s : Store}

def Operation.IsCall : Operation → Prop
  | .load _ => False
  | _ => True

theorem isCall_of_mem_operations {x : Extract} {op : Operation} (h : op ∈ x.operations) : op.IsCall := by
  simp only [Extract.operations, List.mem_append, List.mem_map, List.mem_singleton] at h
  rcases h with (((⟨_, _, rfl⟩ | ⟨_, _, rfl⟩) | rfl) | ⟨_, _, rfl⟩) | rfl <;> trivial

theorem record_eq_self {α : Type} {x : Logged α} (h : x.findings = []) : s.record x.log = s := by
  rw [record]
  change { s with anomalies := s.anomalies ++ x.findings } = s
  rw [h, List.append_nil]

section Keeping

variable {P : Store → Prop}

theorem linesComplete_keeps (hs : P s) (marked : P s.marked) : P (linesComplete s).state := by
  by_cases closed : s.phase = .relationsProcessed
  · rw [linesComplete_of_closed closed]
    exact hs
  · rw [linesComplete_eq closed]
    exact marked

variable [Limits]

theorem addWay_keeps (hs : P s) (opened : P s.reopened) (step : ∀ {t u}, IntakeStep c t u → P t → P u)
    (w : Way) : P (addWay c w s).state := by
  by_cases closed : s.phase = .relationsProcessed
  · rw [addWay_of_closed closed]
    exact hs
  · exact keeps_of_chain (addWay_chain closed w) step opened

theorem addRelation_keeps (hs : P s) (opened : P s.reopened)
    (step : ∀ {t u}, IntakeStep c t u → P t → P u) (r : Relation) : P (addRelation c r s).state := by
  by_cases closed : s.phase = .relationsProcessed
  · rw [addRelation_of_closed closed]
    exact hs
  · exact keeps_of_chain (addRelation_chain closed r) step opened

theorem finish_keeps (hs : P s) (applied : P (applyRelations c s).state)
    (phase : ∀ t, P t → P { t with phase := .relationsProcessed }) : P (finish c s).state := by
  by_cases opened : s.phase = .areasResolved
  · rw [finish_of_open opened]
    exact Outcome.andThen_keeps applied phase
  · rw [finish_of_closed opened]
    exact hs

end Keeping

variable [Limits] [Geometry]

theorem addExtract_eq (x : Extract) :
    addExtract c x s = Outcome.forEach (apply c) x.operations s := by
  rw [Extract.operations, Outcome.forEach_append, Outcome.forEach_append, Outcome.forEach_append,
    Outcome.forEach_append]
  simp only [Outcome.forEach_map, Outcome.forEach_singleton]
  rfl

theorem loadDocument_of_error {document : Json} {e : Failure}
    (h : (Extract.ofDocument document).result = .error e) :
    (loadDocument c document s).state = s ∧ (loadDocument c document s).failure = some e := by
  rw [loadDocument, absorb, h]
  exact ⟨record_eq_self (Extract.ofDocument_findings document), rfl⟩

theorem loadDocument_of_ok {document : Json} {x : Extract}
    (h : (Extract.ofDocument document).result = .ok x) :
    (loadDocument c document s).state = (Outcome.forEach (apply c) x.operations s).state ∧
      (loadDocument c document s).failure = (Outcome.forEach (apply c) x.operations s).failure := by
  rw [loadDocument, absorb, h, record_eq_self (Extract.ofDocument_findings document), ← addExtract_eq]
  change (loadExtract c x s).state = _ ∧ (loadExtract c x s).failure = _
  rw [loadExtract]
  by_cases hf : (addExtract c x s).failure = none
  · rw [Outcome.andThen_state hf, Outcome.andThen_failure hf]
    exact ⟨rfl, hf.symm⟩
  · rw [Outcome.andThen_of_failed hf]
    exact ⟨rfl, rfl⟩

inductive CallStep (c : Settings) : Operation → Store → Store → Prop
  | refused (op : Operation) (s : Store)
      (closed : s.phase = .relationsProcessed ∨ op = .pointsComplete ∨ op = .finish) : CallStep c op s s
  | rental {n : Node} {s : Store} (opened : s.phase ≠ .relationsProcessed)
      (rental : n.tags.isBikeRental = true) :
      CallStep c (.addNode n) s { s with bikeRentals := s.bikeRentals.put n.id n }
  | node {n : Node} {s : Store} (opened : s.phase ≠ .relationsProcessed)
      (plain : n.tags.isBikeRental = false) (wanted : s.wants n = true)
      (new : s.nodes.has n.id = false) :
      CallStep c (.addNode n) s { s with nodes := s.nodes.put n.id n }
  | passed {n : Node} {s : Store} (opened : s.phase ≠ .relationsProcessed)
      (plain : n.tags.isBikeRental = false) (old : s.wants n = true → s.nodes.has n.id = true) :
      CallStep c (.addNode n) s s
  | way {w : Way} {s t : Store} (opened : s.phase ≠ .relationsProcessed)
      (adds : OnlyAdds s.reopened t) : CallStep c (.addWay w) s t
  | relation {r : Relation} {s t : Store} (opened : s.phase ≠ .relationsProcessed)
      (adds : OnlyAdds s.reopened t) : CallStep c (.addRelation r) s t
  | marked {s : Store} (opened : s.phase ≠ .relationsProcessed) : CallStep c .linesComplete s s.marked
  | resolving {s t : Store} (opened : s.phase = .linesMarked ∨ s.phase = .areasResolved)
      (same : SameElements s t) (made : t = (resolveAreas c s).state) : CallStep c .pointsComplete s t
  | resolved {s t : Store} (opened : s.phase = .linesMarked ∨ s.phase = .areasResolved)
      (same : SameElements s t)
      (tried : ∀ k ∈ s.relations.values, k.kind = .multipolygon → k.relation.key ∈ t.processed)
      (made : t = (resolveAreas c s).state) :
      CallStep c .pointsComplete s { t with phase := .areasResolved }
  | concluding {s t : Store} (opened : s.phase = .areasResolved) (same : SameElements s t)
      (made : t = (applyRelations c s).state) : CallStep c .finish s t
  | concluded {s t : Store} (opened : s.phase = .areasResolved) (same : SameElements s t)
      (made : t = (applyRelations c s).state) : CallStep c .finish s { t with phase := .relationsProcessed }

theorem addNode_step (n : Node) : CallStep c (.addNode n) s (addNode c n s).state := by
  by_cases h : s.phase = .relationsProcessed
  · rw [addNode_of_closed h]
    exact .refused _ s (.inl h)
  · rw [addNode_eq h]
    by_cases hr : n.tags.isBikeRental = true
    · rw [if_pos hr]
      exact .rental h hr
    · rw [if_neg hr]
      rw [Bool.not_eq_true] at hr
      split
      · rename_i wanted
        rw [Bool.and_eq_true, Bool.not_eq_true'] at wanted
        rw [progress_state]
        exact .node h hr wanted.1 wanted.2
      · rename_i old
        exact .passed h hr (by simpa using old)

theorem pointsComplete_step : CallStep c .pointsComplete s (pointsComplete c s).state := by
  by_cases h : s.phase = .linesMarked ∨ s.phase = .areasResolved
  · rw [pointsComplete_of_open h]
    by_cases hf : (resolveAreas c s).failure = none
    · rw [Outcome.andThen_state hf]
      exact .resolved h resolveAreas_same (resolveAreas_processed hf) rfl
    · rw [Outcome.andThen_of_failed hf]
      exact .resolving h resolveAreas_same rfl
  · rw [pointsComplete_of_closed h]
    exact .refused _ s (.inr (.inl rfl))

theorem finish_step : CallStep c .finish s (finish c s).state := by
  by_cases h : s.phase = .areasResolved
  · rw [finish_of_open h]
    by_cases hf : (applyRelations c s).failure = none
    · rw [Outcome.andThen_state hf]
      exact .concluded h applyRelations_same rfl
    · rw [Outcome.andThen_of_failed hf]
      exact .concluding h applyRelations_same rfl
  · rw [finish_of_closed h]
    exact .refused _ s (.inr (.inr rfl))

theorem call_step {op : Operation} (single : op.IsCall) : CallStep c op s (apply c op s).state := by
  cases op with
  | load document => cases single
  | addNode n => exact addNode_step n
  | addWay w =>
    change CallStep c _ s (addWay c w s).state
    by_cases h : s.phase = .relationsProcessed
    · rw [addWay_of_closed h]
      exact .refused _ s (.inl h)
    · exact .way h (adds_of_chain (addWay_chain h w))
  | addRelation r =>
    change CallStep c _ s (addRelation c r s).state
    by_cases h : s.phase = .relationsProcessed
    · rw [addRelation_of_closed h]
      exact .refused _ s (.inl h)
    · exact .relation h (adds_of_chain (addRelation_chain h r))
  | linesComplete =>
    change CallStep c _ s (linesComplete s).state
    by_cases h : s.phase = .relationsProcessed
    · rw [linesComplete_of_closed h]
      exact .refused _ s (.inl h)
    · rw [linesComplete_eq h]
      exact .marked h
  | pointsComplete => exact pointsComplete_step
  | finish => exact finish_step

section Keeping

variable {P : Store → Prop}

theorem addNode_keeps {n : Node} (hs : P s) (rental : P { s with bikeRentals := s.bikeRentals.put n.id n })
    (node : P { s with nodes := s.nodes.put n.id n }) : P (addNode c n s).state := by
  have step := addNode_step (c := c) (s := s) n
  generalize (addNode c n s).state = t at step
  cases step with
  | rental => exact rental
  | node => exact node
  | _ => exact hs

theorem pointsComplete_keeps (hs : P s) (resolved : P (resolveAreas c s).state)
    (phase : ∀ t, P t → P { t with phase := .areasResolved }) : P (pointsComplete c s).state := by
  by_cases opened : s.phase = .linesMarked ∨ s.phase = .areasResolved
  · rw [pointsComplete_of_open opened]
    exact Outcome.andThen_keeps resolved phase
  · rw [pointsComplete_of_closed opened]
    exact hs

end Keeping

theorem CallStep.grows {op : Operation} {t : Store} (step : CallStep c op s t) :
    s.relations <+: t.relations ∧ s.candidates <+: t.candidates := by
  have of_same {t : Store} (same : SameElements s t) :
      s.relations <+: t.relations ∧ s.candidates <+: t.candidates := by
    rw [same.relations, same.candidates]
    exact ⟨List.prefix_rfl, List.prefix_rfl⟩
  cases step with
  | way opened adds => exact ⟨adds.relations, adds.candidates⟩
  | relation opened adds => exact ⟨adds.relations, adds.candidates⟩
  | resolving opened same => exact of_same same
  | @resolved _ t opened same tried => exact of_same (t := t) same
  | concluding opened same => exact of_same same
  | @concluded _ t opened same => exact of_same (t := t) same
  | _ => exact ⟨List.prefix_rfl, List.prefix_rfl⟩

/-- A call made in the course of a run, and the store that it found. -/
structure Call where
  op : Operation
  found : Store

def callsUntilFailure (c : Settings) : List Operation → Store → List Call
  | [], _ => []
  | op :: ops, s =>
    ⟨op, s⟩ :: if (apply c op s).failure.isNone then callsUntilFailure c ops (apply c op s).state else []

def calls (c : Settings) : Operation → Store → List Call
  | .load document, s =>
    match (Extract.ofDocument document).result with
    | .ok x => callsUntilFailure c x.operations s
    | .error _ => []
  | op, s => [⟨op, s⟩]

/-- All calls of a run, those of its loads among them. -/
def history (c : Settings) : List Operation → Store → List Call
  | [], _ => []
  | op :: ops, s => calls c op s ++ history c ops (apply c op s).state

theorem history_append (ops ops' : List Operation) (s : Store) :
    history c (ops ++ ops') s = history c ops s ++ history c ops' (run c ops s) := by
  induction ops generalizing s with
  | nil => rfl
  | cons op ops ih => rw [List.cons_append, history, history, ih, run_cons, List.append_assoc]

theorem mem_of_mem_history {ops : List Operation} (single : ∀ op ∈ ops, op.IsCall) {k : Call}
    (h : k ∈ history c ops s) : k.op ∈ ops := by
  induction ops generalizing s with
  | nil => cases h
  | cons op ops ih =>
    have own : calls c op s = [⟨op, s⟩] := by
      have one := single op List.mem_cons_self
      cases op with
      | load document => cases one
      | _ => rfl
    rw [history, own] at h
    cases h with
    | head => exact List.mem_cons_self
    | tail _ h => exact List.mem_cons_of_mem _ (ih (fun op hop => single op (List.mem_cons_of_mem _ hop)) h)

inductive Leads (c : Settings) (s : Store) : List Call → Store → Prop
  | start : Leads c s [] s
  | call {h : List Call} {t : Store} (op : Operation) (leads : Leads c s h t) (single : op.IsCall) :
      Leads c s (h ++ [⟨op, t⟩]) (apply c op t).state

theorem Leads.trans {g h : List Call} {t u : Store} (hg : Leads c s g t) (hh : Leads c t h u) :
    Leads c s (g ++ h) u := by
  induction hh with
  | start => rw [List.append_nil]; exact hg
  | call op _ single ih => rw [← List.append_assoc]; exact ih.call op single

theorem Leads.single {op : Operation} (h : op.IsCall) : Leads c s [⟨op, s⟩] (apply c op s).state :=
  .call op .start h

theorem leads_callsUntilFailure (ops : List Operation) (h : ∀ op ∈ ops, op.IsCall) :
    Leads c s (callsUntilFailure c ops s) (Outcome.forEach (apply c) ops s).state := by
  induction ops generalizing s with
  | nil => exact .start
  | cons op ops ih =>
    have first := Leads.single (c := c) (s := s) (h op List.mem_cons_self)
    rw [callsUntilFailure, Outcome.forEach_cons]
    by_cases hf : (apply c op s).failure = none
    · rw [Outcome.andThen_state hf, hf]
      exact first.trans (ih fun op hop => h op (List.mem_cons_of_mem _ hop))
    · rw [Outcome.andThen_of_failed hf, if_neg (by simpa using hf)]
      exact first

theorem leads_calls (op : Operation) : Leads c s (calls c op s) (apply c op s).state := by
  cases op with
  | load document =>
    change Leads c s (calls c (.load document) s) (loadDocument c document s).state
    rw [calls]
    cases hx : (Extract.ofDocument document).result with
    | error e => rw [(loadDocument_of_error hx).1]; exact .start
    | ok x =>
      rw [(loadDocument_of_ok hx).1]
      exact leads_callsUntilFailure x.operations fun op => isCall_of_mem_operations
  | addNode n => exact .single trivial
  | addWay w => exact .single trivial
  | addRelation r => exact .single trivial
  | linesComplete => exact .single trivial
  | pointsComplete => exact .single trivial
  | finish => exact .single trivial

theorem leads_history (ops : List Operation) : Leads c s (history c ops s) (run c ops s) := by
  induction ops generalizing s with
  | nil => exact .start
  | cons op ops ih => exact (leads_calls op).trans ih

theorem callsUntilFailure_ok {ops : List Operation} (ok : (Outcome.forEach (apply c) ops s).failure = none) :
    ∀ k ∈ callsUntilFailure c ops s, (apply c k.op k.found).failure = none := by
  induction ops generalizing s with
  | nil => exact List.forall_mem_nil _
  | cons op ops ih =>
    rw [Outcome.forEach_cons, Outcome.andThen_failure_eq_none] at ok
    rw [callsUntilFailure, ok.1]
    exact List.forall_mem_cons.2 ⟨ok.1, ih ok.2⟩

theorem calls_ok {op : Operation} (ok : (apply c op s).failure = none) :
    ∀ k ∈ calls c op s, (apply c k.op k.found).failure = none := by
  cases op with
  | load document =>
    change (loadDocument c document s).failure = none at ok
    rw [calls]
    cases hx : (Extract.ofDocument document).result with
    | error e => exact List.forall_mem_nil _
    | ok x =>
      rw [(loadDocument_of_ok hx).2] at ok
      exact callsUntilFailure_ok ok
  | _ => exact List.forall_mem_singleton.2 ok

theorem history_ok {ops : List Operation} (ok : (Outcome.forEach (apply c) ops s).failure = none) :
    run c ops s = (Outcome.forEach (apply c) ops s).state ∧
      ∀ k ∈ history c ops s, (apply c k.op k.found).failure = none := by
  induction ops generalizing s with
  | nil => exact ⟨rfl, List.forall_mem_nil _⟩
  | cons op ops ih =>
    rw [Outcome.forEach_cons, Outcome.andThen_failure_eq_none] at ok
    rw [Outcome.forEach_cons, Outcome.andThen_state ok.1, run_cons, history]
    exact ⟨(ih ok.2).1, List.forall_mem_append.2 ⟨calls_ok ok.1, (ih ok.2).2⟩⟩

theorem Leads.keeps_where {P : Store → Prop} {Q : Call → Prop} {h : List Call} {t : Store}
    (hl : Leads c s h t) (hq : ∀ k ∈ h, Q k) (hs : P s)
    (step : ∀ op : Operation, op.IsCall → ∀ t, Q ⟨op, t⟩ → P t → P (apply c op t).state) : P t := by
  induction hl with
  | start => exact hs
  | call op _ single ih =>
    rw [List.forall_mem_append, List.forall_mem_singleton] at hq
    exact step op single _ hq.2 (ih hq.1)

theorem Leads.keeps_of_calls {P : Store → Prop} {Q : Operation → Prop} {h : List Call} {t : Store}
    (hl : Leads c s h t) (hq : ∀ k ∈ h, Q k.op) (hs : P s)
    (step : ∀ op : Operation, op.IsCall → Q op → ∀ t, P t → P (apply c op t).state) : P t :=
  hl.keeps_where (Q := fun k => Q k.op) hq hs fun op single t hop => step op single hop t

theorem Leads.keeps {P : Store → Prop} {h : List Call} {t : Store} (hl : Leads c s h t) (hs : P s)
    (step : ∀ op : Operation, op.IsCall → ∀ t, P t → P (apply c op t).state) : P t :=
  hl.keeps_of_calls (Q := fun _ => True) (fun _ _ => trivial) hs fun op single _ => step op single

theorem Reachable.call_induction {P : Store → Prop} (h : Reachable c s) (start : P empty)
    (step : ∀ op : Operation, op.IsCall → ∀ t, P t → P (apply c op t).state) : P s := by
  cases h with
  | intro ops hs => rw [hs]; exact (leads_history ops).keeps start step

end Store

end StreetMap
