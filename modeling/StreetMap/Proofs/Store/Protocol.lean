import StreetMap.Proofs.Store.Candidates
import StreetMap.Proofs.Store.Fault
import StreetMap.Proofs.Store.TurnIndex
import StreetMap.Standard

/-!
The phases as a protocol.  Which calls are let in is told by the calls that came before them: by the
last one of a kind that moves the phase on, and whether one of a kind that moves it back has come since.
-/

namespace StreetMap.Store

variable {c : Settings} {s t : Store} {h g l : List Call} {k : Call} {op : Operation}

def Operation.Passes : Operation → Phase → Prop
  | .pointsComplete, p => p = .linesMarked ∨ p = .areasResolved
  | .finish, p => p = .areasResolved
  | .load _, _ => True
  | _, p => p ≠ .relationsProcessed

def Call.Accepted (k : Call) : Prop := k.op.Passes k.found.phase

def Call.MarksNodes (k : Call) : Prop := k.op = .linesComplete ∧ k.Accepted

def Call.Reopens (k : Call) : Prop := ((∃ w, k.op = .addWay w) ∨ ∃ r, k.op = .addRelation r) ∧ k.Accepted

def Call.Unsettles (k : Call) : Prop := k.Reopens ∨ k.MarksNodes

def Since (makes undoes : Call → Prop) (h : List Call) : Prop :=
  ∃ before k after, h = before ++ k :: after ∧ makes k ∧ ∀ m ∈ after, ¬ undoes m

theorem not_passes_of_closed (single : op.IsCall) (closed : s.phase = .relationsProcessed) :
    ¬ op.Passes s.phase := by
  rw [closed]
  cases op <;> simp_all [Operation.Passes, Operation.IsCall]

theorem phase_of_linesComplete (passes : s.phase ≠ .relationsProcessed) :
    (linesComplete s).state.phase = .linesMarked := by
  rw [linesComplete_eq passes]
  rfl

theorem since_snoc {makes undoes : Call → Prop} :
    Since makes undoes (h ++ [k]) ↔ makes k ∨ ¬ undoes k ∧ Since makes undoes h := by
  constructor
  · rintro ⟨before, m, after, split, made, kept⟩
    rcases List.eq_nil_or_concat after with rfl | ⟨after, n, rfl⟩
    · obtain ⟨-, last⟩ := List.append_inj' split rfl
      cases last
      exact .inl made
    · rw [List.concat_eq_append, ← List.cons_append, ← List.append_assoc] at split
      obtain ⟨rfl, last⟩ := List.append_inj' split rfl
      cases last
      rw [List.concat_eq_append, List.forall_mem_append, List.forall_mem_singleton] at kept
      exact .inr ⟨kept.2, before, m, after, rfl, made, kept.1⟩
  · rintro (made | ⟨other, before, m, after, rfl, made, kept⟩)
    · exact ⟨h, k, [], rfl, made, List.forall_mem_nil _⟩
    · refine ⟨before, m, after ++ [k], by simp, made, ?_⟩
      exact List.forall_mem_append.2 ⟨kept, List.forall_mem_singleton.2 other⟩

section Protocol

variable [Limits]

/-- The call ends the load: it applies all relations. -/
def Call.Closes (c : Settings) (k : Call) : Prop := k.op = .finish ∧ (finish c k.found).failure = none

def Closed (c : Settings) (h : List Call) : Prop := ∃ k ∈ h, k.Closes c

theorem Call.Closes.accepted (closes : k.Closes c) : k.Accepted := by
  obtain ⟨op, s⟩ := k
  obtain ⟨rfl, ok⟩ := closes
  by_contra refused
  rw [finish_of_closed refused] at ok
  cases ok

theorem phase_of_addWay (passes : s.phase ≠ .relationsProcessed) (w : Way) :
    (addWay c w s).state.phase = .ingesting := (adds_of_chain (addWay_chain passes w)).phase

theorem phase_of_addRelation (passes : s.phase ≠ .relationsProcessed) (r : Relation) :
    (addRelation c r s).state.phase = .ingesting := (adds_of_chain (addRelation_chain passes r)).phase

theorem finish_of_failed (failed : (finish c s).failure ≠ none) : SameElements s (finish c s).state := by
  by_cases passes : s.phase = .areasResolved
  · rw [finish_of_open passes] at failed ⊢
    have broken : (applyRelations c s).failure ≠ none :=
      fun ok => failed (Outcome.andThen_failure_eq_none.2 ⟨ok, rfl⟩)
    rw [Outcome.andThen_of_failed broken]
    exact applyRelations_same
  · rw [finish_of_closed passes]
    exact .refl s

theorem closed_snoc : Closed c (h ++ [k]) ↔ Closed c h ∨ k.Closes c := by
  simp [Closed, or_and_right, exists_or]

theorem phase_of_concluded (ok : (finish c s).failure = none) :
    (finish c s).state.phase = .relationsProcessed := by
  have passes := Call.Closes.accepted (k := ⟨.finish, s⟩) ⟨rfl, ok⟩
  rw [finish_of_open passes, Outcome.andThen_failure_eq_none] at ok
  rw [finish_of_open passes, Outcome.andThen_state ok.1]
  rfl

variable [Geometry]

/-- Whether an operation is let in after some calls, by these calls alone. -/
def LetsIn (c : Settings) (h : List Call) : Operation → Prop
  | .pointsComplete => ¬ Closed c h ∧ Since Call.MarksNodes Call.Reopens h
  | .finish => ¬ Closed c h ∧ Since (Call.Resolves c) Call.Unsettles h
  | .load _ => True
  | _ => ¬ Closed c h

theorem apply_of_refused (refused : ¬ op.Passes s.phase) :
    ∃ e, apply c op s = Outcome.fail s (.phase e) := by
  cases op with
  | addNode n => exact ⟨_, addNode_of_closed (not_not.1 refused) n⟩
  | addWay w => exact ⟨_, addWay_of_closed (not_not.1 refused) w⟩
  | addRelation r => exact ⟨_, addRelation_of_closed (not_not.1 refused) r⟩
  | linesComplete => exact ⟨_, linesComplete_of_closed (not_not.1 refused)⟩
  | pointsComplete => exact ⟨_, pointsComplete_of_closed refused⟩
  | finish => exact ⟨_, finish_of_closed refused⟩
  | load document => exact absurd trivial refused

theorem apply_mayFail (single : op.IsCall) (passes : op.Passes s.phase) :
    (apply c op s).FailsBy c.MayFail := by
  cases op with
  | addNode n => exact addNode_mayFail passes n
  | addWay w => exact addWay_mayFail passes w
  | addRelation r => exact addRelation_mayFail passes r
  | linesComplete =>
    refine .of_none ?_
    exact congrArg Outcome.failure (linesComplete_eq passes)
  | pointsComplete => exact pointsComplete_mayFail passes
  | finish => exact finish_mayFail passes
  | load document => cases single

theorem Call.Resolves.accepted (resolves : k.Resolves c) : k.Accepted := by
  obtain ⟨op, s⟩ := k
  obtain ⟨rfl, ok⟩ := resolves
  by_contra refused
  rw [pointsComplete_of_closed refused] at ok
  cases ok

theorem phase_of_addNode (n : Node) : (addNode c n s).state.phase = s.phase :=
  addNode_keeps (P := fun t => t.phase = s.phase) rfl rfl rfl

theorem phase_of_resolved (ok : (pointsComplete c s).failure = none) :
    (pointsComplete c s).state.phase = .areasResolved := by
  have passes := Call.Resolves.accepted (k := ⟨.pointsComplete, s⟩) ⟨rfl, ok⟩
  rw [pointsComplete_of_open passes, Outcome.andThen_failure_eq_none] at ok
  rw [pointsComplete_of_open passes, Outcome.andThen_state ok.1]
  rfl

theorem Leads.split (hl : Leads c s (g ++ k :: l) t) :
    Leads c s g k.found ∧ k.op.IsCall ∧ Leads c (apply c k.op k.found).state l t := by
  generalize whole : g ++ k :: l = h at hl
  induction hl generalizing l with
  | start => simp at whole
  | @call h u op leads single ih =>
    rcases List.eq_nil_or_concat l with rfl | ⟨l, m, rfl⟩
    · obtain ⟨rfl, last⟩ := List.append_inj' whole rfl
      cases last
      exact ⟨leads, single, .start⟩
    · rw [List.concat_eq_append, ← List.cons_append, ← List.append_assoc] at whole
      obtain ⟨before, last⟩ := List.append_inj' whole rfl
      cases last
      obtain ⟨first, one, rest⟩ := ih before
      exact ⟨first, one, List.concat_eq_append ▸ rest.call op single⟩

theorem Leads.of_closed (hl : Leads c s h t) (closed : s.phase = .relationsProcessed) :
    t = s ∧ ∀ k ∈ h, k.found = s ∧ ¬ k.Accepted := by
  induction hl with
  | start => exact ⟨rfl, List.forall_mem_nil _⟩
  | call op leads single ih =>
    rw [ih.1]
    refine ⟨call_of_closed single closed, List.forall_mem_append.2 ⟨ih.2, ?_⟩⟩
    exact List.forall_mem_singleton.2 ⟨rfl, not_passes_of_closed single closed⟩

structure Follows (c : Settings) (h : List Call) (s : Store) : Prop where
  closed : s.phase = .relationsProcessed ↔ Closed c h
  marked : s.phase = .linesMarked ∨ s.phase = .areasResolved ↔
    ¬ Closed c h ∧ Since Call.MarksNodes Call.Reopens h
  resolved : s.phase = .areasResolved ↔ ¬ Closed c h ∧ Since (Call.Resolves c) Call.Unsettles h

theorem Follows.still (hs : Follows c h s) (phase : t.phase = s.phase) (closes : ¬ k.Closes c)
    (resolves : ¬ k.Resolves c) (unsettles : ¬ k.Unsettles) : Follows c (h ++ [k]) t := by
  have unsettles' := not_or.1 unsettles
  constructor
  · rw [phase, hs.closed, closed_snoc, or_iff_left closes]
  · rw [phase, hs.marked, closed_snoc, or_iff_left closes, since_snoc, or_iff_right unsettles'.2,
      and_iff_right unsettles'.1]
  · rw [phase, hs.resolved, closed_snoc, or_iff_left closes, since_snoc, or_iff_right resolves,
      and_iff_right unsettles]

theorem Follows.reopened (hs : Follows c h s) (phase : t.phase = .ingesting) (closes : ¬ k.Closes c)
    (resolves : ¬ k.Resolves c) (marks : ¬ k.MarksNodes) (reopens : k.Reopens)
    (passes : s.phase ≠ .relationsProcessed) : Follows c (h ++ [k]) t := by
  have unsettles : k.Unsettles := .inl reopens
  constructor
  · simpa [phase, closed_snoc, closes] using mt hs.closed.2 passes
  · simp [phase, since_snoc, marks, reopens]
  · simp [phase, since_snoc, resolves, unsettles]

theorem Follows.marked_next (hs : Follows c h s) (phase : t.phase = .linesMarked) (closes : ¬ k.Closes c)
    (resolves : ¬ k.Resolves c) (marks : k.MarksNodes) (passes : s.phase ≠ .relationsProcessed) :
    Follows c (h ++ [k]) t := by
  have unsettles : k.Unsettles := .inr marks
  have before := mt hs.closed.2 passes
  constructor
  · simpa [phase, closed_snoc, closes] using before
  · simpa [phase, closed_snoc, closes, since_snoc, marks] using before
  · simp [phase, since_snoc, resolves, unsettles]

theorem Follows.resolved_next (hs : Follows c h s) (phase : t.phase = .areasResolved)
    (closes : ¬ k.Closes c) (resolves : k.Resolves c) (unsettles : ¬ k.Unsettles)
    (passes : s.phase = .linesMarked ∨ s.phase = .areasResolved) : Follows c (h ++ [k]) t := by
  have before := hs.marked.1 passes
  have unsettles' := not_or.1 unsettles
  constructor
  · simpa [phase, closed_snoc, closes] using before.1
  · simpa [phase, closed_snoc, closes, since_snoc, unsettles'] using before
  · simpa [phase, closed_snoc, closes, since_snoc, resolves] using before.1

theorem Follows.closed_next (phase : t.phase = .relationsProcessed) (closes : k.Closes c) :
    Follows c (h ++ [k]) t := by
  constructor <;> simp [phase, closed_snoc, closes]

theorem Follows.call (hs : Follows c h s) (single : op.IsCall) :
    Follows c (h ++ [⟨op, s⟩]) (apply c op s).state := by
  by_cases passes : op.Passes s.phase
  · cases op with
    | load document => cases single
    | addNode n =>
      apply hs.still (phase_of_addNode n) <;> simp [Call.Closes, Call.Resolves, Call.Unsettles,
        Call.Reopens, Call.MarksNodes]
    | addWay w =>
      exact hs.reopened (phase_of_addWay passes w) nofun nofun nofun ⟨.inl ⟨w, rfl⟩, passes⟩ passes
    | addRelation r =>
      exact hs.reopened (phase_of_addRelation passes r) nofun nofun nofun ⟨.inr ⟨r, rfl⟩, passes⟩ passes
    | linesComplete =>
      exact hs.marked_next (phase_of_linesComplete passes) nofun nofun ⟨rfl, passes⟩ passes
    | pointsComplete =>
      have settled : ¬ Call.Unsettles ⟨.pointsComplete, s⟩ := by
        simp [Call.Unsettles, Call.Reopens, Call.MarksNodes]
      by_cases ok : (pointsComplete c s).failure = none
      · exact hs.resolved_next (phase_of_resolved ok) nofun ⟨rfl, ok⟩ settled passes
      · exact hs.still (pointsComplete_of_failed ok).phase nofun (fun r => ok r.2) settled
    | finish =>
      by_cases ok : (finish c s).failure = none
      · exact .closed_next (phase_of_concluded ok) ⟨rfl, ok⟩
      · refine hs.still (finish_of_failed ok).phase (fun r => ok r.2) nofun ?_
        simp [Call.Unsettles, Call.Reopens, Call.MarksNodes]
  · obtain ⟨e, he⟩ := apply_of_refused (c := c) passes
    rw [he]
    refine hs.still rfl (fun r => passes r.accepted) (fun r => passes r.accepted) ?_
    rintro (r | r)
    · exact passes r.2
    · exact passes r.2

theorem Leads.follows (hl : Leads c empty h s) : Follows c h s := by
  induction hl with
  | start => constructor <;> simp [empty, Closed, Since]
  | call op leads single ih => exact ih.call single

theorem Follows.accepted_iff (hs : Follows c h k.found) (single : k.op.IsCall) :
    k.Accepted ↔ LetsIn c h k.op := by
  obtain ⟨op, s⟩ := k
  have opened : s.phase ≠ .relationsProcessed ↔ ¬ Closed c h := not_congr hs.closed
  cases op with
  | addNode n => exact opened
  | addWay w => exact opened
  | addRelation r => exact opened
  | linesComplete => exact opened
  | pointsComplete => exact hs.marked
  | finish => exact hs.resolved
  | load document => cases single

/-- Each call of a run, those of its loads among them, is let in just if the calls before it allow it.
One that is not fails for the phase and changes nothing; one that is does not fail for the phase, unless
the classifier does.  After the load has ended no call is let in, and the run ends in that store. -/
theorem phase_protocol {ops : List Operation} (split : history c ops empty = g ++ k :: l) :
    (k.Accepted ↔ LetsIn c g k.op) ∧
    (¬ k.Accepted → ∃ e, apply c k.op k.found = Outcome.fail k.found (.phase e)) ∧
    (k.Accepted → ∀ e, (apply c k.op k.found).failure = some (.phase e) → c.Raises (.phase e)) ∧
    (k.Closes c → run c ops empty = (apply c k.op k.found).state ∧
      ∀ m ∈ l, m.found = (apply c k.op k.found).state ∧ ¬ m.Accepted ∧ ¬ m.Closes c) := by
  have leads := leads_history (c := c) (s := empty) ops
  rw [split] at leads
  obtain ⟨before, single, after⟩ := leads.split
  refine ⟨before.follows.accepted_iff single, apply_of_refused, fun accepted e he => ?_, fun closes => ?_⟩
  · rcases apply_mayFail single accepted _ he with fault | raises
    · exact absurd rfl (fault e)
    · exact raises
  · have phase : (apply c k.op k.found).state.phase = .relationsProcessed := by
      rw [closes.1]
      exact phase_of_concluded closes.2
    have still := after.of_closed phase
    exact ⟨still.1, fun m hm => ⟨(still.2 m hm).1, (still.2 m hm).2, fun r => (still.2 m hm).2 r.accepted⟩⟩

end Protocol

open Standard

theorem crossroads_phase_protocol :
    let k : Call := ⟨.finish, run .default (crossroads.take 5) empty⟩
    let left := (finish .default k.found).state
    k.Closes .default ∧ LetsIn .default (history .default (crossroads.take 5) empty) .finish ∧
      run .default crossroads empty = left ∧ ¬ Call.Accepted ⟨.finish, left⟩ := by
  intro k left
  have split : history .default crossroads empty =
    history .default (crossroads.take 5) empty ++ k :: [⟨.finish, left⟩] := rfl
  have closes : k.Closes .default := ⟨rfl, rfl⟩
  have facts := phase_protocol split
  have last := facts.2.2.2 closes
  exact ⟨closes, facts.1.1 closes.accepted, last.1, (last.2 _ List.mem_cons_self).2.1⟩

theorem vastSquare_finish_refused :
    ∃ g k, history .default (vastSquare ++ [.pointsComplete, .finish]) empty = g ++ [k] ∧ k.op = .finish ∧
      ¬ Closed .default g ∧
      Since (fun m => m.op = .pointsComplete ∧ m.Accepted) Call.Unsettles g ∧
      ¬ k.Accepted ∧
      (apply .default k.op k.found).failure = some (.phase (.outOfOrder "finish" .linesMarked)) := by
  have phase : (pointsComplete .default (run .default vastSquare empty)).state.phase = .linesMarked := by
    decide +kernel
  refine ⟨history .default vastSquare empty ++ [⟨.pointsComplete, run .default vastSquare empty⟩],
    ⟨.finish, (pointsComplete .default (run .default vastSquare empty)).state⟩, ?_, rfl, ?_, ?_, ?_, ?_⟩
  · rw [history_append, List.append_assoc]
    rfl
  · rintro ⟨k, hk, closes⟩
    rcases List.mem_append.1 hk with hk | hk
    · have early := mem_of_mem_history (by simp [vastSquare, atCorner, Operation.IsCall]) hk
      rw [closes.1] at early
      simp [vastSquare, atCorner] at early
    · rw [List.mem_singleton.1 hk] at closes
      cases closes.1
  · exact since_snoc.2 (.inl ⟨rfl, .inl rfl⟩)
  · intro passes
    rw [Call.Accepted, Operation.Passes, phase] at passes
    cases passes
  · change (finish .default _).failure = _
    rw [finish_of_closed (by rw [phase]; decide), phase]
    rfl

end StreetMap.Store
