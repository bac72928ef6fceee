import StreetMap.Proofs.Store.Marking

/-!
Which nodes are kept.  The index of nodes is a function of the calls made: it has, for each id, the first
node that a call retained, in the order of these calls.
-/

namespace StreetMap.Store

variable {c : Settings} {s t : Store} {h : List Call} {k : Call} {i : Nat} {n : Node}

def Operation.ConcernsNodes : Operation → Prop
  | .addNode _ | .linesComplete => True
  | _ => False

def Call.Marks (k : Call) (id : Int) : Prop :=
  k.op = .linesComplete ∧ k.found.phase ≠ .relationsProcessed ∧
    ∃ w, (w ∈ k.found.ways.values ∨ w ∈ k.found.areaWays.values) ∧
      2 ≤ w.nodeRefs.length ∧ id ∈ w.nodeRefs

def Call.Retains (before : List Call) (k : Call) (n : Node) : Prop :=
  k.op = .addNode n ∧ k.found.phase ≠ .relationsProcessed ∧ n.tags.isBikeRental = false ∧
    (n.tags.isStop = true ∨ ∃ m ∈ before, m.Marks n.id)

def Keeps (h : List Call) (i : Nat) (n : Node) : Prop := ∃ k, h[i]? = some k ∧ k.Retains (h.take i) n

/-- It is the first call to do so for the id of the node. -/
def FirstKeeps (h : List Call) (i : Nat) (n : Node) : Prop :=
  Keeps h i n ∧ ∀ j < i, ∀ m, Keeps h j m → m.id ≠ n.id

theorem Keeps.lt (hk : Keeps h i n) : i < h.length := by
  cases hk with
  | intro k hk => exact (List.getElem?_eq_some_iff.1 hk.1).1

theorem keeps_snoc : Keeps (h ++ [k]) i n ↔ Keeps h i n ∨ i = h.length ∧ k.Retains h n := by
  by_cases hi : i < h.length
  · have hne : i ≠ h.length := Nat.ne_of_lt hi
    simp only [Keeps, List.getElem?_append_left hi, List.take_append_of_le_length (Nat.le_of_lt hi), hne,
      false_and, or_false]
  · have hno : ¬ Keeps h i n := fun hk => hi hk.lt
    simp only [hno, false_or]
    constructor
    · intro hk
      have hlt := hk.lt
      rw [List.length_append, List.length_singleton] at hlt
      have hi' : i = h.length := by omega
      cases hk with
      | intro m hm =>
        rw [hi', List.getElem?_concat_length, List.take_left] at hm
        exact ⟨hi', Option.some.inj hm.1 ▸ hm.2⟩
    · intro hk
      refine ⟨k, ?_, ?_⟩
      · rw [hk.1, List.getElem?_concat_length]
      · rw [hk.1, List.take_left]
        exact hk.2

theorem firstKeeps_snoc :
    FirstKeeps (h ++ [k]) i n ↔
      FirstKeeps h i n ∨ i = h.length ∧ k.Retains h n ∧ ∀ j m, Keeps h j m → m.id ≠ n.id := by
  rw [FirstKeeps, keeps_snoc]
  constructor
  · intro hk
    have none : ∀ j < i, ∀ m, Keeps h j m → m.id ≠ n.id :=
      fun j hj m hm => hk.2 j hj m (keeps_snoc.2 (.inl hm))
    cases hk.1 with
    | inl hl => exact .inl ⟨hl, none⟩
    | inr hr => exact .inr ⟨hr.1, hr.2, fun j m hm => none j (hr.1 ▸ hm.lt) m hm⟩
  · intro hk
    cases hk with
    | inl hl =>
      refine ⟨.inl hl.1, fun j hj m hm => ?_⟩
      cases keeps_snoc.1 hm with
      | inl hm => exact hl.2 j hj m hm
      | inr hm => exact absurd hl.1.lt (by omega)
    | inr hr =>
      refine ⟨.inr ⟨hr.1, hr.2.1⟩, fun j hj m hm => ?_⟩
      cases keeps_snoc.1 hm with
      | inl hm => exact hr.2.2 j m hm
      | inr hm => exact absurd hm.1 (by omega)

theorem Keeps.exists_first (hk : Keeps h i n) : ∃ j m, FirstKeeps h j m ∧ m.id = n.id := by
  induction i using Nat.strongRecOn generalizing n with
  | ind i ih =>
    by_cases hf : ∃ j < i, ∃ m, Keeps h j m ∧ m.id = n.id
    · obtain ⟨j, hj, m, hm, hid⟩ := hf
      obtain ⟨l, p, hp, hpid⟩ := ih j hj hm
      exact ⟨l, p, hp, hpid.trans hid⟩
    · refine ⟨i, n, ⟨hk, fun j hj m hm hid => ?_⟩, rfl⟩
      exact hf ⟨j, hj, m, hm, hid⟩

structure Retained (h : List Call) (s : Store) : Prop where
  marks : ∀ id, (id ∈ s.wayNodeIds ∨ id ∈ s.areaNodeIds) ↔ ∃ m ∈ h, m.Marks id
  nodup : s.nodes.keys.Nodup
  nodes : ∀ id n, s.nodes.get? id = some n ↔ ∃ i, FirstKeeps h i n ∧ n.id = id
  order : s.nodes.Pairwise fun r q => ∃ i j, i < j ∧ FirstKeeps h i r.2 ∧ FirstKeeps h j q.2

theorem Retained.start : Retained [] empty where
  marks := by simp [empty]
  nodup := .nil
  nodes := by simp [empty, FirstKeeps, Keeps]
  order := .nil

theorem Retained.has_iff (hr : Retained h s) (id : Int) :
    s.nodes.has id = true ↔ ∃ i n, Keeps h i n ∧ n.id = id := by
  constructor
  · intro hid
    obtain ⟨n, hn⟩ := Option.isSome_iff_exists.1 hid
    obtain ⟨i, hi, hid⟩ := (hr.nodes id n).1 hn
    exact ⟨i, n, hi.1, hid⟩
  · intro hk
    obtain ⟨i, n, hk, hid⟩ := hk
    obtain ⟨j, m, hm, hmid⟩ := hk.exists_first
    exact Table.has_of_get? ((hr.nodes id m).2 ⟨j, hm, hmid.trans hid⟩)

theorem Retained.none_of_new (hr : Retained h s) {id : Int} (new : s.nodes.has id = false) :
    ∀ j m, Keeps h j m → m.id ≠ id := by
  intro j m hm hid
  rw [(hr.has_iff id).2 ⟨j, m, hm, hid⟩] at new
  cases new

theorem Retained.wants_iff (hr : Retained h s) (n : Node) :
    s.wants n = true ↔ n.tags.isStop = true ∨ ∃ m ∈ h, m.Marks n.id := by
  rw [← hr.marks, wants, Bool.or_eq_true, Bool.or_eq_true, decide_eq_true_eq, decide_eq_true_eq, or_comm]

theorem mem_marked (id : Int) :
    (id ∈ s.marked.wayNodeIds ∨ id ∈ s.marked.areaNodeIds) ↔
      (id ∈ s.wayNodeIds ∨ id ∈ s.areaNodeIds) ∨
        ∃ w, (w ∈ s.ways.values ∨ w ∈ s.areaWays.values) ∧ 2 ≤ w.nodeRefs.length ∧ id ∈ w.nodeRefs := by
  simp only [marked, mem_insertAll, mem_nodesOfWays, or_and_right, exists_or]
  exact or_or_or_comm

theorem Retained.order_snoc (hr : Retained h s) (k : Call) :
    s.nodes.Pairwise fun r q =>
      ∃ i j, i < j ∧ FirstKeeps (h ++ [k]) i r.2 ∧ FirstKeeps (h ++ [k]) j q.2 := by
  refine hr.order.imp fun hij => ?_
  obtain ⟨i, j, hij, hi, hj⟩ := hij
  exact ⟨i, j, hij, firstKeeps_snoc.2 (.inl hi), firstKeeps_snoc.2 (.inl hj)⟩

theorem Retained.pass (hr : Retained h s) (nodes : t.nodes = s.nodes)
    (marks : ∀ id, (id ∈ t.wayNodeIds ∨ id ∈ t.areaNodeIds) ↔
      (id ∈ s.wayNodeIds ∨ id ∈ s.areaNodeIds) ∨ k.Marks id)
    (old : ∀ n, k.Retains h n → s.nodes.has n.id = true) : Retained (h ++ [k]) t where
  marks := by
    intro id
    rw [marks, hr.marks]
    simp [or_and_right, exists_or]
  nodup := nodes ▸ hr.nodup
  nodes := by
    intro id n
    rw [nodes, hr.nodes]
    apply exists_congr
    intro i
    rw [firstKeeps_snoc]
    have hno : ¬ (i = h.length ∧ k.Retains h n ∧ ∀ j m, Keeps h j m → m.id ≠ n.id) := by
      intro hk
      obtain ⟨j, m, hm, hid⟩ := (hr.has_iff n.id).1 (old n hk.2.1)
      exact hk.2.2 j m hm hid
    simp only [hno, or_false]
  order := by
    rw [nodes]
    exact hr.order_snoc k

theorem Retained.idle (hr : Retained h s) (nodes : t.nodes = s.nodes)
    (wayMarks : t.wayNodeIds = s.wayNodeIds) (areaMarks : t.areaNodeIds = s.areaNodeIds)
    (other : ¬ k.op.ConcernsNodes) : Retained (h ++ [k]) t := by
  refine hr.pass nodes ?_ ?_
  · intro id
    have unmarked : ¬ k.Marks id := by
      intro hm
      rw [hm.1] at other
      exact other trivial
    rw [wayMarks, areaMarks, or_iff_left unmarked]
  · intro n hn
    rw [hn.1] at other
    exact absurd trivial other

theorem Retained.keep (hr : Retained h s) (hn : Call.Retains h ⟨.addNode n, s⟩ n)
    (new : s.nodes.has n.id = false) :
    Retained (h ++ [⟨.addNode n, s⟩]) { s with nodes := s.nodes.put n.id n } where
  marks := by
    intro id
    rw [hr.marks]
    have hno : ¬ Call.Marks ⟨.addNode n, s⟩ id := fun hm => by cases hm.1
    simp [or_and_right, exists_or, hno]
  nodup := Table.nodup_keys_put hr.nodup
  nodes := by
    intro id m
    rw [Table.get?_put]
    split
    · rename_i hid
      constructor
      · intro hm
        cases hm
        exact ⟨h.length, firstKeeps_snoc.2 (.inr ⟨rfl, hn, hr.none_of_new new⟩), hid.symm⟩
      · intro hm
        obtain ⟨i, hi, hmid⟩ := hm
        cases firstKeeps_snoc.1 hi with
        | inl hi => exact absurd (hmid.trans hid) (hr.none_of_new new i m hi.1)
        | inr hi =>
          have hop := hi.2.1.1
          cases hop
          rfl
    · rename_i hid
      rw [hr.nodes]
      apply exists_congr
      intro i
      constructor
      · intro hi
        exact ⟨firstKeeps_snoc.2 (.inl hi.1), hi.2⟩
      · intro hi
        cases firstKeeps_snoc.1 hi.1 with
        | inl hf => exact ⟨hf, hi.2⟩
        | inr hf =>
          have hop := hf.2.1.1
          cases hop
          exact absurd hi.2.symm hid
  order := by
    change (s.nodes.put n.id n).Pairwise _
    rw [Table.put_of_new new, List.pairwise_append]
    refine ⟨?_, List.pairwise_singleton _ _, ?_⟩
    · exact hr.order_snoc _
    · intro r hrow q hq
      rw [List.mem_singleton] at hq
      obtain ⟨i, hi, -⟩ := (hr.nodes r.1 r.2).1 (Table.get?_of_mem hr.nodup hrow)
      refine ⟨i, h.length, hi.1.lt, firstKeeps_snoc.2 (.inl hi), ?_⟩
      rw [hq]
      exact firstKeeps_snoc.2 (.inr ⟨rfl, hn, hr.none_of_new new⟩)

variable [Limits] [Geometry]

theorem Retained.step {op : Operation} (hr : Retained h s) (step : CallStep c op s t) :
    Retained (h ++ [⟨op, s⟩]) t := by
  cases step with
  | refused _ _ closed =>
    refine hr.pass rfl (fun id => (or_iff_left ?_).symm) ?_
    · intro hm
      have hop : op = .linesComplete := hm.1
      rw [hop] at closed
      simp [hm.2.1] at closed
    · intro n hn
      have hop : op = .addNode n := hn.1
      rw [hop] at closed
      simp [hn.2.1] at closed
  | rental opened rental =>
    refine hr.pass rfl (fun id => (or_iff_left ?_).symm) ?_
    · exact fun hm => by cases hm.1
    · intro n hn
      have hop := hn.1
      cases hop
      rw [hn.2.2.1] at rental
      cases rental
  | node opened plain wanted new =>
    exact hr.keep ⟨rfl, opened, plain, (hr.wants_iff _).1 wanted⟩ new
  | passed opened plain old =>
    refine hr.pass rfl (fun id => (or_iff_left ?_).symm) ?_
    · exact fun hm => by cases hm.1
    · intro n hn
      have hop := hn.1
      cases hop
      exact old ((hr.wants_iff _).2 hn.2.2.2)
  | way opened adds =>
    exact hr.idle adds.nodes adds.wayNodeIds adds.areaNodeIds id
  | relation opened adds =>
    exact hr.idle adds.nodes adds.wayNodeIds adds.areaNodeIds id
  | marked opened =>
    refine hr.pass rfl ?_ ?_
    · intro id
      rw [mem_marked]
      exact or_congr_right ⟨fun hw => ⟨rfl, opened, hw⟩, fun hm => hm.2.2⟩
    · exact fun n hn => by cases hn.1
  | resolving opened same =>
    exact hr.idle same.nodes same.wayNodeIds same.areaNodeIds id
  | resolved opened same tried =>
    exact hr.idle same.nodes same.wayNodeIds same.areaNodeIds id
  | concluding opened same =>
    exact hr.idle same.nodes same.wayNodeIds same.areaNodeIds id
  | concluded opened same =>
    exact hr.idle same.nodes same.wayNodeIds same.areaNodeIds id

theorem Leads.retained (hl : Leads c empty h s) : Retained h s := by
  induction hl with
  | start => exact .start
  | call op _ single ih => exact ih.step (call_step single)

theorem CallStep.nodes {op : Operation} (step : CallStep c op s t) : s.nodes <+: t.nodes := by
  cases step with
  | node opened plain wanted new => exact ⟨_, (Table.put_of_new new).symm⟩
  | way opened adds => exact adds.nodes ▸ List.prefix_rfl
  | relation opened adds => exact adds.nodes ▸ List.prefix_rfl
  | resolving opened same => exact same.nodes ▸ List.prefix_rfl
  | resolved opened same tried => exact same.nodes ▸ List.prefix_rfl
  | concluding opened same => exact same.nodes ▸ List.prefix_rfl
  | concluded opened same => exact same.nodes ▸ List.prefix_rfl
  | refused _ _ closed => exact List.prefix_rfl
  | rental opened rental => exact List.prefix_rfl
  | passed opened plain old => exact List.prefix_rfl
  | marked opened => exact List.prefix_rfl

theorem nodes_of_run (ops : List Operation) : s.nodes <+: (run c ops s).nodes :=
  (leads_history ops).keeps (P := fun t => s.nodes <+: t.nodes) List.prefix_rfl
    fun _ single _ ht => ht.trans (call_step single).nodes

/-- The index of nodes after a run has, for each id, the first node that a call of the run retained, and
in the order of these calls; what is in the index stays there. -/
theorem retention (c : Settings) (ops more : List Operation) :
    (∀ id n, (run c ops empty).nodes.get? id = some n ↔
      ∃ i, FirstKeeps (history c ops empty) i n ∧ n.id = id) ∧
    (run c ops empty).nodes.keys.Nodup ∧
    ((run c ops empty).nodes.Pairwise fun r q =>
      ∃ i j, i < j ∧ FirstKeeps (history c ops empty) i r.2 ∧ FirstKeeps (history c ops empty) j q.2) ∧
    (run c ops empty).nodes <+: (run c (ops ++ more) empty).nodes := by
  have hr := (leads_history (c := c) (s := empty) ops).retained
  refine ⟨hr.nodes, hr.nodup, hr.order, ?_⟩
  rw [run_append]
  exact nodes_of_run more

end StreetMap.Store
