import StreetMap.Proofs.Ring.Tour

/-!
Circuits of ways that do not touch.  Where no node starts two of the ways, the way on from a way is known
from the ways alone, whatever their order and their directions.  So two families of circuits along the same
ways are the same up to the order of the circuits, and each circuit up to its start and its direction.
-/

namespace StreetMap.Ring

variable {ws us : List Refs} {w a b : Refs} {u v t : Int}

section Paths

inductive Path : Int → List Refs → Int → Prop
  | nil (v : Int) : Path v [] v
  | cons {u v t : Int} {w : Refs} {ws : List Refs} (head : w.head? = some u) (last : w.getLast? = some v)
      (rest : Path v ws t) : Path u (w :: ws) t

theorem Path.append (h : Path u us v) (h' : Path v ws t) : Path u (us ++ ws) t := by
  induction h with
  | nil => exact h'
  | cons head last _ ih => exact .cons head last (ih h')

theorem Path.of_append (h : Path u (us ++ ws) t) : ∃ v, Path u us v ∧ Path v ws t := by
  induction us generalizing u with
  | nil => exact ⟨u, .nil u, h⟩
  | cons w us ih =>
    cases h with
    | cons head last rest =>
      obtain ⟨v, first, second⟩ := ih rest
      exact ⟨v, .cons head last first, second⟩

def turned (ws : List Refs) : List Refs := (ws.map List.reverse).reverse

@[simp] theorem turned_cons (w : Refs) (ws : List Refs) : turned (w :: ws) = turned ws ++ [w.reverse] := by
  simp [turned]

@[simp] theorem mem_turned : w ∈ turned ws ↔ w.reverse ∈ ws := by
  rw [turned, List.mem_reverse, List.mem_map]
  constructor
  · rintro ⟨u, hu, rfl⟩
    rwa [List.reverse_reverse]
  · exact fun h => ⟨w.reverse, h, List.reverse_reverse w⟩

@[simp] theorem turned_turned (ws : List Refs) : turned (turned ws) = ws := by
  simp [turned]

theorem Path.turned (h : Path u ws v) : Path v (turned ws) u := by
  induction h with
  | nil v => exact .nil v
  | cons head last _ ih =>
    rw [turned_cons]
    exact ih.append (.cons (by rwa [List.head?_reverse]) (by rwa [List.getLast?_reverse]) (.nil _))

theorem Path.exists_head? (h : Path u ws t) (hw : w ∈ ws) : ∃ v, w.head? = some v := by
  induction h with
  | nil => cases hw
  | @cons u v t w' ws head last _ ih =>
    rcases List.mem_cons.1 hw with rfl | hw
    · exact ⟨u, head⟩
    · exact ih hw

theorem Path.heads_perm (h : Path u ws t) :
    (some t :: ws.map List.head?).Perm (some u :: ws.map List.getLast?) := by
  induction h with
  | nil => exact .refl _
  | cons head last _ ih =>
    rw [List.map_cons, List.map_cons, head, last]
    exact (List.Perm.swap _ _ _).trans (ih.cons _)

theorem Path.cons_flatMap_tail (h : Path u ws t) :
    u :: ws.flatMap List.tail = ws.flatMap List.dropLast ++ [t] := by
  induction h with
  | nil => rfl
  | @cons u v t w ws head last _ ih =>
    obtain ⟨others, hw⟩ := List.head?_eq_some_iff.1 head
    obtain ⟨before, hw'⟩ := List.getLast?_eq_some_iff.1 last
    calc u :: (w :: ws).flatMap List.tail
        = w ++ ws.flatMap List.tail := by rw [List.flatMap_cons, hw]; rfl
      _ = before ++ v :: ws.flatMap List.tail := by rw [hw', List.append_assoc]; rfl
      _ = before ++ (ws.flatMap List.dropLast ++ [t]) := by rw [ih]
      _ = (w :: ws).flatMap List.dropLast ++ [t] := by
        rw [List.flatMap_cons, hw', List.dropLast_concat, List.append_assoc]

end Paths

section Arcs

def arcs (ws : List Refs) : List Refs := ws.flatMap fun w => [w, w.reverse]

theorem arcs_cons (w : Refs) (ws : List Refs) : arcs (w :: ws) = w :: w.reverse :: arcs ws := rfl

theorem arcs_append (us ws : List Refs) : arcs (us ++ ws) = arcs us ++ arcs ws := List.flatMap_append

theorem arcs_perm (h : us.Perm ws) : (arcs us).Perm (arcs ws) := h.flatMap_right _

theorem mem_arcs : w ∈ arcs ws ↔ w ∈ ws ∨ w.reverse ∈ ws := by
  induction ws with
  | nil => simp [arcs]
  | cons u ws ih =>
    rw [arcs_cons]
    simp only [List.mem_cons, ih, List.reverse_eq_iff]
    tauto

def Turns (w w' : Refs) : Prop := w' = w ∨ w' = w.reverse

theorem arcs_of_turns (h : List.Forall₂ Turns us ws) : (arcs us).Perm (arcs ws) := by
  induction h with
  | nil => exact .refl _
  | cons turns _ ih =>
    obtain rfl | rfl := turns
    · exact (ih.cons _).cons _
    · rw [arcs_cons, arcs_cons, List.reverse_reverse]
      exact (List.Perm.swap _ _ _).trans ((ih.cons _).cons _)

theorem arcs_turned (ws : List Refs) : (arcs (turned ws)).Perm (arcs ws) := by
  refine (arcs_perm (List.reverse_perm _)).trans (arcs_of_turns ?_).symm
  rw [List.forall₂_map_right_iff, List.forall₂_same]
  exact fun w _ => .inr rfl

theorem degree_eq (v : Int) (ws : List Refs) : degree v ws = ((arcs ws).map List.head?).count (some v) := by
  induction ws with
  | nil => rfl
  | cons w ws ih =>
    rw [degree_cons, ih, arcs_cons]
    simp only [List.map_cons, List.head?_reverse, List.count_cons, beq_iff_eq]
    omega

theorem degree_eq_heads_add_lasts (v : Int) (ws : List Refs) :
    degree v ws = (ws.map List.head?).count (some v) + (ws.map List.getLast?).count (some v) := by
  induction ws with
  | nil => rfl
  | cons w ws ih =>
    rw [degree_cons, ih]
    simp only [List.map_cons, List.count_cons, beq_iff_eq]
    omega

theorem degree_of_perm (h : (arcs us).Perm (arcs ws)) (v : Int) : degree v us = degree v ws := by
  rw [degree_eq, degree_eq]
  exact (h.map _).count_eq _

end Arcs

section Circuits

structure IsCircuit (ws : List Refs) : Prop where
  nonempty : ws ≠ []
  path : ∃ v, Path v ws v

variable {c d : List Refs} {cs ds : List (List Refs)}

theorem IsCircuit.heads_perm (h : IsCircuit ws) : (ws.map List.head?).Perm (ws.map List.getLast?) := by
  obtain ⟨v, path⟩ := h.path
  exact path.heads_perm.cons_inv

theorem IsCircuit.turned (h : IsCircuit ws) : IsCircuit (turned ws) := by
  obtain ⟨nonempty, v, path⟩ := h
  exact ⟨by simpa [Ring.turned] using nonempty, v, path.turned⟩

theorem IsCircuit.rotate (h : IsCircuit (us ++ ws)) : IsCircuit (ws ++ us) := by
  obtain ⟨nonempty, v, path⟩ := h
  obtain ⟨u, first, second⟩ := path.of_append
  exact ⟨by simpa [and_comm] using nonempty, u, second.append first⟩

theorem heads_perm (circuits : ∀ c ∈ cs, IsCircuit c) :
    (cs.flatten.map List.head?).Perm (cs.flatten.map List.getLast?) := by
  rw [List.map_flatten, List.map_flatten]
  refine List.Perm.flatten_congr ?_
  rw [List.forall₂_map_left_iff, List.forall₂_map_right_iff, List.forall₂_same]
  exact fun c hc => (circuits c hc).heads_perm

/-- Circuits that meet neither themselves nor one another. -/
structure Apart (cs : List (List Refs)) : Prop where
  circuits : ∀ c ∈ cs, IsCircuit c
  simple : (cs.flatten.map List.head?).Nodup

theorem apart_of_degree (circuits : ∀ c ∈ cs, IsCircuit c) (few : ∀ v, degree v cs.flatten ≤ 2) : Apart cs := by
  refine ⟨circuits, List.nodup_iff_count_le_one.2 fun o => ?_⟩
  cases o with
  | none =>
    refine Nat.le_trans (Nat.le_of_eq (List.count_eq_zero_of_not_mem fun nowhere => ?_)) (Nat.zero_le 1)
    obtain ⟨w, hw, head⟩ := List.mem_map.1 nowhere
    obtain ⟨c, hc, hw⟩ := List.mem_flatten.1 hw
    obtain ⟨u, path⟩ := (circuits c hc).path
    obtain ⟨v, head'⟩ := path.exists_head? hw
    cases head.symm.trans head'
  | some v =>
    have ends := few v
    rw [degree_eq_heads_add_lasts, (heads_perm circuits).count_eq] at ends
    rw [(heads_perm circuits).count_eq]
    omega

theorem Apart.tail (h : Apart (c :: cs)) : Apart cs := by
  obtain ⟨circuits, simple⟩ := h
  rw [List.flatten_cons, List.map_append] at simple
  exact ⟨(List.forall_mem_cons.1 circuits).2, simple.of_append_right⟩

theorem Apart.perm (h : Apart cs) (hp : cs.Perm ds) : Apart ds := by
  refine ⟨fun d hd => h.circuits d (hp.mem_iff.2 hd), ?_⟩
  exact (hp.flatten.map List.head?).nodup_iff.1 h.simple

theorem Apart.replace (h : Apart (c :: cs)) (circuit : IsCircuit d)
    (heads : (d.map List.head?).Perm (c.map List.head?)) : Apart (d :: cs) := by
  obtain ⟨circuits, simple⟩ := h
  refine ⟨List.forall_mem_cons.2 ⟨circuit, (List.forall_mem_cons.1 circuits).2⟩, ?_⟩
  rw [List.flatten_cons, List.map_append] at simple ⊢
  exact (heads.append_right _).nodup_iff.2 simple

theorem Apart.rotate (h : Apart ((us ++ ws) :: cs)) : Apart ((ws ++ us) :: cs) :=
  h.replace (h.circuits _ List.mem_cons_self).rotate (List.perm_append_comm.map _)

theorem Apart.turn (h : Apart (c :: cs)) : Apart (turned c :: cs) := by
  have circuit := h.circuits c List.mem_cons_self
  refine h.replace circuit.turned ?_
  have lasts : (turned c).map List.head? = (c.map List.getLast?).reverse := by
    simp [turned, Function.comp_def]
  rw [lasts]
  exact (List.reverse_perm _).trans circuit.heads_perm.symm

theorem Apart.eq_of_head? (h : Apart cs) (ha : a ∈ cs.flatten) (hb : b ∈ cs.flatten)
    (same : a.head? = b.head?) : a = b :=
  List.inj_on_of_nodup_map h.simple ha hb same

theorem Apart.eq_of_getLast? (h : Apart cs) (ha : a ∈ cs.flatten) (hb : b ∈ cs.flatten)
    (same : a.getLast? = b.getLast?) : a = b :=
  List.inj_on_of_nodup_map ((heads_perm h.circuits).nodup_iff.1 h.simple) ha hb same

theorem Apart.next_or_back (h : Apart cs) (ha : a ∈ cs.flatten) (hb : b ∈ cs.flatten)
    (meet : a.getLast? = b.head?) (hw : w ∈ arcs cs.flatten) (start : w.head? = b.head?) :
    w = b ∨ w = a.reverse := by
  rcases mem_arcs.1 hw with hw | hw
  · exact .inl (h.eq_of_head? hw hb start)
  · refine .inr (List.reverse_eq_iff.1 (h.eq_of_getLast? hw ha ?_))
    rw [List.getLast?_reverse, start, meet]

end Circuits

section Agreement

variable {c d : List Refs} {cs ds : List (List Refs)} (hc : Apart cs) (hd : Apart ds)
  (same : (arcs cs.flatten).Perm (arcs ds.flatten))
include hc hd same

theorem next_unique {b' : Refs} (ha : a ∈ cs.flatten ∧ a ∈ ds.flatten) (hb : b ∈ cs.flatten) (hb' : b' ∈ ds.flatten)
    (meet : a.getLast? = b.head?) (meet' : a.getLast? = b'.head?) : b = b' := by
  have known : b ∈ arcs ds.flatten := same.mem_iff.1 (mem_arcs.2 (.inl hb))
  have known' : b' ∈ arcs cs.flatten := same.mem_iff.2 (mem_arcs.2 (.inl hb'))
  have heads : b.head? = b'.head? := meet.symm.trans meet'
  obtain on | back := hd.next_or_back ha.2 hb' meet' known heads
  · exact on
  obtain on' | back' := hc.next_or_back ha.1 hb meet known' heads.symm
  · exact on'.symm
  · exact back.trans back'.symm

theorem paths_agree (ha : a ∈ cs.flatten ∧ a ∈ ds.flatten) (start : a.getLast? = some u)
    (path : Path u us v) (path' : Path u ws v) (hu : ∀ w ∈ us, w ∈ cs.flatten ∧ w.head? ≠ some v)
    (hw : ∀ w ∈ ws, w ∈ ds.flatten ∧ w.head? ≠ some v) : us = ws := by
  induction us generalizing a u ws with
  | nil =>
    cases path
    cases path' with
    | nil => rfl
    | cons head => exact absurd head (hw _ List.mem_cons_self).2
  | cons b us ih =>
    obtain ⟨known, away⟩ := List.forall_mem_cons.1 hu
    cases path with
    | cons head last rest =>
      cases path' with
      | nil => exact absurd head known.2
      | @cons _ _ _ b' _ head' last' rest' =>
        obtain ⟨known', away'⟩ := List.forall_mem_cons.1 hw
        obtain rfl := next_unique hc hd same ha known.1 known'.1 (start.trans head.symm) (start.trans head'.symm)
        cases last.symm.trans last'
        rw [ih ⟨known.1, known'.1⟩ last rest rest' away away']

end Agreement

section Matching

variable {c d e p xs ys : List Refs} {cs ds : List (List Refs)}

theorem Apart.away (h : Apart ((a :: p) :: cs)) (start : a.head? = some v) :
    ∀ w ∈ p, w ∈ ((a :: p) :: cs).flatten ∧ w.head? ≠ some v := by
  intro w hw
  refine ⟨List.mem_append_left _ (List.mem_cons_of_mem a hw), fun back => ?_⟩
  have simple := h.simple
  rw [List.flatten_cons, List.map_append, List.map_cons] at simple
  have fresh := (List.nodup_cons.1 simple.of_append_left).1
  exact fresh (start.trans back.symm ▸ List.mem_map_of_mem hw)

theorem circuits_agree {q : List Refs} (hc : Apart ((a :: p) :: cs)) (hd : Apart ((a :: q) :: ds))
    (same : (arcs ((a :: p) :: cs).flatten).Perm (arcs ((a :: q) :: ds).flatten)) : p = q := by
  obtain ⟨-, v, path⟩ := hc.circuits _ List.mem_cons_self
  obtain ⟨-, v', path'⟩ := hd.circuits _ List.mem_cons_self
  cases path with
  | cons head last rest =>
    cases path' with
    | cons head' last' rest' =>
      cases head.symm.trans head'
      cases last.symm.trans last'
      have shared : a ∈ ((a :: p) :: cs).flatten ∧ a ∈ ((a :: q) :: ds).flatten := by simp
      exact paths_agree hc hd same shared last rest rest' (hc.away head) (hd.away head)

def Same (c d : List Refs) : Prop := ∃ xs ys, c = ys ++ xs ∧ (d = xs ++ ys ∨ turned d = xs ++ ys)

theorem Apart.exists_through (hd : Apart ds) (ha : a ∈ arcs ds.flatten) :
    ∃ d e rest, ds.Perm (d :: rest) ∧ (e = d ∨ e = turned d) ∧ a ∈ e ∧ Apart (e :: rest) ∧
      (arcs ds.flatten).Perm (arcs (e :: rest).flatten) := by
  have found : ∃ d ∈ ds, a ∈ d ∨ a ∈ turned d := by
    simpa only [mem_arcs, List.mem_flatten, mem_turned, ← exists_or, ← and_or_left] using ha
  obtain ⟨d, hmem, through⟩ := found
  obtain ⟨before, after, rfl⟩ := List.append_of_mem hmem
  have perm : (before ++ d :: after).Perm (d :: (before ++ after)) := List.perm_middle
  have apart := hd.perm perm
  have same := arcs_perm perm.flatten
  obtain on | back := through
  · exact ⟨d, d, _, perm, .inl rfl, on, apart, same⟩
  · refine ⟨d, turned d, _, perm, .inr rfl, back, apart.turn, same.trans ?_⟩
    rw [List.flatten_cons, List.flatten_cons, arcs_append, arcs_append]
    exact (arcs_turned d).symm.append_right _

theorem circuits_match (hc : Apart cs) (hd : Apart ds) (same : (arcs cs.flatten).Perm (arcs ds.flatten)) :
    ∃ matched, matched.Perm ds ∧ List.Forall₂ Same cs matched := by
  induction cs generalizing ds with
  | nil =>
    cases ds with
    | nil => exact ⟨[], .refl _, .nil⟩
    | cons d ds =>
      obtain ⟨w, ws, rfl⟩ := List.exists_cons_of_ne_nil (hd.circuits d List.mem_cons_self).nonempty
      cases same.nil_eq
  | cons c cs ih =>
    obtain ⟨a, p, rfl⟩ := List.exists_cons_of_ne_nil (hc.circuits c List.mem_cons_self).nonempty
    have ha : a ∈ arcs ds.flatten := same.mem_iff.1 List.mem_cons_self
    obtain ⟨d, e, rest, perm, direction, through, apart, same'⟩ := hd.exists_through ha
    obtain ⟨xs, ys, rfl⟩ := List.append_of_mem through
    have turn : (arcs ((xs ++ a :: ys) :: rest).flatten).Perm (arcs ((a :: ys ++ xs) :: rest).flatten) := by
      rw [List.flatten_cons, List.flatten_cons]
      exact arcs_perm (List.perm_append_comm.append_right _)
    have along := same.trans (same'.trans turn)
    obtain rfl := circuits_agree hc apart.rotate along
    rw [List.flatten_cons, List.flatten_cons, arcs_append, arcs_append] at along
    obtain ⟨matched, hperm, hmatched⟩ := ih hc.tail apart.tail ((List.perm_append_left_iff _).1 along)
    exact ⟨d :: matched, (hperm.cons d).trans perm.symm,
      .cons ⟨xs, a :: ys, rfl, direction.imp Eq.symm Eq.symm⟩ hmatched⟩

end Matching

end StreetMap.Ring
