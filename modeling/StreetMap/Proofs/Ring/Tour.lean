import Mathlib.Data.Sym.Sym2
import StreetMap.Proofs.Ring.Degree

/-!
Rings as tours.  Every ring that is not itself a way goes along whole open ways, one after the other, each
in one of its directions; all tours together take each open way once.  So the rings run through the same
segments as the ways.
-/

namespace StreetMap.Ring

variable {ways ws rest rings : List Refs} {chain next ring w : Refs} {tail : Int}

/-- A way in the direction in which it is taken. -/
structure Leg where
  way : Refs
  backwards : Bool
  deriving Repr, DecidableEq

variable {l : Leg} {ls : List Leg}

def Leg.refs (l : Leg) : Refs := if l.backwards then l.way.reverse else l.way

/-- The nodes along the legs; the node that two legs share is written once. -/
def course : List Leg → Refs
  | [] => []
  | l :: ls => l.refs ++ ls.flatMap fun m => m.refs.tail

/-- The undirected segments between neighbouring nodes. -/
def segments : Refs → List (Sym2 Int)
  | [] => []
  | [_] => []
  | id :: next :: ids => s(id, next) :: segments (next :: ids)

structure IsTrail (ls : List Leg) : Prop where
  nonempty : ls ≠ []
  opened : ∀ l ∈ ls, isClosed l.way = false
  joined : ls.IsChain fun l m => l.refs.getLast? = m.refs.head?
  early : ∀ l ∈ ls.dropLast, l.refs.getLast? ≠ (course ls).head?

structure IsTour (ls : List Leg) : Prop extends IsTrail ls where
  closed : isClosed (course ls) = true

section Segments

theorem segments_join (ids others : Refs) (id : Int) :
    segments (ids ++ id :: others) = segments (ids ++ [id]) ++ segments (id :: others) := by
  fun_induction segments ids with
  | case1 => rfl
  | case2 => rfl
  | case3 a b ids ih => simpa [segments] using ih

theorem segments_append (last : chain.getLast? = some tail) (head : next.head? = some tail) :
    segments (chain ++ next.tail) = segments chain ++ segments next := by
  obtain ⟨ids, rfl⟩ := List.getLast?_eq_some_iff.1 last
  obtain ⟨others, rfl⟩ := List.head?_eq_some_iff.1 head
  rw [List.append_assoc]
  exact segments_join ids others tail

theorem segments_reverse (w : Refs) : segments w.reverse = (segments w).reverse := by
  fun_induction segments w with
  | case1 => rfl
  | case2 => rfl
  | case3 id next ids ih =>
    have turn : (id :: next :: ids).reverse = ids.reverse ++ next :: [id] := by simp
    rw [turn, segments_join, ← List.reverse_cons, ih, List.reverse_cons, Sym2.eq_swap]
    rfl

theorem Leg.segments_refs (l : Leg) : (segments l.refs).Perm (segments l.way) := by
  rw [Leg.refs]
  split
  · rw [segments_reverse]
    exact List.reverse_perm _
  · exact .refl _

end Segments

section Course

theorem Leg.isClosed_refs (l : Leg) : isClosed l.refs = isClosed l.way := by
  rw [Leg.refs]
  split
  · exact isClosed_reverse l.way
  · rfl

theorem Leg.exists_head? (opened : isClosed l.way = false) : ∃ id, l.refs.head? = some id := by
  rw [← l.isClosed_refs] at opened
  cases head : l.refs.head? with
  | none =>
    rw [List.head?_eq_none_iff.1 head] at opened
    cases opened
  | some id => exact ⟨id, rfl⟩

theorem course_snoc (nonempty : ls ≠ []) : course (ls ++ [l]) = course ls ++ l.refs.tail := by
  cases ls with
  | nil => exact absurd rfl nonempty
  | cons m ls => simp [course]

theorem getLast?_course (ls : List Leg) (opened : isClosed l.way = false) :
    (course (ls ++ [l])).getLast? = l.refs.getLast? := by
  cases ls with
  | nil => simp [course]
  | cons m ls =>
    obtain ⟨id, head⟩ := l.exists_head? opened
    rw [← l.isClosed_refs] at opened
    rw [course_snoc (List.cons_ne_nil m ls), getLast?_join head opened]

theorem IsTrail.course_ne_nil (h : IsTrail ls) : course ls ≠ [] := by
  cases ls with
  | nil => exact absurd rfl h.nonempty
  | cons l ls =>
    obtain ⟨id, head⟩ := l.exists_head? (h.opened l List.mem_cons_self)
    obtain ⟨others, refs⟩ := List.head?_eq_some_iff.1 head
    simp [course, refs]

theorem segments_course (opened : ∀ l ∈ ls, isClosed l.way = false)
    (joined : ls.IsChain fun l m => l.refs.getLast? = m.refs.head?) :
    segments (course ls) = ls.flatMap fun l => segments l.refs := by
  induction ls using List.reverseRecOn with
  | nil => rfl
  | append_singleton ls l ih =>
    rw [List.forall_mem_append] at opened
    obtain ⟨joined, -, junction⟩ := List.isChain_append.1 joined
    obtain rfl | ⟨ms, m, rfl⟩ := ls.eq_nil_or_concat'
    · simp [course]
    · obtain ⟨id, head⟩ := l.exists_head? (opened.2 l (List.mem_singleton_self l))
      have last : (course (ms ++ [m])).getLast? = some id := by
        rw [getLast?_course ms (opened.1 m (by simp)), junction m (by simp) l (by simp), head]
      rw [course_snoc (by simp), segments_append last head, ih opened.1 joined]
      simp only [List.flatMap_append, List.flatMap_singleton]

end Course

section Trails

theorem IsTrail.snoc (h : IsTrail ls) (unclosed : isClosed (course ls) = false)
    (last : (course ls).getLast? = some tail) (head : l.refs.head? = some tail)
    (opened : isClosed l.way = false) : IsTrail (ls ++ [l]) := by
  obtain ⟨ms, m, rfl⟩ := ls.eq_nil_or_concat'.resolve_left h.nonempty
  have reached : m.refs.getLast? = some tail := by
    rw [← getLast?_course ms (h.opened m (by simp)), last]
  refine ⟨by simp, ?_, ?_, ?_⟩
  · exact List.forall_mem_append.2 ⟨h.opened, List.forall_mem_singleton.2 opened⟩
  · refine List.isChain_append.2 ⟨h.joined, .singleton l, ?_⟩
    simp [reached, head]
  · have early := h.early
    rw [List.dropLast_concat] at early ⊢
    rw [course_snoc h.nonempty, head?_join last]
    refine List.forall_mem_append.2 ⟨early, List.forall_mem_singleton.2 fun back => ?_⟩
    rw [reached] at back
    simp [isClosed, last, ← back] at unclosed

theorem close_tour (h : close (course ls) ws = some (ring, rest)) (trail : IsTrail ls)
    (unclosed : ∀ w ∈ ws, isClosed w = false) :
    ∃ more, ring = course (ls ++ more) ∧ IsTour (ls ++ more) ∧ ws.Perm (more.map Leg.way ++ rest) := by
  generalize hchain : course ls = chain at h
  fun_induction close chain ws generalizing ls with
  | case1 chain ws closed =>
    cases h
    subst hchain
    exact ⟨[], by simp, by simpa using ⟨trail, closed⟩, .refl _⟩
  | case2 => cases h
  | case3 => cases h
  | case4 chain ws open_ tail last next rest' taken ih =>
    subst hchain
    obtain ⟨pre, w, post, rfl, rfl, head, direction⟩ := takeFrom_eq_some taken
    obtain ⟨l, rfl, rfl⟩ : ∃ l : Leg, l.way = w ∧ l.refs = next := by
      obtain rfl | rfl := direction
      · exact ⟨⟨next, false⟩, rfl, rfl⟩
      · exact ⟨⟨w, true⟩, rfl, rfl⟩
    simp only [List.forall_mem_append, List.forall_mem_cons] at unclosed
    have longer := trail.snoc (by simpa using open_) last head unclosed.2.1
    obtain ⟨more, hring, tour, perm⟩ := ih longer (List.forall_mem_append.2 ⟨unclosed.1, unclosed.2.2⟩)
      (course_snoc trail.nonempty) h
    rw [List.append_assoc, List.singleton_append] at hring tour
    exact ⟨l :: more, hring, tour, List.perm_middle.trans (perm.cons _)⟩

theorem isTrail_singleton (unclosed : isClosed w = false) : IsTrail [⟨w, false⟩] :=
  ⟨by simp, by simpa using unclosed, .singleton _, by simp⟩

theorem chains_tours (h : chains ws = some rings) (unclosed : ∀ w ∈ ws, isClosed w = false) :
    ∃ tours : List (List Leg), rings = tours.map course ∧ (∀ ls ∈ tours, IsTour ls) ∧
      (tours.flatten.map Leg.way).Perm ws := by
  fun_induction chains ws generalizing rings with
  | case1 => cases h; exact ⟨[], rfl, List.forall_mem_nil _, .refl _⟩
  | case2 => cases h
  | case3 w ws ring rest closed ih =>
    obtain ⟨rings, hrings, rfl⟩ := Option.map_eq_some_iff.1 h
    rw [List.forall_mem_cons] at unclosed
    have start : w = course [⟨w, false⟩] := by simp [course, Leg.refs]
    rw [start] at closed
    obtain ⟨more, rfl, tour, perm⟩ := close_tour closed (isTrail_singleton unclosed.1) unclosed.2
    have left : ∀ u ∈ rest, isClosed u = false := fun u hu =>
      unclosed.2 u (perm.mem_iff.2 (List.mem_append_right _ hu))
    obtain ⟨tours, rfl, hall, hperm⟩ := ih hrings left
    refine ⟨([⟨w, false⟩] ++ more) :: tours, rfl, List.forall_mem_cons.2 ⟨tour, hall⟩, ?_⟩
    rw [List.flatten_cons, List.map_append]
    exact (hperm.append_left (w :: more.map Leg.way)).trans (perm.symm.cons w)

end Trails

section Conservation

theorem segments_tours {tours : List (List Leg)} (h : ∀ ls ∈ tours, IsTour ls) :
    ((tours.map course).flatMap segments).Perm ((tours.flatten.map Leg.way).flatMap segments) := by
  have along : (tours.map course).flatMap segments = tours.flatten.flatMap fun l => segments l.refs := by
    rw [List.flatMap_map, List.flatten_eq_flatMap, List.flatMap_assoc]
    exact List.flatMap_congr fun ls hls => segments_course (h ls hls).opened (h ls hls).joined
  rw [along, List.flatMap_map]
  exact List.Perm.flatMap_left _ fun l _ => l.segments_refs

/-- The rings are the closed ways and tours of the open ones, each of which is taken once; nothing else is
in them, and no segment is lost. -/
theorem assemble_tours (h : assemble ways = some rings) :
    ∃ tours : List (List Leg), rings = ways.filter isClosed ++ tours.map course ∧
      (∀ ls ∈ tours, IsTour ls) ∧ (tours.flatten.map Leg.way).Perm (openWays ways) ∧
      (∀ ring ∈ rings, ring ≠ [] ∧ ring.head? = ring.getLast?) ∧
      (rings.flatMap segments).Perm (ways.flatMap segments) := by
  obtain ⟨long, joined, hjoined, rfl⟩ := assemble_eq_some h
  obtain ⟨tours, rfl, tour, perm⟩ := chains_tours hjoined fun w hw => (mem_openWays.1 hw).2
  refine ⟨tours, rfl, tour, perm, ?_, ?_⟩
  · intro ring hring
    refine ⟨?_, of_decide_eq_true (isClosed_of_assemble h ring hring)⟩
    rw [List.mem_append, List.mem_filter, List.mem_map] at hring
    obtain ⟨hring, -⟩ | ⟨ls, hls, rfl⟩ := hring
    · rintro rfl
      exact absurd (long [] hring) (by decide)
    · exact (tour ls hls).course_ne_nil
  · rw [List.flatMap_append]
    refine ((segments_tours tour).trans (perm.flatMap_right segments)).append_left _ |>.trans ?_
    rw [← List.flatMap_append]
    exact (List.filter_append_perm isClosed ways).flatMap_right segments

def lakeAndShore : List Refs := [[1, 2, 3], [7, 8, 9, 7], [1, 4, 3]]

theorem assemble_lakeAndShore : assemble lakeAndShore = some [[7, 8, 9, 7], [1, 2, 3, 4, 1]] := by
  decide +kernel

theorem lakeAndShore_tours :
    assemble lakeAndShore = some [[7, 8, 9, 7], [1, 2, 3, 4, 1]] ∧
    ∃ tours : List (List Leg), [[7, 8, 9, 7], [1, 2, 3, 4, 1]] = [[7, 8, 9, 7]] ++ tours.map course ∧
      (∀ ls ∈ tours, IsTour ls) ∧ (tours.flatten.map Leg.way).Perm [[1, 2, 3], [1, 4, 3]] := by
  obtain ⟨tours, rings, tour, perm, -⟩ := assemble_tours assemble_lakeAndShore
  exact ⟨assemble_lakeAndShore, tours, rings, tour, perm⟩

end Conservation

end StreetMap.Ring
