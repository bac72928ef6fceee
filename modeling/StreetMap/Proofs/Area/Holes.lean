import StreetMap.Proofs.Area
import StreetMap.Proofs.Messages
import StreetMap.Proofs.Number.Order
import StreetMap.Standard

/-!
Holes of areas.  An inner ring is a hole of the first of the least outer rings that hold it.  So the outer
rings part the inner rings among them, and each has its holes in the order of the inner rings.  An inner ring
that no outer ring holds keeps the area from being made.
-/

namespace StreetMap

open Number (IsFirstLeast firstLeast_of_foldl)

variable {nodes : Table Int Node} {ids : List Int} {outer inner : List RingOfNodes} {hole r : RingOfNodes}
  {homes : List Nat} {i j : Nat}

section Homes

variable [Geometry]

structure IsHome (outer : List RingOfNodes) (hole : RingOfNodes) (i : Nat) (r : RingOfNodes) : Prop where
  ring : outer[i]? = some r
  holds : hole.within r = true
  least : ∀ (j : Nat) (r' : RingOfNodes), outer[j]? = some r' → hole.within r' = true → ¬ r'.area < r.area
  first : ∀ (j : Nat) (r' : RingOfNodes), j < i → outer[j]? = some r' → hole.within r' = true →
    (r'.area == r.area) = false

def holders (outer : List RingOfNodes) (hole : RingOfNodes) : List (RingOfNodes × Nat) :=
  outer.zipIdx.filter fun (r, _) => hole.within r

theorem mem_holders : (r, i) ∈ holders outer hole ↔ outer[i]? = some r ∧ hole.within r = true := by
  rw [holders, List.mem_filter, List.mem_zipIdx_iff_getElem?]

theorem holders_ascending (outer : List RingOfNodes) (hole : RingOfNodes) :
    (holders outer hole).Pairwise fun x y => x.2 < y.2 := by
  refine List.Pairwise.filter _ (List.pairwise_map.1 ?_)
  rw [List.zipIdx_map_snd]
  exact List.pairwise_lt_range'

theorem smallest_eq_some {rs : List (RingOfNodes × Nat)} (h : Area.smallest rs = some i) :
    ∃ r, IsFirstLeast (fun r => r.1.area) rs (r, i) := by
  cases rs with
  | nil => cases h
  | cons x rs =>
    have least := firstLeast_of_foldl (fun r : RingOfNodes × Nat => r.1.area) x rs
    obtain rfl := Option.some.inj h
    exact ⟨_, least⟩

theorem home_of_homeOf (h : Area.homeOf outer hole = some i) : ∃ r, IsHome outer hole i r := by
  have smallest : Area.smallest (holders outer hole) = some i := h
  obtain ⟨r, least, before, after, split, first⟩ := smallest_eq_some smallest
  have own : outer[i]? = some r ∧ hole.within r = true := by
    rw [← mem_holders, split]
    exact List.mem_append_right _ List.mem_cons_self
  refine ⟨r, own.1, own.2, fun j r' hr' within => least (r', j) (mem_holders.2 ⟨hr', within⟩), ?_⟩
  intro j r' earlier hr' within
  have held := mem_holders.2 ⟨hr', within⟩
  have ascending := holders_ascending outer hole
  rw [split] at held ascending
  rcases List.mem_append.1 held with held | held
  · exact first (r', j) held
  · have later := (List.pairwise_append.1 ascending).2.1
    rcases List.mem_cons.1 held with same | held
    · cases same
      exact absurd earlier (Nat.lt_irrefl _)
    · exact absurd earlier (Nat.lt_asymm ((List.pairwise_cons.1 later).1 _ held))

theorem homeOf_eq_none (h : ∀ r ∈ outer, hole.within r = false) : Area.homeOf outer hole = none := by
  have unheld : holders outer hole = [] := by
    refine List.eq_nil_iff_forall_not_mem.2 fun (r, i) held => ?_
    obtain ⟨hr, within⟩ := mem_holders.1 held
    rw [h r (List.mem_of_getElem? hr)] at within
    cases within
  exact congrArg Area.smallest unheld

end Homes

section Parting

theorem flatMap_filter_perm {α κ : Type} [DecidableEq κ] (key : α → κ) {keys : List κ} (once : keys.Nodup)
    {xs : List α} (covered : ∀ x ∈ xs, key x ∈ keys) :
    (keys.flatMap fun k => xs.filter fun x => key x = k).Perm xs := by
  induction keys generalizing xs with
  | nil =>
    obtain rfl := List.eq_nil_iff_forall_not_mem.2 fun x hx => List.not_mem_nil (covered x hx)
    exact .nil
  | cons k keys ih =>
    obtain ⟨new, once⟩ := List.nodup_cons.1 once
    let others := xs.filter fun x => !decide (key x = k)
    have rest : (keys.flatMap fun l => xs.filter fun x => key x = l) =
        keys.flatMap fun l => others.filter fun x => key x = l := by
      refine List.flatMap_congr fun l hl => ?_
      rw [List.filter_filter]
      refine List.filter_congr fun x _ => ?_
      have other : l ≠ k := fun e => new (e ▸ hl)
      by_cases here : key x = l <;> simp [here, other]
    have parted : (keys.flatMap fun l => others.filter fun x => key x = l).Perm others := by
      refine ih once fun x hx => ?_
      obtain ⟨hx, other⟩ := List.mem_filter.1 hx
      exact (List.mem_cons.1 (covered x hx)).resolve_left (by simpa using other)
    rw [List.flatMap_cons, rest]
    exact (parted.append_left _).trans (List.filter_append_perm _ xs)

theorem map_some_filterMap {α β : Type} {f : α → Option β} {xs : List α} (h : ∀ x ∈ xs, (f x).isSome) :
    (xs.filterMap f).map some = xs.map f := by
  induction xs with
  | nil => rfl
  | cons x xs ih =>
    obtain ⟨hx, hxs⟩ := List.forall_mem_cons.1 h
    obtain ⟨y, hy⟩ := Option.isSome_iff_exists.1 hx
    rw [List.filterMap_cons_some hy, List.map_cons, List.map_cons, ih hxs, hy]

namespace Area

theorem mem_holeIndexes {a : Area} : j ∈ a.holeIndexes i ↔ a.homes[j]? = some i := by
  rw [holeIndexes, List.mem_filter, List.mem_range, decide_eq_true_iff, and_iff_right_iff_imp]
  exact fun h => (List.getElem?_eq_some_iff.1 h).1

theorem holeIndexes_ascending (a : Area) (i : Nat) : (a.holeIndexes i).Pairwise (· < ·) :=
  List.pairwise_lt_range.filter _

theorem holes_snoc (parent : Parent) (matched : inner.length = homes.length) (hole : RingOfNodes) (k i : Nat) :
    holes ⟨parent, outer, inner ++ [hole], homes ++ [k]⟩ i =
      holes ⟨parent, outer, inner, homes⟩ i ++ if k = i then [hole] else [] := by
  have before : ∀ j ∈ List.range homes.length, (homes ++ [k])[j]? = homes[j]? ∧
      (inner ++ [hole])[j]? = inner[j]? := by
    intro j hj
    rw [List.mem_range] at hj
    exact ⟨List.getElem?_append_left hj, List.getElem?_append_left (matched ▸ hj)⟩
  rw [holes, holes, holeIndexes, holeIndexes]
  dsimp only
  rw [List.length_append, List.length_singleton, List.range_succ, List.filter_append, List.filterMap_append]
  congr 1
  · rw [List.filter_congr fun j hj => by rw [(before j hj).1]]
    exact List.filterMap_congr fun j hj => (before j (List.mem_of_mem_filter hj)).2
  · by_cases home : k = i <;> simp [home, ← matched]

theorem holes_eq (a : Area) (matched : a.inner.length = a.homes.length) (i : Nat) :
    a.holes i = ((a.inner.zip a.homes).filter fun x => x.2 = i).map Prod.fst := by
  obtain ⟨parent, outer, inner, homes⟩ := a
  induction inner using List.reverseRecOn generalizing homes with
  | nil =>
    obtain rfl := List.eq_nil_of_length_eq_zero matched.symm
    rfl
  | append_singleton inner hole ih =>
    obtain rfl | ⟨homes, k, rfl⟩ := List.eq_nil_or_concat' homes
    · simp at matched
    · have matched : inner.length = homes.length := by simpa using matched
      rw [holes_snoc parent matched, ih homes matched]
      dsimp only
      rw [List.zip_append matched, List.filter_append, List.map_append]
      by_cases home : k = i <;> simp [home]

theorem holes_sublist (a : Area) (matched : a.inner.length = a.homes.length) (i : Nat) :
    (a.holes i).Sublist a.inner := by
  have pairs : (((a.inner.zip a.homes).filter fun x => x.2 = i).map Prod.fst).Sublist
      ((a.inner.zip a.homes).map Prod.fst) := List.filter_sublist.map Prod.fst
  rwa [List.map_fst_zip matched.le, ← holes_eq a matched] at pairs

theorem holes_parted (a : Area) (matched : a.inner.length = a.homes.length)
    (housed : ∀ i ∈ a.homes, i < a.outer.length) : (a.polygons.flatMap Prod.snd).Perm a.inner := by
  have lists : a.polygons.flatMap Prod.snd = (List.range a.outer.length).flatMap a.holes := by
    rw [polygons, List.flatMap_map, List.range_eq_range', ← List.zipIdx_map_snd, List.flatMap_map]
  have pairs : ((List.range a.outer.length).flatMap fun i =>
      (a.inner.zip a.homes).filter fun x => x.2 = i).Perm (a.inner.zip a.homes) := by
    refine flatMap_filter_perm Prod.snd List.nodup_range fun x hx => ?_
    exact List.mem_range.2 (housed x.2 (List.of_mem_zip hx).2)
  have parted := pairs.map Prod.fst
  rw [List.map_fst_zip matched.le, List.map_flatMap] at parted
  rw [lists, List.flatMap_congr fun i _ => holes_eq a matched i]
  exact parted

end Area

end Parting

section Positions

theorem RingOfNodes.IsSound.ends (h : r.IsSound nodes) : r.positions.head? = r.positions.getLast? := by
  have size := h.size
  have pairs := h.standing.flip
  have length := h.standing.length_eq
  have at_index (j : Nat) (hj : j < r.positions.length) :
      ∃ p id, r.positions[j]? = some p ∧ r.nodeIds[j]? = some id ∧ StandsAt nodes id p := by
    obtain ⟨id, hid, stands⟩ := at_index_of_forall₂ pairs (List.getElem?_eq_getElem hj)
    exact ⟨_, id, List.getElem?_eq_getElem hj, hid, stands⟩
  obtain ⟨p, id, hp, hid, n, hn, rfl⟩ := at_index 0 (by omega)
  obtain ⟨q, id', hq, hid', n', hn', rfl⟩ := at_index (r.positions.length - 1) (by omega)
  have closed := h.closed
  rw [List.head?_eq_getElem?, List.getLast?_eq_getElem?, hid, length, hid', Option.some.injEq] at closed
  subst closed
  obtain rfl : n = n' := Option.some.inj (hn.symm.trans hn')
  rw [List.head?_eq_getElem?, List.getLast?_eq_getElem?, hp, hq]

variable [Geometry]

theorem RingOfNodes.fault?_of_validate {ps : List Position} (h : validate ids ps = .ok r) :
    Geometry.fault? ps = none := by
  rw [validate] at h
  split at h
  · cases h
  · assumption

theorem RingOfNodes.closed_of_build (closed : Ring.isClosed ids = true) (h : build nodes ids = .ok r) :
    Geometry.closed r.positions = r.positions := by
  have sound := sound_of_build closed h
  obtain ⟨missing, unknown⟩ | few | judged := build_cases nodes closed
  · rw [unknown] at h
    cases h
  · rw [few] at h
    cases h
  · rw [judged.judged] at h
    have positions : r.positions = positionsOf nodes ids := congrArg RingOfNodes.positions (eq_of_validate h)
    refine Geometry.closed_of_ends sound.ends sound.size ?_
    rw [positions]
    exact fault?_of_validate h

theorem RingsOf.closed {ways : List Ring.Refs} {rs : List RingOfNodes} (h : RingsOf nodes ways rs) :
    ∀ r ∈ rs, Geometry.closed r.positions = r.positions := by
  obtain ⟨rings, assembled, pairs⟩ := h
  intro r hr
  obtain ⟨ids, hids, built⟩ := exists_of_forall₂ pairs.flip hr
  exact RingOfNodes.closed_of_build (Ring.isClosed_of_assemble assembled ids hids) built

end Positions

section Results

variable [Geometry] {parent : Parent} {outerWays innerWays : List Ring.Refs} {a : Area}

/-- The inner rings of an area are the holes of its outer rings. -/
structure Area.IsParted (a : Area) : Prop where
  /-- An inner ring is in the list of one outer ring, its home, and in no other. -/
  home : ∀ (j : Nat) (hole : RingOfNodes), a.inner[j]? = some hole →
    ∃ i r, IsHome a.outer hole i r ∧ ∀ k, j ∈ a.holeIndexes k ↔ k = i
  /-- A list has the inner rings at its indexes, in their order. -/
  ordered : ∀ i, (a.holeIndexes i).Pairwise (· < ·) ∧
    (a.holes i).map some = (a.holeIndexes i).map (a.inner[·]?)
  parted : (a.polygons.flatMap Prod.snd).Perm a.inner
  total : (a.polygons.map fun p => p.2.length).sum = a.inner.length
  /-- A polygon for each outer ring: its positions and those of its holes, as the rings have them. -/
  coordinates : a.coordinates = a.outer.zipIdx.map fun (r, i) =>
    r.positions :: (a.holes i).map RingOfNodes.positions

theorem Area.IsBuilt.homed (h : a.IsBuilt parent outerWays innerWays nodes) :
    List.Forall₂ (fun hole i => ∃ r, IsHome a.outer hole i r) a.inner a.homes :=
  (mapM_eq_some.1 h.homes).imp fun _ _ => home_of_homeOf

theorem Area.IsBuilt.isParted (h : a.IsBuilt parent outerWays innerWays nodes) : a.IsParted := by
  have matched := h.homed.length_eq
  have housed : ∀ i ∈ a.homes, i < a.outer.length := by
    intro i hi
    obtain ⟨hole, -, r, home⟩ := exists_of_forall₂ h.homed.flip hi
    exact (List.getElem?_eq_some_iff.1 home.ring).1
  have parted := a.holes_parted matched housed
  constructor
  case parted => exact parted
  case total => rw [← parted.length_eq, List.length_flatMap]
  case home =>
    intro j hole hj
    obtain ⟨i, hi, r, home⟩ := at_index_of_forall₂ h.homed hj
    refine ⟨i, r, home, fun k => ?_⟩
    rw [mem_holeIndexes, hi, Option.some.injEq, eq_comm]
  case ordered =>
    refine fun i => ⟨a.holeIndexes_ascending i, map_some_filterMap fun j hj => ?_⟩
    have known : j < a.inner.length :=
      matched ▸ (List.getElem?_eq_some_iff.1 (mem_holeIndexes.1 hj)).1
    rw [List.getElem?_eq_getElem known]
    rfl
  case coordinates =>
    rw [coordinates, shapes, polygons, List.map_map, List.map_map]
    refine List.map_congr_left fun (r, i) hr => ?_
    have outer : Geometry.closed r.positions = r.positions := by
      refine h.outer.closed r (List.mem_of_getElem? (i := i) ?_)
      exact List.mem_zipIdx_iff_getElem?.1 hr
    have inner : ∀ hole ∈ a.holes i, Geometry.closed hole.positions = hole.positions := by
      exact fun hole hh => h.inner.closed hole ((a.holes_sublist matched i).subset hh)
    dsimp only [Function.comp]
    rw [List.map_cons, List.map_cons, outer, List.map_map]
    exact congrArg (r.positions :: ·) (List.map_congr_left inner)

theorem Area.build_of_stray (outers : RingsOf nodes outerWays outer) (inners : RingsOf nodes innerWays inner)
    (stray : hole ∈ inner) (unheld : ∀ r ∈ outer, hole.within r = false) :
    Area.build parent outerWays innerWays nodes =
      .error (if outer = [] then .noOuterRing parent.key else .strayHole parent.key) := by
  obtain ⟨outerIds, houter, ho⟩ := outers
  obtain ⟨innerIds, hinner, hi⟩ := inners
  have unhomed : inner.mapM (homeOf outer) = none := mapM_eq_none stray (homeOf_eq_none unheld)
  rw [build, houter, hinner]
  cases ho with
  | nil => rfl
  | cons hr hrs =>
    dsimp only
    rw [rings_of_built (.cons hr hrs), rings_of_built hi]
    simp only [bind, Except.bind, unhomed]
    rfl

/-- If ways make an area, each inner ring is a hole of the smallest outer ring that holds it, and the outer
rings, which stand where their nodes do, part the inner rings among them.  If no outer ring holds some inner
ring, the ways are rejected, with a text that can be written just if the id of the parent can. -/
theorem holes_placed [Limits] (parent : Parent) (outerWays innerWays : List Ring.Refs) (nodes : Table Int Node) :
    (∀ a, Area.build parent outerWays innerWays nodes = .ok a →
      RingsOf nodes outerWays a.outer ∧ RingsOf nodes innerWays a.inner ∧ a.IsSound nodes ∧ a.IsParted) ∧
    (∀ outer inner, RingsOf nodes outerWays outer → RingsOf nodes innerWays inner →
      (∃ hole ∈ inner, ∀ r ∈ outer, hole.within r = false) →
      ∃ e, Area.build parent outerWays innerWays nodes = .error e ∧ e.isRejection = true ∧
        ((∃ text, e.message = .ok text) ↔ Numeral.fits parent.key.id = true)) := by
  constructor
  · intro a h
    have built := Area.built_of_build h
    exact ⟨built.outer, built.inner, (Area.sound_of_build h).2, built.isParted⟩
  · rintro outer inner outers inners ⟨hole, stray, unheld⟩
    refine ⟨_, Area.build_of_stray outers inners stray unheld, ?_⟩
    split
    · exact ⟨rfl, (AreaError.writtenIf_message _).exists_iff⟩
    · exact ⟨rfl, (AreaError.writtenIf_message _).exists_iff⟩

end Results

section Triangles

open Standard

def cornersOf (first : Int) (low high : Float) : Table Int Node :=
  [(first, ⟨first, ⟨low, low⟩, []⟩), (first + 1, ⟨first + 1, ⟨high, low⟩, []⟩),
    (first + 2, ⟨first + 2, ⟨low, high⟩, []⟩)]

def aroundCorners (first : Int) : Ring.Refs := [first, first + 1, first + 2, first]

def nested : Table Int Node := cornersOf 10 0 20 ++ cornersOf 20 1 15 ++ cornersOf 30 2 10 ++ cornersOf 40 3 6

def island : RingOfNodes := ⟨aroundCorners 30, [⟨2, 2⟩, ⟨10, 2⟩, ⟨2, 10⟩, ⟨2, 2⟩]⟩

def lake : RingOfNodes := ⟨aroundCorners 20, [⟨1, 1⟩, ⟨15, 1⟩, ⟨1, 15⟩, ⟨1, 1⟩]⟩

theorem island_rings : RingsOf nested [aroundCorners 30] [island] :=
  ⟨[aroundCorners 30], by decide +kernel, .cons (by decide +kernel) .nil⟩

theorem lake_rings : RingsOf nested [aroundCorners 20] [lake] :=
  ⟨[aroundCorners 20], by decide +kernel, .cons (by decide +kernel) .nil⟩

theorem lake_unheld : lake.within island = false := by decide +kernel

theorem island_holes_placed :
    (∃ a, Area.build ⟨⟨.relation, 1⟩, []⟩ [aroundCorners 10, aroundCorners 30]
        [aroundCorners 40, aroundCorners 20] nested = .ok a ∧ a.homes = [1, 0] ∧ a.IsParted) ∧
      ∃ e, Area.build ⟨⟨.relation, 1⟩, []⟩ [aroundCorners 30] [aroundCorners 20] nested = .error e ∧
        e.isRejection = true ∧ ∃ text, e.message = .ok text := by
  constructor
  · have made : (Area.build ⟨⟨.relation, 1⟩, []⟩ [aroundCorners 10, aroundCorners 30]
        [aroundCorners 40, aroundCorners 20] nested).map Area.homes = .ok [1, 0] := by decide +kernel
    obtain ⟨a, built, homes⟩ := map_eq_ok.1 made
    exact ⟨a, built, homes, ((holes_placed _ _ _ _).1 a built).2.2.2⟩
  · have unheld : ∃ hole ∈ [lake], ∀ r ∈ [island], hole.within r = false :=
      ⟨lake, List.mem_singleton_self _, List.forall_mem_singleton.2 lake_unheld⟩
    obtain ⟨e, failed, rejected, written⟩ := (holes_placed _ _ _ _).2 _ _ island_rings lake_rings unheld
    exact ⟨e, failed, rejected, written.2 rfl⟩

/-- An inner ring that lies in no outer ring is not what ends the construction, if there is another of which the
geometry makes none; and it is not told of a relation whose id is too long. -/
theorem lake_unrejected :
    RingsOf nested [aroundCorners 30] [island] ∧ RingsOf nested [aroundCorners 20] [lake] ∧
      lake.within island = false ∧
      (∃ e, Area.build ⟨⟨.relation, 1⟩, []⟩ [aroundCorners 30] [aroundCorners 20, aroundCorners 50]
        (nested ++ cornersOf 50 Numeral.nan 1) = .error e ∧ e.isRejection = false) ∧
      ∃ e, Area.build ⟨⟨.relation, Nat.pow 10 4300⟩, []⟩ [aroundCorners 30] [aroundCorners 20] nested = .error e ∧
        e.message = .error .tooLongToWrite := by
  have failed {parent : Parent} {innerWays : List Ring.Refs} {nodes : Table Int Node} {e : AreaError}
      (h : (Area.build parent [aroundCorners 30] innerWays nodes).map Area.homes = .error e) :
      Area.build parent [aroundCorners 30] innerWays nodes = .error e := by
    cases built : Area.build parent [aroundCorners 30] innerWays nodes with
    | ok a =>
      rw [built] at h
      cases h
    | error e =>
      rw [built] at h
      cases h
      rfl
  refine ⟨island_rings, lake_rings, lake_unheld, ⟨.ring (.refused
    "IllegalArgumentException: Points of LinearRing do not form a closed linestring"), failed ?_, rfl⟩,
    .strayHole ⟨.relation, Nat.pow 10 4300⟩, failed ?_, ?_⟩ <;> decide +kernel

end Triangles

end StreetMap
