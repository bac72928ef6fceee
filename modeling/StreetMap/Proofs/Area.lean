import StreetMap.Area
import StreetMap.Proofs.Computation
import StreetMap.Proofs.Ring
import StreetMap.Proofs.Table

/-!
Areas look nodes up by id, so tables that answer alike give the same areas.  The rings of an area that is
built are closed, have three nodes at least, stand where these do, and go along the nodes of its ways.
-/

namespace StreetMap

variable {nodes nodes' : Table Int Node} {ids : List Int}

def StandsAt (nodes : Table Int Node) (id : Int) (p : Position) : Prop :=
  ∃ n, nodes.get? id = some n ∧ n.position = p

def positionsOf (nodes : Table Int Node) (ids : List Int) : List Position :=
  ids.filterMap fun id => (nodes.get? id).map Node.position

/-- A closed ring of three distinct nodes at least, each of which stands where the ring has it. -/
structure RingOfNodes.IsSound (nodes : Table Int Node) (r : RingOfNodes) : Prop where
  closed : r.nodeIds.head? = r.nodeIds.getLast?
  distinct : 3 ≤ r.nodeIds.eraseDups.length
  size : 4 ≤ r.positions.length
  standing : List.Forall₂ (StandsAt nodes) r.nodeIds r.positions

def Area.IsSound (nodes : Table Int Node) (a : Area) : Prop :=
  ∀ r ∈ a.outer ++ a.inner, r.IsSound nodes

def Area.ringNodes (a : Area) : List Int := (a.outer ++ a.inner).flatMap RingOfNodes.nodeIds

theorem RingOfNodes.IsSound.mono {r : RingOfNodes} (h : r.IsSound nodes)
    (kept : ∀ id n, nodes.get? id = some n → nodes'.get? id = some n) : r.IsSound nodes' :=
  { h with standing := h.standing.imp fun id _ ⟨n, hn, hp⟩ => ⟨n, kept id n hn, hp⟩ }

theorem Area.IsSound.mono {a : Area} (h : a.IsSound nodes)
    (kept : ∀ id n, nodes.get? id = some n → nodes'.get? id = some n) : a.IsSound nodes' :=
  fun r hr => (h r hr).mono kept

section Lookup

variable [Geometry]

theorem RingOfNodes.build_congr_on (h : ∀ id ∈ ids, nodes.get? id = nodes'.get? id) :
    RingOfNodes.build nodes ids = RingOfNodes.build nodes' ids := by
  have missing : (ids.filter fun id => !nodes.has id) = ids.filter fun id => !nodes'.has id := by
    apply List.filter_congr
    intro id hid
    rw [Table.has, Table.has, h id hid]
  have standing : (ids.filterMap fun id => (nodes.get? id).map Node.position) =
      ids.filterMap fun id => (nodes'.get? id).map Node.position := by
    apply List.filterMap_congr
    intro id hid
    rw [h id hid]
  rw [RingOfNodes.build, RingOfNodes.build, missing, standing]

theorem Area.build_congr_on {outer inner : List Ring.Refs}
    (h : ∀ id ∈ (outer ++ inner).flatten, nodes.get? id = nodes'.get? id) (parent : Parent) :
    Area.build parent outer inner nodes = Area.build parent outer inner nodes' := by
  have rings : ∀ ways rings : List Ring.Refs, Ring.assemble ways = some rings →
      (∀ id ∈ ways.flatten, nodes.get? id = nodes'.get? id) →
      rings.mapM (RingOfNodes.build nodes) = rings.mapM (RingOfNodes.build nodes') := by
    intro ways rings assembled hways
    apply mapM_congr
    intro ring hring
    apply RingOfNodes.build_congr_on
    intro id hid
    exact hways id ((Ring.mem_assemble assembled).1 (List.mem_flatten_of_mem hring hid))
  simp only [List.flatten_append, List.mem_append, or_imp, forall_and] at h
  rw [Area.build, Area.build]
  split
  · rfl
  · rename_i houter hinner
    rw [rings _ _ houter h.1, rings _ _ hinner h.2]
  · rfl

theorem Area.build_congr (h : ∀ id, nodes.get? id = nodes'.get? id) (parent : Parent)
    (outer inner : List Ring.Refs) :
    Area.build parent outer inner nodes = Area.build parent outer inner nodes' :=
  Area.build_congr_on (fun id _ => h id) parent

end Lookup

section Building

theorem forall₂_standing (found : ∀ id ∈ ids, nodes.has id = true) :
    List.Forall₂ (StandsAt nodes) ids (positionsOf nodes ids) := by
  induction ids with
  | nil => exact .nil
  | cons id ids ih =>
    obtain ⟨n, hn⟩ := Option.isSome_iff_exists.1 (found id List.mem_cons_self)
    rw [positionsOf, List.filterMap_cons_some (by rw [hn]; rfl)]
    exact .cons ⟨n, hn, rfl⟩ (ih fun id hid => found id (List.mem_cons_of_mem _ hid))

theorem length_of_closed (closed : ids.head? = ids.getLast?) (distinct : 3 ≤ ids.eraseDups.length) :
    4 ≤ ids.length := by
  match ids with
  | [] => cases distinct
  | [a] => simp [List.eraseDups_cons] at distinct
  | [a, b] =>
    obtain rfl : a = b := by simpa using closed
    simp [List.eraseDups_cons] at distinct
  | [a, b, d] =>
    obtain rfl : a = d := by simpa using closed
    by_cases hb : b = a <;> simp [List.eraseDups_cons, hb] at distinct
  | _ :: _ :: _ :: _ :: _ => simp

variable [Geometry]

theorem RingOfNodes.eq_of_validate {ps : List Position} {r : RingOfNodes} (h : validate ids ps = .ok r) :
    r = ⟨ids, ps⟩ := by
  rw [validate] at h
  split at h
  · cases h
  · split at h
    · split at h
      · cases h
      · cases h
        rfl
    · split at h <;> cases h

/-- A ring goes before the geometry: all its nodes are there, and they give it four positions at least. -/
structure RingOfNodes.IsJudged (nodes : Table Int Node) (ids : List Int) : Prop where
  distinct : 3 ≤ ids.eraseDups.length
  standing : List.Forall₂ (StandsAt nodes) ids (positionsOf nodes ids)
  size : 4 ≤ (positionsOf nodes ids).length
  judged : build nodes ids = validate ids (positionsOf nodes ids)

theorem RingOfNodes.build_cases (nodes : Table Int Node) (closed : Ring.isClosed ids = true) :
    (∃ missing, build nodes ids = .error (.unknownNodes missing)) ∨
      build nodes ids = .error (.tooFewNodes ids) ∨ IsJudged nodes ids := by
  rw [build]
  split
  · rename_i missing
    split
    · exact .inr (.inl rfl)
    · rename_i distinct
      have found : ∀ id ∈ ids, nodes.has id = true := by
        simpa [List.filter_eq_nil_iff] using missing
      have standing := forall₂_standing found
      have closed : ids.head? = ids.getLast? := of_decide_eq_true closed
      have size := length_of_closed closed (Nat.le_of_not_lt distinct)
      rw [standing.length_eq] at size
      refine .inr (.inr ⟨Nat.le_of_not_lt distinct, standing, size, ?_⟩)
      rw [build, missing]
      exact if_neg distinct
  · exact .inl ⟨_, rfl⟩

theorem RingOfNodes.sound_of_build {r : RingOfNodes} (closed : Ring.isClosed ids = true)
    (h : build nodes ids = .ok r) : r.IsSound nodes := by
  obtain ⟨missing, unknown⟩ | few | judged := build_cases nodes closed
  · rw [unknown] at h
    cases h
  · rw [few] at h
    cases h
  · rw [judged.judged] at h
    cases eq_of_validate h
    exact ⟨of_decide_eq_true closed, judged.distinct, judged.size, judged.standing⟩

theorem RingOfNodes.nodeIds_of_build {r : RingOfNodes} (h : build nodes ids = .ok r) : r.nodeIds = ids := by
  rw [build] at h
  split at h
  · split at h
    · cases h
    · rw [eq_of_validate h]
  · cases h

theorem built_of_rings {rings : List Ring.Refs} {rs : List RingOfNodes}
    (h : Area.liftRing (rings.mapM (RingOfNodes.build nodes)) = .ok rs) :
    List.Forall₂ (fun ids r => RingOfNodes.build nodes ids = .ok r) rings rs := by
  apply mapM_eq_ok.1
  cases hb : rings.mapM (RingOfNodes.build nodes) with
  | error e =>
    rw [hb] at h
    cases h
  | ok rs =>
    rw [hb] at h
    cases h
    rfl

theorem rings_of_built {rings : List Ring.Refs} {rs : List RingOfNodes}
    (h : List.Forall₂ (fun ids r => RingOfNodes.build nodes ids = .ok r) rings rs) :
    Area.liftRing (rings.mapM (RingOfNodes.build nodes)) = .ok rs := by
  rw [mapM_eq_ok.2 h]
  rfl

/-- The rings that are assembled from ways are made of nodes, in order. -/
def RingsOf (nodes : Table Int Node) (ways : List Ring.Refs) (rs : List RingOfNodes) : Prop :=
  ∃ ids, Ring.assemble ways = some ids ∧ List.Forall₂ (fun ids r => RingOfNodes.build nodes ids = .ok r) ids rs

structure Area.IsBuilt (parent : Parent) (outer inner : List Ring.Refs) (nodes : Table Int Node) (a : Area) :
    Prop where
  parent : a.parent = parent
  outer : RingsOf nodes outer a.outer
  inner : RingsOf nodes inner a.inner
  nonempty : a.outer ≠ []
  homes : a.inner.mapM (Area.homeOf a.outer) = some a.homes
  valid : Geometry.isValid a.shapes = true

theorem Area.built_of_build {parent : Parent} {outer inner : List Ring.Refs} {a : Area}
    (h : Area.build parent outer inner nodes = .ok a) : a.IsBuilt parent outer inner nodes := by
  rw [Area.build] at h
  split at h
  · cases h
  · rename_i outerIds innerIds ringed houter hinner
    obtain ⟨outerRings, ho, h⟩ := bind_eq_ok.1 h
    obtain ⟨innerRings, hi, h⟩ := bind_eq_ok.1 h
    split at h
    · cases h
    · rename_i homes hhomes
      dsimp only at h
      split at h
      · rename_i valid
        cases h
        have pairs := built_of_rings ho
        refine ⟨rfl, ⟨outerIds, houter, pairs⟩, ⟨innerIds, hinner, built_of_rings hi⟩, ?_, hhomes, valid⟩
        rintro (rfl : outerRings = [])
        obtain rfl := List.forall₂_nil_right_iff.1 pairs
        exact ringed rfl
      · split at h <;> cases h
  · cases h

theorem Area.rings_of_build {parent : Parent} {outer inner : List Ring.Refs} {a : Area}
    (h : Area.build parent outer inner nodes = .ok a) :
    a.parent = parent ∧ ∃ outerIds innerIds,
      Ring.assemble outer = some outerIds ∧ Ring.assemble inner = some innerIds ∧
      List.Forall₂ (fun ids r => RingOfNodes.build nodes ids = .ok r) outerIds a.outer ∧
      List.Forall₂ (fun ids r => RingOfNodes.build nodes ids = .ok r) innerIds a.inner := by
  obtain ⟨parent, ⟨outerIds, houter, ho⟩, ⟨innerIds, hinner, hi⟩, -, -, -⟩ := built_of_build h
  exact ⟨parent, outerIds, innerIds, houter, hinner, ho, hi⟩

theorem sound_of_rings {rings : List Ring.Refs} {rs : List RingOfNodes}
    (closed : ∀ ring ∈ rings, Ring.isClosed ring = true)
    (pairs : List.Forall₂ (fun ids r => RingOfNodes.build nodes ids = .ok r) rings rs) :
    ∀ r ∈ rs, r.IsSound nodes := by
  induction pairs with
  | nil => exact List.forall_mem_nil _
  | cons hr _ ih =>
    rw [List.forall_mem_cons] at closed ⊢
    exact ⟨RingOfNodes.sound_of_build closed.1 hr, ih closed.2⟩

theorem Area.sound_of_build {parent : Parent} {outer inner : List Ring.Refs} {a : Area}
    (h : Area.build parent outer inner nodes = .ok a) : a.parent = parent ∧ a.IsSound nodes := by
  obtain ⟨hparent, outerIds, innerIds, houter, hinner, ho, hi⟩ := rings_of_build h
  refine ⟨hparent, List.forall_mem_append.2 ⟨?_, ?_⟩⟩
  · exact sound_of_rings (Ring.isClosed_of_assemble houter) ho
  · exact sound_of_rings (Ring.isClosed_of_assemble hinner) hi

theorem nodeIds_of_rings {rings : List Ring.Refs} {rs : List RingOfNodes}
    (pairs : List.Forall₂ (fun ids r => RingOfNodes.build nodes ids = .ok r) rings rs) :
    rs.flatMap RingOfNodes.nodeIds = rings.flatten := by
  induction pairs with
  | nil => rfl
  | cons hr _ ih => rw [List.flatMap_cons, List.flatten_cons, ih, RingOfNodes.nodeIds_of_build hr]

theorem Area.mem_ringNodes {parent : Parent} {outer inner : List Ring.Refs} {a : Area} {id : Int}
    (h : Area.build parent outer inner nodes = .ok a) :
    id ∈ a.ringNodes ↔ id ∈ (outer ++ inner).flatten := by
  obtain ⟨-, outerIds, innerIds, houter, hinner, ho, hi⟩ := rings_of_build h
  rw [ringNodes, List.flatMap_append, nodeIds_of_rings ho, nodeIds_of_rings hi, List.mem_append,
    Ring.mem_assemble houter, Ring.mem_assemble hinner, List.flatten_append, List.mem_append]

end Building

section Verdict

variable [Geometry]

inductive Area.Unbuilt (parent : Parent) (outer inner : List Ring.Refs) (nodes : Table Int Node) : AreaError → Prop
  | openRings : Unbuilt parent outer inner nodes (.openRings parent.key)
  | noOuterRing : Unbuilt parent outer inner nodes (.noOuterRing parent.key)
  | ring {ways rings : List Ring.Refs} {ids : List Int} {e : RingError} (side : ways = outer ∨ ways = inner)
      (assembled : Ring.assemble ways = some rings) (member : ids ∈ rings)
      (failed : RingOfNodes.build nodes ids = .error e) : Unbuilt parent outer inner nodes (.ring e)
  | strayHole : Unbuilt parent outer inner nodes (.strayHole parent.key)
  | invalid (reason : String) : Unbuilt parent outer inner nodes (.invalid parent.key reason)
  | refused {a : Area} {reason : String} (outerRings : RingsOf nodes outer a.outer)
      (innerRings : RingsOf nodes inner a.inner) (homes : a.inner.mapM (Area.homeOf a.outer) = some a.homes)
      (invalid : Geometry.isValid a.shapes = false) (unexplained : Geometry.explain a.shapes = .error reason) :
      Unbuilt parent outer inner nodes (.refused reason)

theorem Area.unbuilt_of_ring {parent : Parent} {ways rings outer inner : List Ring.Refs} {e : AreaError}
    (side : ways = outer ∨ ways = inner) (assembled : Ring.assemble ways = some rings)
    (h : liftRing (rings.mapM (RingOfNodes.build nodes)) = .error e) : Unbuilt parent outer inner nodes e := by
  cases hb : rings.mapM (RingOfNodes.build nodes) with
  | ok rs =>
    rw [hb] at h
    cases h
  | error re =>
    rw [hb] at h
    cases h
    obtain ⟨ids, member, failed⟩ := exists_of_mapM_error hb
    exact .ring side assembled member failed

theorem Area.unbuilt_of_build {parent : Parent} {outer inner : List Ring.Refs} {e : AreaError}
    (h : build parent outer inner nodes = .error e) : Unbuilt parent outer inner nodes e := by
  rw [build] at h
  split at h
  · cases h
    exact .noOuterRing
  · rename_i outerIds innerIds _ houter hinner
    cases ho : liftRing (outerIds.mapM (RingOfNodes.build nodes)) with
    | error oe =>
      rw [ho] at h
      cases h
      exact unbuilt_of_ring (.inl rfl) houter ho
    | ok outerRings =>
      cases hi : liftRing (innerIds.mapM (RingOfNodes.build nodes)) with
      | error ie =>
        rw [ho, hi] at h
        cases h
        exact unbuilt_of_ring (.inr rfl) hinner hi
      | ok innerRings =>
        rw [ho, hi] at h
        dsimp only [bind, Except.bind] at h
        split at h
        · cases h
          exact .strayHole
        · rename_i homes held
          split at h
          · cases h
          · rename_i invalid
            split at h
            · cases h
              exact .invalid _
            · rename_i unexplained
              cases h
              exact .refused ⟨outerIds, houter, built_of_rings ho⟩ ⟨innerIds, hinner, built_of_rings hi⟩ held
                (Bool.not_eq_true _ ▸ invalid) unexplained
  · cases h
    exact .openRings

inductive Unjudged (nodes : Table Int Node) (outer inner : List Ring.Refs) : Prop
  | ring {ways rings : List Ring.Refs} {ids : List Int} {reason : String} (side : ways = outer ∨ ways = inner)
      (assembled : Ring.assemble ways = some rings) (member : ids ∈ rings)
      (refused : Geometry.fault? (positionsOf nodes ids) = some reason ∨
        Geometry.isValid [[positionsOf nodes ids]] = false ∧
          Geometry.explain [[positionsOf nodes ids]] = .error reason) : Unjudged nodes outer inner
  | area {a : Area} {reason : String} (outerRings : RingsOf nodes outer a.outer)
      (innerRings : RingsOf nodes inner a.inner) (homes : a.inner.mapM (Area.homeOf a.outer) = some a.homes)
      (invalid : Geometry.isValid a.shapes = false) (unexplained : Geometry.explain a.shapes = .error reason) :
      Unjudged nodes outer inner

theorem RingOfNodes.refused_of_build {reason : String} (h : build nodes ids = .error (.refused reason)) :
    Geometry.fault? (positionsOf nodes ids) = some reason ∨
      Geometry.isValid [[positionsOf nodes ids]] = false ∧
        Geometry.explain [[positionsOf nodes ids]] = .error reason := by
  rw [build] at h
  split at h
  · split at h
    · cases h
    · rw [validate, ← positionsOf] at h
      split at h
      · rename_i fault
        cases h
        exact .inl fault
      · split at h
        · split at h <;> cases h
        · rename_i invalid
          split at h
          · cases h
          · rename_i unexplained
            cases h
            exact .inr ⟨Bool.not_eq_true _ ▸ invalid, unexplained⟩
  · cases h

theorem Area.Unbuilt.unjudged {parent : Parent} {outer inner : List Ring.Refs} {e : AreaError}
    (h : Unbuilt parent outer inner nodes e) (silent : e.isRejection = false) : Unjudged nodes outer inner := by
  cases h with
  | @ring ways rings ids e side assembled member failed =>
    cases e with
    | refused reason => exact .ring side assembled member (RingOfNodes.refused_of_build failed)
    | _ => cases silent
  | refused outerRings innerRings homes invalid unexplained =>
    exact .area outerRings innerRings homes invalid unexplained
  | _ => cases silent

end Verdict

end StreetMap
