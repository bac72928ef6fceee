import Mathlib.Data.List.TakeWhile
import StreetMap.Proofs.Messages
import StreetMap.Proofs.Store.AreaVerdict
import StreetMap.Proofs.Store.Placing

/-!
The boundary of a multipolygon: its outer and inner ways, once all of them are kept with all their nodes.
What a try at a multipolygon leaves depends on whether its boundary is there and makes an area.
-/

namespace StreetMap

def Member.isBoundary (m : Member) : Bool := m.role.isText "outer" || m.role.isText "inner"

namespace Store

variable {c : Settings} {s t : Store} {r : Relation} {ms : List Member}

def waysInRole (s : Store) (ms : List Member) (role : String) : List Way :=
  (ms.filter fun m => m.role.isText role).filterMap fun m => s.way? m.ref

def boundaryOf (s : Store) (ms : List Member) : Boundary :=
  ⟨waysInRole s ms "outer", waysInRole s ms "inner"⟩

/-- All ways of the boundary are kept, with all their nodes. -/
def HasBoundary (s : Store) (ms : List Member) : Prop :=
  ∀ m ∈ ms, m.isBoundary = true → ∃ w, s.way? m.ref = some w ∧ s.hasNodes w.nodeRefs = true

/-- Some way of the boundary has the id and goes along the node. -/
def BoundBy (s : Store) (r : Relation) (node way : Int) : Prop :=
  ∃ m ∈ r.wayMembers, m.isBoundary = true ∧ ∃ w, s.way? m.ref = some w ∧ w.id = way ∧ node ∈ w.nodeRefs

def resolves (s : Store) (m : Member) : Bool :=
  !m.isBoundary || (s.way? m.ref).any fun w => s.hasNodes w.nodeRefs

def unknownRoles (s : Store) (ms : List Member) : List Member :=
  (ms.takeWhile (resolves s)).filter fun m => !m.isBoundary

def roleFinding (r : Relation) (m : Member) : Anomaly :=
  ⟨.multipolygonRoleUnexpected, r.id, "Unexpected role '" ++ m.role.display ++ "' for way " ++ toString m.ref
    ++ " in multipolygon " ++ toString r.id⟩

theorem hasBoundary_iff : HasBoundary s ms ↔ ∀ m ∈ ms, resolves s m = true := by
  refine forall₂_congr fun m _ => ?_
  rw [resolves, Bool.or_eq_true, Option.any_eq_true]
  cases m.isBoundary <;> simp

theorem unknownRoles_of_boundary (h : HasBoundary s ms) :
    unknownRoles s ms = ms.filter fun m => !m.isBoundary := by
  rw [unknownRoles, List.takeWhile_eq_self_iff.2 (hasBoundary_iff.1 h)]

theorem unknownRoles_of_missing {m : Member} (h : resolves s m = false) : unknownRoles s (m :: ms) = [] := by
  rw [unknownRoles, List.takeWhile_cons_of_neg (by simp [h])]
  rfl

theorem unknownRoles_of_found {m : Member} (boundary : m.isBoundary = true) (h : resolves s m = true) :
    unknownRoles s (m :: ms) = unknownRoles s ms := by
  simp [unknownRoles, h, boundary]

theorem unknownRoles_of_other {m : Member} (other : m.isBoundary = false) :
    unknownRoles s (m :: ms) = m :: unknownRoles s ms := by
  simp [unknownRoles, resolves, other]

theorem waysInRole_append (ms ms' : List Member) (role : String) :
    waysInRole s (ms ++ ms') role = waysInRole s ms role ++ waysInRole s ms' role := by
  rw [waysInRole, List.filter_append, List.filterMap_append]
  rfl

theorem mem_boundaryOf {w : Way} :
    w ∈ (boundaryOf s ms).outer ++ (boundaryOf s ms).inner ↔
      ∃ m ∈ ms, m.isBoundary = true ∧ s.way? m.ref = some w := by
  simp only [boundaryOf, waysInRole, List.mem_append, List.mem_filterMap, List.mem_filter,
    Member.isBoundary, Bool.or_eq_true, or_and_right, and_or_left, exists_or, and_assoc]

theorem inner_of_outer {v : Json} (h : v.isText "outer" = true) : v.isText "inner" = false := by
  rw [Json.isText_eq_true] at h
  rw [h]
  rfl

theorem member_cases (s : Store) (m : Member) :
    resolves s m = false ∨ m.isBoundary = true ∧ resolves s m = true ∨ m.isBoundary = false := by
  cases boundary : m.isBoundary with
  | false => exact .inr (.inr rfl)
  | true =>
    cases resolves s m with
    | false => exact .inl rfl
    | true => exact .inr (.inl ⟨rfl, rfl⟩)

section Gathering

variable [Limits]

def roleFits (r : Relation) (m : Member) : Bool :=
  m.role.fits && Numeral.fits m.ref && Numeral.fits r.id

def RolesFit (s : Store) (r : Relation) (ms : List Member) : Prop :=
  ∀ m ∈ unknownRoles s ms, roleFits r m = true

/-- Unknown roles are found up to the first one that cannot be written. -/
def roleFindings (s : Store) (r : Relation) (ms : List Member) : List Anomaly :=
  ((unknownRoles s ms).takeWhile (roleFits r)).map (roleFinding r)

theorem roleFindings_of_fit (fit : RolesFit s r ms) :
    roleFindings s r ms = (unknownRoles s ms).map (roleFinding r) := by
  rw [roleFindings, List.takeWhile_eq_self_iff.2 fit]

theorem roleText_of_fits {m : Member} (fits : roleFits r m = true) :
    roleText r m = .ok (roleFinding r m).message := by
  simp only [roleFits, Bool.and_eq_true] at fits
  simp only [roleText, Json.shown, Numeral.writeInt, fits, if_true]
  rfl

theorem roleText_of_long {m : Member} (long : roleFits r m = false) :
    roleText r m = .error .tooLongToWrite := by
  cases failed : roleText r m with
  | ok t =>
    have fits := (writtenIf_roleText r m).exists_iff.1 ⟨t, failed⟩
    simp [roleFits, fits] at long
  | error e => rw [((writtenIf_roleText r m).of_error failed).2]

theorem gather_of_unresolved {m : Member} (h : resolves s m = false) (b : Boundary) :
    gather s r (m :: ms) b = pure none := by
  rw [resolves, Bool.or_eq_false_iff, Bool.not_eq_false', Member.isBoundary] at h
  rw [gather, if_pos h.1]
  cases hw : s.way? m.ref with
  | none => rfl
  | some w =>
    have missing := h.2
    rw [hw, Option.any_some] at missing
    exact if_pos (by simp [missing])

theorem gather_of_found {m : Member} (boundary : m.isBoundary = true) (h : resolves s m = true)
    (b : Boundary) :
    gather s r (m :: ms) b =
      gather s r ms ⟨b.outer ++ waysInRole s [m] "outer", b.inner ++ waysInRole s [m] "inner"⟩ := by
  rw [resolves, boundary, Bool.not_true, Bool.false_or, Option.any_eq_true] at h
  obtain ⟨w, hw, nodes⟩ := h
  rw [Member.isBoundary] at boundary
  rw [gather, if_pos boundary, hw]
  dsimp only
  rw [if_neg (by simp [nodes])]
  cases outer : m.role.isText "outer" with
  | true => simp [waysInRole, outer, inner_of_outer outer, hw]
  | false =>
    rw [outer, Bool.false_or] at boundary
    simp [waysInRole, outer, boundary, hw]

theorem gather_of_other {m : Member} (other : m.isBoundary = false) (b : Boundary) :
    gather s r (m :: ms) b =
      Logged.report .multipolygonRoleUnexpected r.id (roleText r m) >>= fun _ => gather s r ms b := by
  rw [Member.isBoundary] at other
  rw [gather, other]
  rfl

theorem gather_of_boundary (h : HasBoundary s ms) (fit : RolesFit s r ms) (b : Boundary) :
    (gather s r ms b).result =
      .ok (some ⟨b.outer ++ (boundaryOf s ms).outer, b.inner ++ (boundaryOf s ms).inner⟩) := by
  rw [hasBoundary_iff] at h
  induction ms generalizing b with
  | nil => simp [gather, boundaryOf, waysInRole]
  | cons m ms ih =>
    rw [List.forall_mem_cons] at h
    have parts (role : String) : waysInRole s (m :: ms) role = waysInRole s [m] role ++ waysInRole s ms role := by
      rw [← waysInRole_append, List.singleton_append]
    rw [boundaryOf, parts, parts]
    cases boundary : m.isBoundary with
    | true =>
      rw [RolesFit, unknownRoles_of_found boundary h.1] at fit
      rw [gather_of_found boundary h.1, ih h.2 fit _, boundaryOf]
      simp only [List.append_assoc]
    | false =>
      rw [RolesFit, unknownRoles_of_other boundary, List.forall_mem_cons] at fit
      rw [gather_of_other boundary, roleText_of_fits fit.1, Logged.bind_result]
      rw [Member.isBoundary, Bool.or_eq_false_iff] at boundary
      change (gather s r ms b).result = _
      rw [ih h.2 fit.2 _]
      simp [waysInRole, boundary, boundaryOf]

theorem gather_of_missing (h : ¬ HasBoundary s ms) (fit : RolesFit s r ms) (b : Boundary) :
    (gather s r ms b).result = .ok none := by
  rw [hasBoundary_iff] at h
  induction ms generalizing b with
  | nil => exact absurd (List.forall_mem_nil _) h
  | cons m ms ih =>
    rw [List.forall_mem_cons] at h
    obtain missing | ⟨boundary, found⟩ | other := member_cases s m
    · rw [gather_of_unresolved missing]
      rfl
    · rw [RolesFit, unknownRoles_of_found boundary found] at fit
      rw [gather_of_found boundary found]
      exact ih (fun rest => h ⟨found, rest⟩) fit _
    · rw [RolesFit, unknownRoles_of_other other, List.forall_mem_cons] at fit
      rw [gather_of_other other, roleText_of_fits fit.1, Logged.bind_result]
      exact ih (fun rest => h ⟨by simp [resolves, other], rest⟩) fit.2 b

theorem gather_of_long (long : ¬ RolesFit s r ms) (b : Boundary) :
    (gather s r ms b).result = .error (.number .tooLongToWrite) := by
  induction ms generalizing b with
  | nil => exact absurd (List.forall_mem_nil _) long
  | cons m ms ih =>
    obtain missing | ⟨boundary, found⟩ | other := member_cases s m
    · rw [RolesFit, unknownRoles_of_missing missing] at long
      exact absurd (List.forall_mem_nil _) long
    · rw [RolesFit, unknownRoles_of_found boundary found] at long
      rw [gather_of_found boundary found]
      exact ih long _
    · rw [RolesFit, unknownRoles_of_other other, List.forall_mem_cons] at long
      rw [gather_of_other other]
      cases fits : roleFits r m with
      | false =>
        rw [roleText_of_long fits]
        rfl
      | true =>
        rw [roleText_of_fits fits, Logged.bind_result]
        exact ih (fun rest => long ⟨fits, rest⟩) b

theorem gather_roleFindings (ms : List Member) (b : Boundary) :
    (gather s r ms b).findings = roleFindings s r ms := by
  induction ms generalizing b with
  | nil => rfl
  | cons m ms ih =>
    rw [roleFindings]
    obtain missing | ⟨boundary, found⟩ | other := member_cases s m
    · rw [unknownRoles_of_missing missing, gather_of_unresolved missing]
      rfl
    · rw [unknownRoles_of_found boundary found, gather_of_found boundary found]
      exact ih _
    · rw [unknownRoles_of_other other, gather_of_other other]
      cases fits : roleFits r m with
      | false =>
        rw [roleText_of_long fits, List.takeWhile_cons_of_neg (by simp [fits])]
        rfl
      | true =>
        rw [roleText_of_fits fits, List.takeWhile_cons_of_pos fits, Logged.bind_findings_of_ok rfl, ih]
        rfl

def abandoned (s : Store) (r : Relation) : Store :=
  { markProcessed r.key s with anomalies := s.anomalies ++ roleFindings s r r.wayMembers }

theorem gather_marked (key : Key) (b : Boundary) :
    gather (markProcessed key s) r ms b = gather s r ms b :=
  gather_congr (SameLookups.mk (s := markProcessed key s) (t := s) (fun _ => rfl) fun _ => rfl) r ms b

theorem record_gathered (s : Store) (r : Relation) (b : Boundary) :
    (markProcessed r.key s).record (gather (markProcessed r.key s) r r.wayMembers b).log = abandoned s r := by
  rw [gather_marked, abandoned, ← gather_roleFindings r.wayMembers b]
  rfl

theorem gather_marked_of_boundary (boundary : HasBoundary s r.wayMembers) (fit : RolesFit s r r.wayMembers) :
    (gather (markProcessed r.key s) r r.wayMembers ⟨[], []⟩).result =
      .ok (some (boundaryOf s r.wayMembers)) := by
  rw [gather_marked, gather_of_boundary boundary fit]
  rfl

end Gathering

section Elements

theorem way?_iff_of_outline (ways : outline t.ways = outline s.ways) (areaWays : t.areaWays = s.areaWays)
    (id : Int) (P : Int → List Int → Prop) :
    (∃ w, t.way? id = some w ∧ P w.id w.nodeRefs) ↔ ∃ w, s.way? id = some w ∧ P w.id w.nodeRefs := by
  have same : (t.way? id).map (fun w => (w.id, w.nodeRefs)) =
      (s.way? id).map fun w => (w.id, w.nodeRefs) := by
    rw [way?, way?, areaWays]
    cases s.areaWays.get? id with
    | some w => rfl
    | none =>
      change (t.ways.get? id).map _ = (s.ways.get? id).map _
      rw [← get?_outline, ← get?_outline, ways]
  have apart (u : Store) : (∃ w, u.way? id = some w ∧ P w.id w.nodeRefs) ↔
      ∃ o, (u.way? id).map (fun w => (w.id, w.nodeRefs)) = some o ∧ P o.1 o.2 := by
    cases u.way? id <;> simp
  rw [apart, apart, same]

theorem SameElements.way?_iff (h : SameElements s t) (id : Int) (P : Int → List Int → Prop) :
    (∃ w, t.way? id = some w ∧ P w.id w.nodeRefs) ↔ ∃ w, s.way? id = some w ∧ P w.id w.nodeRefs :=
  way?_iff_of_outline h.ways h.areaWays id P

theorem SameElements.resolves (h : SameElements s t) (m : Member) : resolves t m = resolves s m := by
  have found := h.way?_iff m.ref fun _ refs => refs.all s.nodes.has = true
  rw [Store.resolves, Store.resolves, Bool.eq_iff_iff, Bool.or_eq_true, Bool.or_eq_true, Option.any_eq_true,
    Option.any_eq_true]
  simp only [hasNodes, h.nodes, found]

theorem SameElements.hasBoundary (h : SameElements s t) (ms : List Member) :
    HasBoundary t ms ↔ HasBoundary s ms := by
  simp only [hasBoundary_iff, h.resolves]

theorem SameElements.unknownRoles (h : SameElements s t) (ms : List Member) :
    unknownRoles t ms = unknownRoles s ms := by
  rw [Store.unknownRoles, Store.unknownRoles, funext h.resolves]

theorem SameElements.waysInRole (h : SameElements s t) (ms : List Member) (role : String) :
    (waysInRole t ms role).map Way.nodeRefs = (waysInRole s ms role).map Way.nodeRefs := by
  rw [Store.waysInRole, Store.waysInRole, List.map_filterMap, List.map_filterMap]
  apply List.filterMap_congr
  intro m _
  ext refs
  simpa [and_comm] using h.way?_iff m.ref fun _ r => r = refs

theorem SameElements.boundBy (h : SameElements s t) (r : Relation) (node way : Int) :
    BoundBy t r node way ↔ BoundBy s r node way := by
  simp only [BoundBy, h.way?_iff _ fun id refs => id = way ∧ node ∈ refs]

end Elements

theorem place_grows (a : Area) : ∃ as, (place c a s).state = { s with areas := s.areas ++ as } := by
  cases place_cases (c := c) (s := s) a with
  | inl hs => exact ⟨[], by rw [hs, List.append_nil]⟩
  | inr hs =>
    obtain ⟨p, -, -, hs⟩ := hs
    exact ⟨[p], hs⟩

theorem foldl_bound_eq (ws : List Way) (s : Store) :
    ws.foldl (fun s w => bound w s) s =
      { s with boundsAt := addBounds s.boundsAt (ws.flatMap boundsOf) } := by
  rw [foldl_bound]
  simp [add, insertAll]

theorem mem_boundsOf {node way : Int} {ws : List Way} :
    (node, way) ∈ ws.flatMap boundsOf ↔ ∃ w ∈ ws, w.id = way ∧ node ∈ w.nodeRefs := by
  simp [boundsOf, and_comm]

theorem mem_boundaryBounds {node way : Int} :
    (node, way) ∈ ((boundaryOf s r.wayMembers).outer ++ (boundaryOf s r.wayMembers).inner).flatMap boundsOf ↔
      BoundBy s r node way := by
  simp only [mem_boundsOf, mem_boundaryOf]
  constructor
  · rintro ⟨w, ⟨m, hm, boundary, hw⟩, along⟩
    exact ⟨m, hm, boundary, w, hw, along⟩
  · rintro ⟨m, hm, boundary, w, hw, along⟩
    exact ⟨w, ⟨m, hm, boundary, hw⟩, along⟩

def Tried (s : Store) (r : Relation) (bounds : List (Int × Int)) (t : Store) : Prop :=
  ∃ as ws fs, t = { s with
    processed := insertNew s.processed r.key
    areas := s.areas ++ as
    boundsAt := addBounds s.boundsAt bounds
    ways := ws
    anomalies := fs }

theorem Tried.empty (r : Relation) (fs : List Anomaly) :
    Tried s r [] { markProcessed r.key s with anomalies := fs } :=
  ⟨[], s.ways, fs, by rw [List.append_nil]; rfl⟩

theorem tried_of_place (bounds : List (Int × Int)) (fs : List Anomaly) (a : Area) :
    Tried s r bounds ((place c a { markProcessed r.key s with
      anomalies := fs, boundsAt := addBounds s.boundsAt bounds }).andThen
        fun s => Outcome.done (copyToMembers r s)).state := by
  obtain ⟨as, hs⟩ := place_grows (c := c) (s := { markProcessed r.key s with
    anomalies := fs, boundsAt := addBounds s.boundsAt bounds }) a
  apply Outcome.andThen_keeps
  · exact ⟨as, s.ways, fs, hs⟩
  · rintro t ⟨as, ws, fs, rfl⟩
    obtain ⟨ws', hws⟩ := copyToMembers_frame (s := { s with
      processed := insertNew s.processed r.key
      areas := s.areas ++ as
      boundsAt := addBounds s.boundsAt bounds
      ways := ws
      anomalies := fs }) r
    exact ⟨as, ws', fs, hws⟩

variable [Geometry]

/-- The area that the ways of the boundary make. -/
def areaOf (s : Store) (r : Relation) : Except AreaError Area :=
  Area.build ⟨r.key, r.tags⟩ ((waysInRole s r.wayMembers "outer").map Way.nodeRefs)
    ((waysInRole s r.wayMembers "inner").map Way.nodeRefs) s.nodes

theorem SameElements.areaOf (h : SameElements s t) (r : Relation) : areaOf t r = areaOf s r := by
  rw [Store.areaOf, Store.areaOf, h.waysInRole, h.waysInRole, h.nodes]

theorem mem_ringNodes {a : Area} {node : Int} (h : areaOf s r = .ok a) :
    node ∈ a.ringNodes ↔ ∃ way, BoundBy s r node way := by
  rw [Area.mem_ringNodes h, ← List.map_append, List.mem_flatten]
  constructor
  · rintro ⟨_, hrefs, hnode⟩
    obtain ⟨w, hw, rfl⟩ := List.mem_map.1 hrefs
    obtain ⟨m, hm, boundary, hw⟩ := mem_boundaryOf.1 hw
    exact ⟨w.id, m, hm, boundary, w, hw, rfl, hnode⟩
  · rintro ⟨_, m, hm, boundary, w, hw, -, hnode⟩
    exact ⟨w.nodeRefs, List.mem_map_of_mem (mem_boundaryOf.2 ⟨m, hm, boundary, hw⟩), hnode⟩

variable [Limits]

/-- The boundary is there, no unknown role stops the gathering, and an area is made. -/
def Constructs (s : Store) (r : Relation) : Prop :=
  HasBoundary s r.wayMembers ∧ RolesFit s r r.wayMembers ∧ ∃ a, areaOf s r = .ok a

theorem SameElements.constructs (h : SameElements s t) (r : Relation) : Constructs t r ↔ Constructs s r := by
  rw [Constructs, Constructs, h.hasBoundary, RolesFit, RolesFit, h.unknownRoles, h.areaOf]

def enclosed (s : Store) (r : Relation) : Store :=
  { abandoned s r with
    boundsAt := addBounds s.boundsAt
      (((boundaryOf s r.wayMembers).outer ++ (boundaryOf s r.wayMembers).inner).flatMap boundsOf) }

section Trying

theorem buildArea_of_area {what : String} {parent : Parent} {outer inner : List Way} {a : Area}
    (built : Area.build parent (outer.map Way.nodeRefs) (inner.map Way.nodeRefs) s.nodes = .ok a)
    (f : Area → Store → Outcome Store) : buildArea what parent outer inner s f = f a s := by
  rw [buildArea, built]

def Stops (k : Key) (e : AreaError) (f : Failure) : Prop :=
  e.isRejection = true ∧ ¬ (Numeral.fits k.id = true ∧ e.Fits) ∧ f = .number .tooLongToWrite ∨
    e.isRejection = false ∧ f = .area e

theorem buildArea_of_error {what : String} {parent : Parent} {outer inner : List Way} {e : AreaError}
    (unbuilt : Area.build parent (outer.map Way.nodeRefs) (inner.map Way.nodeRefs) s.nodes = .error e)
    (f : Area → Store → Outcome Store) :
    (buildArea what parent outer inner s f).state = s ∧
      ∀ e', (buildArea what parent outer inner s f).failure = some e' ↔ Stops parent.key e e' := by
  rw [buildArea, unbuilt]
  dsimp only
  cases judged : e.isRejection with
  | false =>
    refine ⟨rfl, fun e' => ⟨fun h => .inr ⟨judged, (Option.some.inj h).symm⟩, ?_⟩⟩
    rintro (⟨rejected, -, -⟩ | ⟨-, rfl⟩)
    · cases judged.symm.trans rejected
    · rfl
  | true =>
    have written := writtenIf_skippingText what parent.key e
    rw [if_pos rfl]
    cases line : skippingText what parent.key e with
    | ok line' =>
      refine ⟨rfl, fun e' => ⟨fun h => absurd h.symm (Option.some_ne_none e'), ?_⟩⟩
      rintro (⟨-, long, -⟩ | ⟨unjudged, -⟩)
      · exact absurd (written.exists_iff.1 ⟨_, line⟩) long
      · cases judged.symm.trans unjudged
    | error short =>
      obtain ⟨long, rfl⟩ := written.of_error line
      refine ⟨rfl, fun e' => ⟨fun h => .inl ⟨judged, long, (Option.some.inj h).symm⟩, ?_⟩⟩
      rintro (⟨-, -, rfl⟩ | ⟨unjudged, -⟩)
      · rfl
      · cases judged.symm.trans unjudged

theorem buildArea_cases (what : String) (parent : Parent) (outer inner : List Way) (s : Store) :
    (∃ a, Area.build parent (outer.map Way.nodeRefs) (inner.map Way.nodeRefs) s.nodes = .ok a ∧
      ∀ f : Area → Store → Outcome Store, buildArea what parent outer inner s f = f a s) ∨
    (∀ a, Area.build parent (outer.map Way.nodeRefs) (inner.map Way.nodeRefs) s.nodes ≠ .ok a) ∧
      ∀ f : Area → Store → Outcome Store, (buildArea what parent outer inner s f).state = s := by
  cases h : Area.build parent (outer.map Way.nodeRefs) (inner.map Way.nodeRefs) s.nodes with
  | ok a => exact .inl ⟨a, rfl, buildArea_of_area h⟩
  | error e => exact .inr ⟨nofun, fun f => (buildArea_of_error h f).1⟩

theorem resolveMultipolygon_of_long (long : ¬ RolesFit s r r.wayMembers) :
    (resolveMultipolygon c r s).state = abandoned s r ∧
      (resolveMultipolygon c r s).failure = some (.number .tooLongToWrite) := by
  have gathered : (gather (markProcessed r.key s) r r.wayMembers ⟨[], []⟩).result =
      .error (.number .tooLongToWrite) := by
    rw [gather_marked, gather_of_long long]
  rw [resolveMultipolygon, absorb, gathered, ← record_gathered s r ⟨[], []⟩]
  exact ⟨rfl, rfl⟩

theorem resolveMultipolygon_of_missing (missing : ¬ HasBoundary s r.wayMembers)
    (fit : RolesFit s r r.wayMembers) :
    (resolveMultipolygon c r s).state = abandoned s r ∧ (resolveMultipolygon c r s).failure = none := by
  have gathered : (gather (markProcessed r.key s) r r.wayMembers ⟨[], []⟩).result = .ok none := by
    rw [gather_marked, gather_of_missing missing fit]
  rw [resolveMultipolygon, (absorb_of_ok gathered _).1, (absorb_of_ok gathered _).2, record_gathered]
  exact ⟨rfl, rfl⟩

theorem resolveMultipolygon_of_area {a : Area} (boundary : HasBoundary s r.wayMembers)
    (fit : RolesFit s r r.wayMembers) (built : areaOf s r = .ok a) :
    let o := (place c a (enclosed s r)).andThen fun s => Outcome.done (copyToMembers r s)
    (resolveMultipolygon c r s).state = o.state ∧ (resolveMultipolygon c r s).failure = o.failure := by
  have gathered := gather_marked_of_boundary boundary fit
  have built : Area.build ⟨r.key, r.tags⟩ ((boundaryOf s r.wayMembers).outer.map Way.nodeRefs)
      ((boundaryOf s r.wayMembers).inner.map Way.nodeRefs) (abandoned s r).nodes = .ok a := built
  rw [resolveMultipolygon, (absorb_of_ok gathered _).1, (absorb_of_ok gathered _).2, record_gathered]
  dsimp only
  rw [buildArea_of_area built, foldl_bound_eq]
  exact ⟨rfl, rfl⟩

theorem resolveMultipolygon_of_error {e : AreaError} (boundary : HasBoundary s r.wayMembers)
    (fit : RolesFit s r r.wayMembers) (unbuilt : areaOf s r = .error e) :
    (resolveMultipolygon c r s).state = abandoned s r ∧
      ∀ e', (resolveMultipolygon c r s).failure = some e' ↔ Stops r.key e e' := by
  have gathered := gather_marked_of_boundary boundary fit
  rw [resolveMultipolygon, (absorb_of_ok gathered _).1, (absorb_of_ok gathered _).2, record_gathered]
  exact buildArea_of_error (s := abandoned s r) unbuilt _

theorem resolveMultipolygon_cases (c : Settings) (s : Store) (r : Relation) :
    (Constructs s r ∧ ∃ a, areaOf s r = .ok a ∧
      (resolveMultipolygon c r s).state = ((place c a (enclosed s r)).andThen
        fun s => Outcome.done (copyToMembers r s)).state) ∨
    ¬ Constructs s r ∧ (resolveMultipolygon c r s).state = abandoned s r := by
  by_cases fit : RolesFit s r r.wayMembers
  · by_cases boundary : HasBoundary s r.wayMembers
    · cases built : areaOf s r with
      | ok a =>
        exact .inl ⟨⟨boundary, fit, a, built⟩, a, rfl, (resolveMultipolygon_of_area boundary fit built).1⟩
      | error e =>
        refine .inr ⟨fun ⟨_, _, a, ha⟩ => ?_, (resolveMultipolygon_of_error boundary fit built).1⟩
        cases built.symm.trans ha
    · exact .inr ⟨fun constructs => boundary constructs.1, (resolveMultipolygon_of_missing boundary fit).1⟩
  · exact .inr ⟨fun constructs => fit constructs.2.1, (resolveMultipolygon_of_long fit).1⟩

theorem resolveMultipolygon_tried (c : Settings) (s : Store) (r : Relation) :
    ∃ bounds, Tried s r bounds (resolveMultipolygon c r s).state ∧
      ∀ node way, (node, way) ∈ bounds ↔ Constructs s r ∧ BoundBy s r node way := by
  obtain ⟨constructs, a, -, hs⟩ | ⟨unbuilt, hs⟩ := resolveMultipolygon_cases c s r
  · rw [hs]
    refine ⟨_, tried_of_place _ _ a, fun node way => ?_⟩
    rw [mem_boundaryBounds, and_iff_right constructs]
  · rw [hs]
    exact ⟨[], .empty r _, fun node way => by simp [unbuilt]⟩

theorem tryMultipolygon_cases (c : Settings) (k : KeptRelation) (s : Store) :
    ((k.kind = .multipolygon ∧ k.relation.key ∉ s.processed) ∧
      tryMultipolygon c k s = resolveMultipolygon c k.relation s) ∨
    ¬ (k.kind = .multipolygon ∧ k.relation.key ∉ s.processed) ∧ tryMultipolygon c k s = Outcome.done s := by
  rw [tryMultipolygon]
  split
  · rename_i skipped
    refine .inr ⟨fun h => ?_, rfl⟩
    simp [h.1, isProcessed, h.2] at skipped
  · rename_i untried
    refine .inl ⟨?_, rfl⟩
    simpa [isProcessed] using untried

end Trying

end Store

end StreetMap
