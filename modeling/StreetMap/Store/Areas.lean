import StreetMap.Store.Ingest

/-!
Areas are built once their nodes are in.  A multipolygon is tried once, when the nodes of a source are
complete; a way that is an area by itself waits for its nodes.
-/

namespace StreetMap.Store

variable [Limits] [Geometry]

def skippingText (what : String) (k : Key) (e : AreaError) : Except NumeralError String := do
  return "Skipping " ++ what ++ " " ++ (← Numeral.writeInt k.id) ++ ": " ++ (← e.message)

def place (c : Settings) (a : Area) (s : Store) : Outcome Store :=
  let t := a.parent.tags
  Outcome.withValue s (c.permissions t .pedestrianAndBicycle) fun p =>
    Outcome.withValue s (c.isElementRoutable t) fun routable =>
      let walkable := routable && p ≠ .none
      let put (parkAndRide : Bool) : Store :=
        if walkable || parkAndRide then { s with areas := s.areas ++ [⟨a, walkable, parkAndRide⟩] } else s
      match t.isParkAndRide with
      | .ok parkAndRide => Outcome.done (put parkAndRide)
      | .error e => Outcome.fail (put false) e

/-- Build an area and go on with it.  Rings that make no area are passed over with a line that says so. -/
def buildArea (what : String) (parent : Parent) (outer inner : List Way) (s : Store)
    (f : Area → Store → Outcome Store) : Outcome Store :=
  match Area.build parent (outer.map Way.nodeRefs) (inner.map Way.nodeRefs) s.nodes with
  | .ok a => f a s
  | .error e =>
    if e.isRejection then
      Outcome.withValue s (Json.number (skippingText what parent.key e)) fun line =>
        Outcome.saying .debug line s
    else Outcome.fail s (.area e)

structure Boundary where
  outer : List Way
  inner : List Way

def roleText (r : Relation) (m : Member) : Except NumeralError String := do
  return "Unexpected role '" ++ (← m.role.shown) ++ "' for way " ++ (← Numeral.writeInt m.ref)
    ++ " in multipolygon " ++ (← Numeral.writeInt r.id)

/-- The outer and inner ways among members, each a kept way with all its nodes; none if one is missing.
A way in any other role is a finding. -/
def gather (s : Store) (r : Relation) : List Member → Boundary → Logged (Option Boundary)
  | [], b => pure (some b)
  | m :: ms, b =>
    if m.role.isText "outer" || m.role.isText "inner" then
      match s.way? m.ref with
      | none => pure none
      | some w =>
        if !s.hasNodes w.nodeRefs then pure none
        else if m.role.isText "outer" then gather s r ms { b with outer := b.outer ++ [w] }
        else gather s r ms { b with inner := b.inner ++ [w] }
    else do
      Logged.report .multipolygonRoleUnexpected r.id (roleText r m)
      gather s r ms b

def copiedTags : List String := ["highway", "name", "ref"]

def copiedPlatformTags : List (String × String) :=
  [("railway", "platform"), ("public_transport", "platform")]

def copyTag (source : Tags) (t : Tags) (key : String) : Tags :=
  match source.get? key with
  | some v => if t.has key then t else t.put key v
  | none => t

def copyPlatformTag (source : Tags) (t : Tags) (tag : String × String) : Tags :=
  if source.is tag.1 tag.2 && !t.has tag.1 then t.put tag.1 (.text tag.2) else t

def copyTags (source t : Tags) : Tags :=
  copiedPlatformTags.foldl (copyPlatformTag source) (copiedTags.foldl (copyTag source) t)

def retag (id : Int) (f : Tags → Tags) (s : Store) : Store :=
  match s.ways.get? id with
  | none => s
  | some w => { s with ways := s.ways.put id { w with tags := f w.tags } }

def copyToMembers (r : Relation) (s : Store) : Store :=
  r.wayMembers.foldl (fun s m => retag m.ref (copyTags r.tags) s) s

def markProcessed (k : Key) (s : Store) : Store := { s with processed := insertNew s.processed k }

def resolveMultipolygon (c : Settings) (r : Relation) (s : Store) : Outcome Store :=
  let s := markProcessed r.key s
  s.absorb (gather s r r.wayMembers ⟨[], []⟩) fun b s =>
    match b with
    | none => Outcome.done s
    | some b =>
      buildArea "multipolygon" ⟨r.key, r.tags⟩ b.outer b.inner s fun a s =>
        let s := (b.outer ++ b.inner).foldl (fun s w => bound w s) s
        (place c a s).andThen fun s => Outcome.done (copyToMembers r s)

def tryMultipolygon (c : Settings) (k : KeptRelation) (s : Store) : Outcome Store :=
  if k.kind ≠ .multipolygon || s.isProcessed k.relation.key then Outcome.done s
  else resolveMultipolygon c k.relation s

def tryCandidate (c : Settings) (w : Way) (s : Store) : Outcome Store :=
  if s.isProcessed w.key || !s.hasNodes w.nodeRefs then Outcome.done s
  else
    (buildArea "area way" ⟨w.key, w.tags⟩ [w] [] s (place c)).andThen fun s =>
      Outcome.done (markProcessed w.key s)

/-- The nodes of a source are in: build the areas that can now be built. -/
def pointsComplete (c : Settings) (s : Store) : Outcome Store :=
  if s.phase = .linesMarked || s.phase = .areasResolved then
    ((Outcome.forEach (tryMultipolygon c) s.relations.values s).andThen fun s =>
      Outcome.forEach (tryCandidate c) s.candidates s).andThen fun s =>
        Outcome.saying .info ("Kept " ++ toString s.nodes.length ++ " nodes; "
            ++ toString s.walkableAreas.length ++ " walkable areas, "
            ++ toString s.parkAndRideAreas.length ++ " park and ride areas")
          { s with phase := .areasResolved }
  else Outcome.fail s (.phase (.outOfOrder "on_points_complete" s.phase))

end StreetMap.Store
