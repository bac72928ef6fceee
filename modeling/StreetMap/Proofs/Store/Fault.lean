import StreetMap.Proofs.Store.Frame

/-!
What computations fail with.  Whatever is wrong with the data, a call that has passed the check of its
phase does not fail for the phase, unless the classifier does.
-/

namespace StreetMap

def Failure.IsFault (f : Failure) : Prop := ∀ e, f ≠ .phase e

open Failure (IsFault)

theorem Json.asText_faults (operation : String) (v : Json) : FailsBy IsFault (v.asText operation) := by
  cases v with
  | text s => exact .ok s
  | _ => exact .error nofun

theorem Json.contains_faults (s : String) (v : Json) : FailsBy IsFault (v.contains s) := by
  cases v with
  | text t => exact .ok _
  | list vs => exact .ok _
  | object ms => exact .ok _
  | _ => exact .error nofun

theorem Json.number_faults {α : Type} (x : Except NumeralError α) : FailsBy IsFault (Json.number x) := by
  cases x with
  | ok a => exact .ok a
  | error e => exact .error nofun

theorem Logged.report_faults (k : AnomalyKind) (id : Int) (text : Except NumeralError String) :
    FailsBy IsFault (Logged.report k id text).result := by
  cases text with
  | ok t => exact .ok _
  | error e => exact .error nofun

theorem Logged.sayText_faults (v : Severity) (text : Except NumeralError String) :
    FailsBy IsFault (Logged.sayText v text).result := by
  cases text with
  | ok t => exact .ok _
  | error e => exact .error nofun

theorem TagKey.ofJson_faults (v : Json) : FailsBy IsFault (TagKey.ofJson v) := by
  cases v with
  | list vs => exact .error nofun
  | object ms => exact .error nofun
  | _ => exact .ok _

theorem Tags.isParkAndRide_faults (t : Tags) : FailsBy IsFault t.isParkAndRide := by
  rw [Tags.isParkAndRide]
  split
  · exact .ok _
  · apply FailsBy.orElse
    · rw [Tags.holdsParkAndRide]
      split
      · exact .ok _
      · exact Json.contains_faults _ _
    · rw [Tags.offersParkAndRide]
      split
      · exact .ok _
      · exact (Json.asText_faults _ _).map _

theorem Settings.isMultiple_faults (n : Nat) (interval : Json) :
    FailsBy IsFault (Settings.isMultiple n interval) := by
  cases interval with
  | int k =>
    rw [isMultiple]
    split
    · exact .error nofun
    · exact .ok _
  | bool b => cases b with
    | true => exact .ok _
    | false => exact .error nofun
  | float x =>
    rw [isMultiple]
    split
    · split
      · exact .error nofun
      · exact .ok _
    · exact .ok _
  | _ => exact .error nofun

theorem TurnRestriction.kindOf_faults (r : Relation) : FailsBy IsFault (kindOf r) := by
  rw [kindOf]
  split
  · exact .ok _
  · split
    · exact .ok _
    · exact .error (by rintro _ ⟨⟩)

theorem TurnRestriction.schedule_faults {α : Type} (x : Except ScheduleError α) : FailsBy IsFault (schedule x) := by
  cases x with
  | ok a => exact .ok a
  | error e => exact .error nofun

theorem Store.addToList_faults (separator tag value : Json) (t : Tags) :
    FailsBy IsFault (Store.addToList separator tag value t) := by
  have pieces (existing : String) : FailsBy IsFault (Store.piecesBy separator existing) := by
    unfold Store.piecesBy
    split
    · exact .ok _
    · exact .error nofun
    · exact .ok _
    · exact .error nofun
  have joined (existing : String) : FailsBy IsFault (Store.joinUnique separator value existing) := by
    refine (pieces existing).bind fun ps => ?_
    split
    · exact .ok _
    · split
      · exact .ok _
      · exact .error nofun
      · exact .error nofun
  refine (TagKey.ofJson_faults tag).bind fun key => ?_
  dsimp only
  split
  · exact .ok _
  · exact .ok _
  · refine (Json.asText_faults _ _).bind fun existing => (joined existing).bind fun j => ?_
    split
    · exact .ok _
    · exact .ok _

/-- The classifier answers some question with this failure. -/
def Settings.Raises (c : Settings) (f : Failure) : Prop :=
  ∃ t, c.isElementRoutable t = .error f ∨ c.isWayRoutable t = .error f ∨
    ∃ p, c.permissions t p = .error f

def Settings.MayFail (c : Settings) (f : Failure) : Prop := f.IsFault ∨ c.Raises f

section Data

variable [Limits]

theorem Level.readLogged_faults (spec : String) (source : LevelSource) (raise : Bool) :
    FailsBy IsFault (Level.readLogged spec source raise).result := by
  cases h : read spec source raise with
  | error e =>
    rw [readLogged_of_error h]
    exact .error nofun
  | ok found =>
    rw [readLogged_of_ok h]
    exact .ok _

theorem Level.readMap_faults (list : String) (source : LevelSource) (raise : Bool) :
    FailsBy IsFault (Level.readMap list source raise).result := by
  apply FailsBy.logged_bind
  · refine FailsBy.logged_bind ?_ fun specs => ?_
    · exact Json.number_faults (expandList list)
    · rw [Logged.mapM_result]
      exact .mapM (fun s => Level.readLogged_faults s source raise) specs
  · exact fun levels => .ok _

namespace TurnRestriction

theorem modesOf_faults (r : Relation) (e : Ends) : FailsBy IsFault (modesOf r e).result := by
  apply FailsBy.logged_bind
  · change FailsBy IsFault (exceptions r)
    rw [exceptions]
    split
    · exact .ok _
    · split
      · exact .ok _
      · exact (Json.asText_faults _ _).bind fun _ => .ok _
  · intro tokens
    apply FailsBy.logged_foldlM
    intro modes token
    rw [except]
    split
    · exact .ok _
    · split
      · exact (Logged.report_faults _ _ _).logged_bind fun _ => .ok _
      · exact .ok _

theorem scheduleOf_faults (dayOn dayOff hourOn hourOff : Json) :
    FailsBy IsFault (scheduleOf dayOn dayOff hourOn hourOff) := by
  refine (Json.asText_faults _ _).bind fun on => (Json.asText_faults _ _).bind fun off => ?_
  refine (schedule_faults _).bind fun ws => (Json.asText_faults _ _).bind fun first => ?_
  refine (schedule_faults _).bind fun first => (Json.asText_faults _ _).bind fun last => ?_
  exact (schedule_faults _).bind fun last => .ok _

theorem timeOf_faults (r : Relation) : FailsBy IsFault (timeOf r).result := by
  rw [timeOf]
  split
  · rename_i dayOn dayOff hourOn hourOff _ _ _ _
    have faults := scheduleOf_faults dayOn dayOff hourOn hourOff
    split
    · exact .ok _
    · exact (Logged.sayText_faults _ _).logged_bind fun _ => .ok _
    · exact .error (faults _ ‹_›)
  · exact .ok _

theorem ofRelation_faults (r : Relation) : FailsBy IsFault (ofRelation r).result := by
  rw [ofRelation]
  split
  · exact (Logged.report_faults _ _ _).logged_bind fun _ => .ok _
  · apply FailsBy.logged_bind (modesOf_faults r _)
    intro modes
    refine FailsBy.logged_bind ?_ fun kind => ?_
    · exact kindOf_faults r
    · cases kind with
      | none => exact (Logged.report_faults _ _ _).logged_bind fun _ => .ok _
      | some kind => exact (timeOf_faults r).logged_bind fun _ => .ok _

end TurnRestriction

namespace Store

theorem levelOf_faults (raise : Bool) (k : Key) (t : Tags) : FailsBy IsFault (levelOf raise k t).result := by
  have tag (source : LevelSource) (v : Json) : FailsBy IsFault (levelOfTag raise k source v).result := by
    refine FailsBy.logged_bind ?_ fun spec => ?_
    · exact Json.asText_faults "rfind" v
    · refine (Level.readLogged_faults spec source raise).logged_bind fun level => ?_
      split
      · exact .ok _
      · exact (Logged.report_faults _ _ _).logged_bind fun _ => .ok _
  rw [levelOf]
  split
  · exact tag _ _
  · exact tag _ _
  · exact .ok _

theorem gather_faults (s : Store) (r : Relation) (ms : List Member) (b : Boundary) :
    FailsBy IsFault (gather s r ms b).result := by
  induction ms generalizing b with
  | nil => exact .ok _
  | cons m ms ih =>
    rw [gather]
    split
    · split
      · exact .ok _
      · split
        · exact .ok _
        · split
          · exact ih _
          · exact ih _
    · exact (Logged.report_faults _ _ _).logged_bind fun _ => ih b

theorem levelsOf_faults (r : Relation) : FailsBy IsFault (levelsOf r).result := by
  rw [levelsOf]
  split
  · exact Level.readMap_faults _ _ _
  · exact FailsBy.logged_bind (Json.asText_faults _ _) fun _ => Level.readMap_faults _ _ _

theorem levelInRole_faults (r : Relation) (levels : Table String Level) (m : Member) :
    FailsBy IsFault (levelInRole r levels m).result := by
  have missing : FailsBy IsFault (levelInRole.missing r m).result :=
    (Logged.report_faults _ _ _).logged_bind fun _ => .ok _
  rw [levelInRole]
  split
  · split
    · exact .ok _
    · exact missing
  · split
    · exact missing
    · exact .error nofun

end Store

end Data

namespace Store

section Calls

variable {c : Settings} {s : Store}

theorem of_faults {α : Type} {x : Except Failure α} (h : FailsBy IsFault x) : FailsBy c.MayFail x :=
  h.mono fun _ => .inl

theorem isElementRoutable_mayFail (t : Tags) : FailsBy c.MayFail (c.isElementRoutable t) :=
  fun _ he => .inr ⟨t, .inl he⟩

theorem isWayRoutable_mayFail (t : Tags) : FailsBy c.MayFail (c.isWayRoutable t) :=
  fun _ he => .inr ⟨t, .inr (.inl he)⟩

theorem permissions_mayFail (t : Tags) (p : Permission) : FailsBy c.MayFail (c.permissions t p) :=
  fun _ he => .inr ⟨t, .inr (.inr ⟨p, he⟩)⟩

theorem wayForAnyUse_mayFail (t : Tags) :
    FailsBy c.MayFail (orElse (c.isWayRoutable t) fun _ => t.isParkAndRide) :=
  (isWayRoutable_mayFail t).orElse (of_faults t.isParkAndRide_faults)

theorem progress_mayFail (interval : Json) (label : String) (n : Nat) :
    (progress interval label n s).FailsBy c.MayFail := by
  refine .withValue (of_faults (Settings.isMultiple_faults n interval)) fun hit => ?_
  split
  · exact .of_none rfl
  · exact .of_none rfl

theorem admission_mayFail (t : Tags) : FailsBy c.MayFail (admission c t) := by
  have class_mayFail : FailsBy c.MayFail (classify c t) := by
    rw [classify]
    split
    · refine ((isElementRoutable_mayFail t).orElse (of_faults t.isParkAndRide_faults)).bind fun b => ?_
      split
      · exact .ok _
      · exact .ok _
    · split_ifs <;> exact .ok _
  refine class_mayFail.bind fun kind => ?_
  split
  · refine (wayForAnyUse_mayFail t).bind fun b => ?_
    split
    · exact .ok _
    · exact .ok _
  · exact .ok _

theorem addNode_mayFail (opened : s.phase ≠ .relationsProcessed) (n : Node) :
    (addNode c n s).FailsBy c.MayFail := by
  rw [addNode_eq opened]
  split
  · exact .of_none rfl
  · split
    · exact progress_mayFail _ _ _
    · exact .of_none rfl

theorem place_mayFail (a : Area) : (place c a s).FailsBy c.MayFail := by
  refine .withValue (permissions_mayFail _ _) fun p => ?_
  refine .withValue (isElementRoutable_mayFail _) fun routable => ?_
  dsimp only
  split
  · exact .of_none rfl
  · exact .fail (.inl (Tags.isParkAndRide_faults _ _ ‹_›))

theorem applyRoute_mayFail (r : Relation) : (applyRoute c r s).FailsBy c.MayFail := by
  have listed (key : String) (tag : Json) (id : Int) (t : Store) :
      (listOnWay c r key tag id t).FailsBy c.MayFail := by
    rw [listOnWay]
    split
    · exact .withValue (of_faults (addToList_faults _ _ _ _)) fun _ => .of_none rfl
    · exact .of_none rfl
  exact .forEach (fun (m : Member) t => (listed "name" c.routeNameTag m.ref t).andThen
    (listed "ref" c.routeRefTag m.ref)) _ s

variable [Limits]

theorem resolveLevel_mayFail (k : Key) (t : Tags) : (resolveLevel c k t s).FailsBy c.MayFail := by
  rw [resolveLevel]
  split
  · exact .of_none rfl
  · exact absorb_failsBy (of_faults (levelOf_faults _ k t)) fun _ _ => .of_none rfl

theorem addWay_mayFail (opened : s.phase ≠ .relationsProcessed) (w : Way) :
    (addWay c w s).FailsBy c.MayFail := by
  rw [addWay_eq opened]
  split
  · exact .of_none rfl
  · refine (resolveLevel_mayFail w.key w.tags).andThen fun t => ?_
    rw [keepWay]
    split
    · exact .of_none rfl
    · refine .withValue (wayForAnyUse_mayFail w.tags) fun kept => ?_
      split
      · rw [putWay]
        split
        · exact .of_none rfl
        · exact progress_mayFail _ _ _
      · exact .of_none rfl

theorem addRelation_mayFail (opened : s.phase ≠ .relationsProcessed) (r : Relation) :
    (addRelation c r s).FailsBy c.MayFail := by
  rw [addRelation_eq opened]
  split
  · exact .of_none rfl
  · refine .withValue (admission_mayFail r.tags) fun kind => ?_
    cases kind with
    | none => exact .of_none rfl
    | some kind =>
      dsimp only
      rw [takeIn]
      split
      · exact (resolveLevel_mayFail r.key r.tags).andThen fun t => progress_mayFail _ _ _
      · exact progress_mayFail _ _ _

theorem applyLevelMap_mayFail (r : Relation) : (applyLevelMap r s).FailsBy c.MayFail := by
  refine absorb_failsBy (of_faults (levelsOf_faults r)) fun levels t => .forEach (fun m u => ?_) _ t
  rw [applyLevel]
  split
  · exact .of_none rfl
  · refine .withValue (of_faults (Json.number_faults _)) fun role => ?_
    split
    · exact .of_none rfl
    · refine absorb_failsBy (of_faults (levelInRole_faults r levels m)) fun level v => ?_
      cases level with
      | none => exact .of_none rfl
      | some level => exact .of_none rfl

theorem applyRelation_mayFail (k : KeptRelation) : (applyRelation c k s).FailsBy c.MayFail := by
  rw [applyRelation]
  split
  · exact .of_none rfl
  · refine absorb_failsBy (of_faults (TurnRestriction.ofRelation_faults _)) fun found t => ?_
    cases found with
    | none => exact .of_none rfl
    | some found => exact .of_none rfl
  · exact applyLevelMap_mayFail _
  · exact applyRoute_mayFail _
  · rw [applyStopArea]
    split
    · exact .of_none rfl
    · exact absorb_failsBy (of_faults (Logged.report_faults _ _ _)) fun _ t => .of_none rfl
    · exact absorb_failsBy (of_faults (Logged.report_faults _ _ _)) fun _ t => .of_none rfl

theorem finish_mayFail (opened : s.phase = .areasResolved) : (finish c s).FailsBy c.MayFail := by
  rw [finish_of_open opened]
  refine Outcome.FailsBy.andThen (.andThen (.of_none rfl) fun t => ?_) fun t => .of_none rfl
  exact .forEach (fun k t => applyRelation_mayFail k) _ t

variable [Geometry]

theorem buildArea_mayFail {what : String} {parent : Parent} {outer inner : List Way}
    {f : Area → Store → Outcome Store} (hf : ∀ a t, (f a t).FailsBy c.MayFail) :
    (buildArea what parent outer inner s f).FailsBy c.MayFail := by
  rw [buildArea]
  split
  · exact hf _ s
  · split
    · exact .withValue (of_faults (Json.number_faults _)) fun _ => .of_none rfl
    · exact .fail (.inl (by rintro _ ⟨⟩))

theorem tryMultipolygon_mayFail (k : KeptRelation) : (tryMultipolygon c k s).FailsBy c.MayFail := by
  rw [tryMultipolygon]
  split
  · exact .of_none rfl
  · refine absorb_failsBy (of_faults (gather_faults _ _ _ _)) fun b t => ?_
    cases b with
    | none => exact .of_none rfl
    | some b => exact buildArea_mayFail fun a u => (place_mayFail a).andThen fun v => .of_none rfl

theorem tryCandidate_mayFail (w : Way) : (tryCandidate c w s).FailsBy c.MayFail := by
  rw [tryCandidate]
  split
  · exact .of_none rfl
  · exact (buildArea_mayFail fun a t => place_mayFail a).andThen fun t => .of_none rfl

theorem pointsComplete_mayFail (opened : s.phase = .linesMarked ∨ s.phase = .areasResolved) :
    (pointsComplete c s).FailsBy c.MayFail := by
  rw [pointsComplete_of_open opened]
  refine Outcome.FailsBy.andThen (.andThen ?_ fun t => ?_) fun t => .of_none rfl
  · exact .forEach (fun k t => tryMultipolygon_mayFail k) _ s
  · exact .forEach (fun w t => tryCandidate_mayFail w) _ t

end Calls

end Store

end StreetMap
