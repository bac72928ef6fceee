import StreetMap.TurnRestriction
import StreetMap.Proofs.Messages
import StreetMap.Proofs.Tags

/-!
What a restriction relation comes to.  One with a member in each of the three roles and a known kind of
turn makes one restriction, whose parts are settled by its last members and its tags; any other is rejected
with one finding.
-/

namespace StreetMap

namespace RestrictedModes

def exclude (m : RestrictedModes) (token : String) : RestrictedModes :=
  if token = "motorcar" then m.withoutDriving
  else if token = "bicycle" then m.withoutBicycle
  else m

theorem foldl_exclude (tokens : List String) (m : RestrictedModes) :
    tokens.foldl exclude m =
      ⟨m.bicycle && !tokens.contains "bicycle", m.car && !tokens.contains "motorcar",
        m.customMotorVehicle && !tokens.contains "motorcar"⟩ := by
  induction tokens generalizing m with
  | nil => simp
  | cons token tokens ih =>
    rw [List.foldl_cons, ih]
    by_cases hm : token = "motorcar"
    · simp [exclude, hm, withoutDriving]
    · by_cases hb : token = "bicycle"
      · simp [exclude, hb, withoutBicycle]
      · simp [exclude, hm, hb, Ne.symm hm, Ne.symm hb]

end RestrictedModes

/-- The numbers of a relation can be written. -/
structure Relation.Fits [Limits] (r : Relation) : Prop where
  id : Numeral.fits r.id = true
  refs : ∀ m ∈ r.members, Numeral.fits m.ref = true

namespace TurnRestriction

def hasRole (r : Relation) (role : String) : Bool := r.members.any fun m => m.role.isText role

def hasEnds (r : Relation) : Bool := hasRole r "from" && hasRole r "to" && hasRole r "via"

def turn? (r : Relation) : Option (TurnKind × Direction) :=
  match r.tags.get? "restriction" with
  | some (.text s) => kinds.get? s
  | _ => none

def isComplete (r : Relation) : Bool := hasEnds r && (turn? r).isSome

def exceptTokens (r : Relation) : List String :=
  match r.tags.get? "except" with
  | some (.text s) => (Text.split ";" s).map Text.trim
  | _ => []

def HasTime [Limits] (r : Relation) (p : Schedule) : Prop :=
  ∃ dayOn dayOff hourOn hourOff, r.tags.get? "day_on" = some (.text dayOn) ∧
    r.tags.get? "day_off" = some (.text dayOff) ∧ r.tags.get? "hour_on" = some (.text hourOn) ∧
    r.tags.get? "hour_off" = some (.text hourOff) ∧ Schedule.read dayOn dayOff hourOn hourOff = .ok p

/-- A restriction is the one that a relation makes. -/
structure Describes [Limits] (r : Relation) (t : TurnRestriction) : Prop where
  via : lastInRole r "via" = some t.via
  turn : turn? r = some (t.kind, t.direction)
  car : t.modes.car = false ↔ "motorcar" ∈ exceptTokens r
  customMotorVehicle : t.modes.customMotorVehicle = false ↔ "motorcar" ∈ exceptTokens r
  bicycle : t.modes.bicycle = false ↔ "bicycle" ∈ exceptTokens r
  time : ∀ p, t.time = some p ↔ HasTime r p

def isRejection (a : Anomaly) : Bool :=
  a.kind = .turnRestrictionBad || a.kind = .turnRestrictionUnknown

/-- What is found when a relation makes no restriction. -/
def rejection (r : Relation) : AnomalyKind × Int :=
  (if hasEnds r then .turnRestrictionUnknown else .turnRestrictionBad, r.id)

variable {r : Relation} {e : Ends}

section Ends

theorem lastInRole_isSome (r : Relation) (role : String) : (lastInRole r role).isSome = hasRole r role := by
  rw [Bool.eq_iff_iff, lastInRole, Option.isSome_map, List.getLast?_isSome, hasRole, List.any_eq_true,
    ne_eq, List.filter_eq_nil_iff]
  simp

theorem endsOf_eq_some : endsOf r = some e ↔
    lastInRole r "from" = some e.fromWay ∧ lastInRole r "to" = some e.toWay ∧
      lastInRole r "via" = some e.via := by
  obtain ⟨f, t, v⟩ := e
  rw [endsOf]
  cases lastInRole r "from" <;> cases lastInRole r "to" <;> cases lastInRole r "via" <;> simp

theorem endsOf_isSome (r : Relation) : (endsOf r).isSome = hasEnds r := by
  rw [hasEnds, ← lastInRole_isSome, ← lastInRole_isSome, ← lastInRole_isSome, endsOf]
  cases lastInRole r "from" <;> cases lastInRole r "to" <;> cases lastInRole r "via" <;> rfl

end Ends

section Modes

theorem exceptions_ok {tokens : List String} (h : exceptions r = .ok tokens) {token : String}
    (ht : token ≠ "") : token ∈ tokens ↔ token ∈ exceptTokens r := by
  rw [exceptions] at h
  rw [exceptTokens]
  cases hv : r.tags.get? "except" with
  | none =>
    rw [hv] at h
    cases h
    rfl
  | some v =>
    rw [hv] at h
    dsimp only at h
    cases v with
    | text s =>
      by_cases hs : s = ""
      · subst hs
        cases h
        have empty : (Text.split ";" "").map Text.trim = [""] := rfl
        simpa [empty] using ht
      · rw [if_neg (by simpa [Json.isNothing] using hs)] at h
        cases h
        rfl
    | _ =>
      split at h
      · cases h
        rfl
      · cases h

variable [Limits]

theorem except_ok {m m' : RestrictedModes} {token : String} (h : (except r e m token).result = .ok m') :
    m' = m.exclude token := by
  rw [except] at h
  rw [RestrictedModes.exclude]
  split at h
  · rename_i driving
    cases h
    rw [if_pos driving]
  · rename_i other
    rw [if_neg other]
    split at h
    · rename_i bicycle
      rw [if_pos bicycle]
      cases written : exceptionText e with
      | error f =>
        rw [written] at h
        cases h
      | ok t =>
        rw [written] at h
        cases h
        rfl
    · rename_i other
      cases h
      rw [if_neg other]

theorem except_findings (m : RestrictedModes) (token : String) :
    ∀ a ∈ (except r e m token).findings, a.kind = .turnRestrictionException := by
  rw [except]
  split
  · exact List.forall_mem_nil _
  · split
    · cases written : exceptionText e with
      | error f => exact List.forall_mem_nil _
      | ok t => exact List.forall_mem_singleton.2 rfl
    · exact List.forall_mem_nil _

theorem exceptAll_ok {tokens : List String} {m m' : RestrictedModes}
    (h : (tokens.foldlM (except r e) m).result = .ok m') : m' = tokens.foldl RestrictedModes.exclude m := by
  induction tokens generalizing m with
  | nil =>
    cases h
    rfl
  | cons token tokens ih =>
    rw [List.foldlM_cons, Logged.bind_result] at h
    obtain ⟨m₁, first, h⟩ := bind_eq_ok.1 h
    rw [ih h, except_ok first]
    rfl

theorem exceptAll_findings (tokens : List String) (m : RestrictedModes) :
    ∀ a ∈ (tokens.foldlM (except r e) m).findings, a.kind = .turnRestrictionException := by
  induction tokens generalizing m with
  | nil => exact List.forall_mem_nil _
  | cons token tokens ih =>
    rw [List.foldlM_cons, Logged.bind_findings]
    refine List.forall_mem_append.2 ⟨except_findings m token, ?_⟩
    split
    · exact ih _
    · exact List.forall_mem_nil _

theorem modesOf_ok {modes : RestrictedModes} (h : (modesOf r e).result = .ok modes) :
    (modes.car = false ↔ "motorcar" ∈ exceptTokens r) ∧
      (modes.customMotorVehicle = false ↔ "motorcar" ∈ exceptTokens r) ∧
      (modes.bicycle = false ↔ "bicycle" ∈ exceptTokens r) := by
  rw [modesOf, Logged.bind_result, Logged.lift_result] at h
  obtain ⟨tokens, htokens, h⟩ := bind_eq_ok.1 h
  have left := exceptAll_ok h
  rw [RestrictedModes.foldl_exclude] at left
  rw [left, ← exceptions_ok htokens (by decide), ← exceptions_ok htokens (by decide)]
  simp [RestrictedModes.all]

theorem modesOf_findings : ∀ a ∈ (modesOf r e).findings, a.kind = .turnRestrictionException := by
  rw [modesOf, Logged.bind_findings, Logged.lift_findings, List.nil_append]
  split
  · exact exceptAll_findings _ _
  · exact List.forall_mem_nil _

end Modes

section Kind

theorem kindOf_ok {k : Option (TurnKind × Direction)} (h : kindOf r = .ok k) : k = turn? r := by
  rw [kindOf] at h
  rw [turn?]
  cases hv : r.tags.get? "restriction" with
  | none =>
    rw [hv] at h
    cases h
    rfl
  | some v =>
    rw [hv] at h
    cases v <;> cases h <;> rfl

end Kind

section Time

theorem asText_ok {operation : String} {v : Json} {s : String} :
    v.asText operation = .ok s ↔ v = .text s := by
  cases v <;> simp [Json.asText]

theorem schedule_ok {α : Type} {x : Except ScheduleError α} {a : α} :
    schedule x = .ok a ↔ x = .ok a := by
  cases x <;> simp [schedule]

variable [Limits]

theorem scheduleOf_ok {dayOn dayOff hourOn hourOff : Json} {p : Schedule} :
    scheduleOf dayOn dayOff hourOn hourOff = .ok p ↔
      ∃ d d' h h', dayOn = .text d ∧ dayOff = .text d' ∧ hourOn = .text h ∧ hourOff = .text h' ∧
        Schedule.read d d' h h' = .ok p := by
  constructor
  · intro hp
    obtain ⟨h, hh, hp⟩ := bind_eq_ok.1 hp
    obtain ⟨h', hh', hp⟩ := bind_eq_ok.1 hp
    obtain ⟨ws, hws, hp⟩ := bind_eq_ok.1 hp
    obtain ⟨d, hd, hp⟩ := bind_eq_ok.1 hp
    obtain ⟨first, hfirst, hp⟩ := bind_eq_ok.1 hp
    obtain ⟨d', hd', hp⟩ := bind_eq_ok.1 hp
    obtain ⟨last, hlast, hp⟩ := bind_eq_ok.1 hp
    refine ⟨d, d', h, h', asText_ok.1 hd, asText_ok.1 hd', asText_ok.1 hh, asText_ok.1 hh', ?_⟩
    rw [Schedule.read, schedule_ok.1 hws, schedule_ok.1 hfirst, schedule_ok.1 hlast]
    cases hp
    rfl
  · rintro ⟨d, d', h, h', rfl, rfl, rfl, rfl, hp⟩
    obtain ⟨ws, hws, hp⟩ := bind_eq_ok.1 hp
    obtain ⟨first, hfirst, hp⟩ := bind_eq_ok.1 hp
    obtain ⟨last, hlast, hp⟩ := bind_eq_ok.1 hp
    rw [scheduleOf, Json.asText, Json.asText, Json.asText, Json.asText]
    cases hp
    simp [bind, Except.bind, pure, Except.pure, hws, hfirst, hlast, schedule]

theorem timeOf_ok {time : Option Schedule} (h : (timeOf r).result = .ok time) (p : Schedule) :
    time = some p ↔ HasTime r p := by
  rw [timeOf] at h
  rw [HasTime]
  split at h
  · rename_i dayOn dayOff hourOn hourOff hdayOn hdayOff hhourOn hhourOff
    simp only [hdayOn, hdayOff, hhourOn, hhourOff, Option.some.injEq]
    rw [← scheduleOf_ok]
    split at h
    · rename_i q hq
      cases h
      simp [hq]
    · rename_i hq
      rw [Logged.bind_result] at h
      obtain ⟨-, -, h⟩ := bind_eq_ok.1 h
      cases h
      simp [hq]
    · cases h
  · rename_i absent
    cases h
    simp only [reduceCtorEq, false_iff]
    rintro ⟨d, d', h, h', hd, hd', hh, hh', -⟩
    exact absent _ _ _ _ hd hd' hh hh'

theorem timeOf_findings : (timeOf r).findings = [] := by
  rw [timeOf]
  split
  · split
    · rfl
    · exact Logged.bind_findings_eq_nil (Logged.sayText_findings _ _) fun _ => rfl
    · rfl
  · rfl

end Time

section Relations

theorem filter_exceptions {as : List Anomaly} (h : ∀ a ∈ as, a.kind = .turnRestrictionException) :
    as.filter isRejection = [] := by
  rw [List.filter_eq_nil_iff]
  intro a ha
  simp [isRejection, h a ha]

theorem rejected_of_ok {k : AnomalyKind} {text : Except NumeralError String} {α : Type} {found : Option α}
    (rejects : k = .turnRestrictionBad ∨ k = .turnRestrictionUnknown)
    (h : (Logged.report k r.id text >>= fun _ => pure none).result = .ok found) :
    ((Logged.report k r.id text >>= fun _ => pure (none : Option α)).findings.filter isRejection).map
      (fun a => (a.kind, a.entityId)) = [(k, r.id)] := by
  cases text with
  | error e => cases h
  | ok t => obtain rfl | rfl := rejects <;> rfl

variable [Limits]

inductive Makes (r : Relation) : Option (Ends × TurnRestriction) → Prop
  | nothing (incomplete : isComplete r = false) : Makes r none
  | restriction {e : Ends} {t : TurnRestriction} (complete : isComplete r = true)
      (ends : endsOf r = some e) (describes : Describes r t) : Makes r (some (e, t))

theorem makes_of_ok {found : Option (Ends × TurnRestriction)} (h : (ofRelation r).result = .ok found) :
    Makes r found := by
  have hasEnds_eq := endsOf_isSome r
  rw [ofRelation] at h
  cases he : endsOf r with
  | none =>
    rw [he] at h hasEnds_eq
    dsimp only at h
    rw [Logged.bind_result] at h
    obtain ⟨-, -, h⟩ := bind_eq_ok.1 h
    cases h
    exact .nothing (by simp [isComplete, ← hasEnds_eq])
  | some e =>
    rw [he] at h hasEnds_eq
    dsimp only at h
    rw [Logged.bind_result] at h
    obtain ⟨modes, hm, h⟩ := bind_eq_ok.1 h
    rw [Logged.bind_result, Logged.lift_result] at h
    obtain ⟨k, hk, h⟩ := bind_eq_ok.1 h
    have turn := kindOf_ok hk
    cases k with
    | none =>
      dsimp only at h
      rw [Logged.bind_result] at h
      obtain ⟨-, -, h⟩ := bind_eq_ok.1 h
      cases h
      exact .nothing (by simp [isComplete, ← turn])
    | some k =>
      rw [Logged.bind_result] at h
      obtain ⟨time, ht, h⟩ := bind_eq_ok.1 h
      cases h
      obtain ⟨car, custom, bicycle⟩ := modesOf_ok hm
      exact .restriction (by simp [isComplete, ← turn, ← hasEnds_eq]) he
        ⟨(endsOf_eq_some.1 he).2.2, turn.symm, car, custom, bicycle, timeOf_ok ht⟩

theorem rejections_of_ok {found : Option (Ends × TurnRestriction)}
    (h : (ofRelation r).result = .ok found) :
    ((ofRelation r).findings.filter isRejection).map (fun a => (a.kind, a.entityId)) =
      if isComplete r then [] else [rejection r] := by
  have hasEnds_eq := endsOf_isSome r
  rw [ofRelation] at h ⊢
  cases he : endsOf r with
  | none =>
    rw [he] at h hasEnds_eq
    rw [isComplete, rejection, ← hasEnds_eq]
    exact rejected_of_ok (.inl rfl) h
  | some e =>
    rw [he] at h hasEnds_eq
    dsimp only at h ⊢
    rw [Logged.bind_result] at h
    obtain ⟨modes, hm, h⟩ := bind_eq_ok.1 h
    rw [Logged.bind_result, Logged.lift_result] at h
    obtain ⟨k, hk, h⟩ := bind_eq_ok.1 h
    rw [Logged.bind_findings_of_ok hm, List.filter_append, filter_exceptions modesOf_findings, hk,
      List.nil_append, Logged.ok_bind, isComplete, rejection, ← hasEnds_eq, ← kindOf_ok hk]
    cases k with
    | none => exact rejected_of_ok (.inr rfl) h
    | some k =>
      rw [Logged.bind_result] at h
      obtain ⟨time, ht, -⟩ := bind_eq_ok.1 h
      rw [Logged.bind_findings_of_ok ht, timeOf_findings]
      rfl

end Relations

section Text

theorem kindOf_of_text (text : r.tags.AllText) : ∃ k, kindOf r = .ok k := by
  rw [kindOf]
  obtain hv | ⟨s, hv⟩ := text.getD "restriction"
  · exact ⟨none, by rw [hv]; rfl⟩
  · exact ⟨kinds.get? s, by rw [hv]⟩

theorem schedule_error {α : Type} {x : Except ScheduleError α} {e : Failure} (h : schedule x = .error e) :
    ∃ e', e = .schedule e' := by
  cases x with
  | ok a => cases h
  | error e' =>
    cases h
    exact ⟨e', rfl⟩

variable [Limits]

theorem fits_of_lastInRole (fits : r.Fits) {role : String} {id : Int} (h : lastInRole r role = some id) :
    Numeral.fits id = true := by
  obtain ⟨m, hm, rfl⟩ := Option.map_eq_some_iff.1 h
  exact fits.refs m (List.mem_of_mem_filter (List.mem_of_getLast? hm))

theorem except_long (he : endsOf r = some e) (m : RestrictedModes) (token : String) :
    FailsBy (LongUnless r.Fits) (except r e m token).result := by
  obtain ⟨way, -, via⟩ := endsOf_eq_some.1 he
  have short (fits : r.Fits) := And.intro (fits_of_lastInRole fits via) (fits_of_lastInRole fits way)
  rw [except]
  split
  · exact .ok _
  · split
    · exact ((writtenIf_exceptionText e).report_long short _ _).logged_bind fun _ => .ok _
    · exact .ok _

theorem modesOf_long (text : r.tags.AllText) (he : endsOf r = some e) :
    FailsBy (LongUnless r.Fits) (modesOf r e).result := by
  apply FailsBy.logged_bind
  · change FailsBy _ (exceptions r)
    rw [exceptions]
    cases hv : r.tags.get? "except" with
    | none => exact .ok _
    | some v =>
      obtain ⟨s, rfl⟩ := text.of_get? hv
      dsimp only
      split <;> exact .ok _
  · exact fun tokens => .logged_foldlM (except_long he) tokens .all

theorem scheduleOf_of_text {d d' h h' : String} {e : Failure}
    (failed : scheduleOf (.text d) (.text d') (.text h) (.text h') = .error e) : ∃ e', e = .schedule e' := by
  simp only [scheduleOf, Json.asText, bind, Except.bind, pure, Except.pure] at failed
  split at failed
  · rename_i windows
    cases failed
    exact schedule_error windows
  · split at failed
    · rename_i first
      cases failed
      exact schedule_error first
    · split at failed
      · rename_i last
        cases failed
        exact schedule_error last
      · cases failed

theorem timeOf_long (text : r.tags.AllText) : FailsBy (LongUnless r.Fits) (timeOf r).result := by
  rw [timeOf]
  split
  · rename_i dayOn dayOff hourOn hourOff hd hd' hh hh'
    obtain ⟨d, rfl⟩ := text.of_get? hd
    obtain ⟨d', rfl⟩ := text.of_get? hd'
    obtain ⟨h, rfl⟩ := text.of_get? hh
    obtain ⟨h', rfl⟩ := text.of_get? hh'
    split
    · exact .ok _
    · have written := (writtenIf_writeInt r.id).map
      exact ((written _).sayText_long Relation.Fits.id .info).logged_bind fun _ => .ok _
    · rename_i e other failed
      obtain ⟨e', rfl⟩ := scheduleOf_of_text failed
      exact absurd rfl (other e')
  · exact .ok _

theorem ofRelation_long (text : r.tags.AllText) : FailsBy (LongUnless r.Fits) (ofRelation r).result := by
  rw [ofRelation]
  cases he : endsOf r with
  | none => exact ((writtenIf_badText r).report_long Relation.Fits.id _ _).logged_bind fun _ => .ok _
  | some e =>
    obtain ⟨k, hk⟩ := kindOf_of_text text
    refine (modesOf_long text he).logged_bind fun modes => ?_
    rw [hk, Logged.ok_bind]
    cases k with
    | none =>
      have shown : ((r.tags.get? "restriction").getD .null).fits = true := by
        obtain hv | ⟨s, hv⟩ := text.getD "restriction" <;> rw [hv] <;> rfl
      have short (fits : r.Fits) := And.intro shown fits.id
      exact ((writtenIf_unknownText r).report_long short _ _).logged_bind fun _ => .ok _
    | some k => exact (timeOf_long text).logged_bind fun _ => .ok _

end Text

end TurnRestriction

end StreetMap
