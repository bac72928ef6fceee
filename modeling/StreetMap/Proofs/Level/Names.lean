import Mathlib
import StreetMap.Proofs.Level
import StreetMap.Proofs.Number.Numeral
import StreetMap.Proofs.Number.Rounding
import StreetMap.Standard

/-!
What is read back from a written level.  The parts of a specification are found again if no separator is
in them that a cut would take for its own.  In a level map floors count from one where floors are raised,
and so the name that is shown of a floor in a tag, read as a name in a level map, gives the same floor.
-/

namespace StreetMap.Level

open Text

variable {source : LevelSource} {raise : Bool} {spec name short long altitude : String} {n : Int}

section Parts

variable {cs before after : List Char}

theorem cutAltitude_append (absent : '@' ∉ after) : cutAltitude (before ++ '@' :: after) =
    (before, (Numeral.readFloat (String.ofList after)).toOption) := by
  rw [cutAltitude, cutAtLast?_append absent]

theorem cutAltitude_of_absent (absent : '@' ∉ cs) : cutAltitude cs = (cs, none) := by
  rw [cutAltitude, cutAtLast?_of_absent absent]

theorem cutNames_append (nonempty : before ≠ []) (absent : '=' ∉ before) :
    cutNames (before ++ '=' :: after) = (before, after) := by
  rw [cutNames, cutAtFirst?_append absent]
  obtain ⟨c, cs, rfl⟩ := List.exists_cons_of_ne_nil nonempty
  rfl

theorem cutNames_of_absent (absent : '=' ∉ cs) : cutNames cs = (cs, cs) := by
  rw [cutNames, cutAtFirst?_of_absent absent]

structure IsName (name : String) : Prop where
  unplaced : '@' ∉ name.toList
  unsigned : name.toList.head? ≠ some '+'

/-- Two names that are parted by the first equals sign. -/
structure ArePair (short long : String) : Prop where
  first : IsName short
  second : IsName long
  nonempty : short ≠ ""
  unparted : '=' ∉ short.toList

theorem ArePair.cutNames_eq (h : ArePair short long) :
    cutNames (short ++ "=" ++ long).toList = (short.toList, long.toList) := by
  rw [String.toList_append, String.toList_append, List.append_assoc]
  exact cutNames_append (mt String.toList_eq_nil_iff.1 h.nonempty) h.unparted

theorem Spec.ofText_of_cuts {body : List Char} {a : Option Float}
    (hb : cutAltitude spec.toList = (body, a)) (hn : cutNames body = (before, after)) :
    Spec.ofText spec = ⟨String.ofList body, String.ofList (dropLeading '+' before),
      String.ofList (dropLeading '+' after), a⟩ := by
  rw [Spec.ofText, hb]
  dsimp only
  rw [hn]

theorem ArePair.ofText_of_cut {a : Option Float} (h : ArePair short long)
    (cut : cutAltitude spec.toList = ((short ++ "=" ++ long).toList, a)) :
    Spec.ofText spec = ⟨short ++ "=" ++ long, short, long, a⟩ := by
  rw [Spec.ofText_of_cuts cut h.cutNames_eq, dropLeading_of_head? h.first.unsigned,
    dropLeading_of_head? h.second.unsigned, String.ofList_toList, String.ofList_toList, String.ofList_toList]

theorem ArePair.ofText_altitude (h : ArePair short long) (unplaced : '@' ∉ altitude.toList) :
    Spec.ofText (short ++ "=" ++ long ++ "@" ++ altitude) =
      ⟨short ++ "=" ++ long, short, long, (Numeral.readFloat altitude).toOption⟩ := by
  have cut : cutAltitude (short ++ "=" ++ long ++ "@" ++ altitude).toList =
      ((short ++ "=" ++ long).toList, (Numeral.readFloat altitude).toOption) := by
    have joined : (short ++ "=" ++ long ++ "@" ++ altitude).toList =
        (short ++ "=" ++ long).toList ++ '@' :: altitude.toList := by
      rw [String.toList_append, String.toList_append, List.append_assoc]
      rfl
    rw [joined, cutAltitude_append unplaced, String.ofList_toList]
  exact h.ofText_of_cut cut

theorem ArePair.ofText (h : ArePair short long) :
    Spec.ofText (short ++ "=" ++ long) = ⟨short ++ "=" ++ long, short, long, none⟩ := by
  have unplaced : '@' ∉ (short ++ "=" ++ long).toList := by
    simp [h.first.unplaced, h.second.unplaced]
  exact h.ofText_of_cut (cutAltitude_of_absent unplaced)

theorem Spec.ofText_of_absent (unplaced : '@' ∉ spec.toList) (unparted : '=' ∉ spec.toList)
    (hn : dropLeading '+' spec.toList = name.toList) : Spec.ofText spec = ⟨spec, name, name, none⟩ := by
  rw [Spec.ofText_of_cuts (cutAltitude_of_absent unplaced) (cutNames_of_absent unparted), hn,
    String.ofList_toList, String.ofList_toList]

end Parts

section Situations

theorem altitudeOf_none (fits : (Float.ofInt n * metresPerFloor).isFinite = true) :
    altitudeOf n none = .ok (Float.ofInt n * metresPerFloor) := by
  have near : (Float.ofInt n).isInf = false := by
    rw [← Bool.not_eq_true]
    intro far
    exact Bool.noConfusion ((Number.isInf_eq_false fits).symm.trans (Number.isInf_thrice far))
  rw [altitudeOf, Numeral.toFloat]
  simp [near, Except.map]

variable {s : Spec}

theorem Spec.situate_of_floor {a : Float} (n : Int) (ha : s.altitude = some a) :
    s.situate (some n) = .ok (n, some a, none) := by
  rw [situate, ha]
  rfl

theorem Spec.situate_of_floor_alone (ha : s.altitude = none)
    (fits : (Float.ofInt n * metresPerFloor).isFinite = true) :
    s.situate (some n) = .ok (n, some (Float.ofInt n * metresPerFloor), none) := by
  rw [situate, ha, altitudeOf_none fits]
  rfl

theorem Spec.situate_of_altitude {a : Float} (ha : s.altitude = some a)
    (floor : Numeral.truncate (a / metresPerFloor) = .ok n) :
    s.situate none = .ok (n, some a, some (.guessed s.body n)) := by
  rw [situate, ha]
  dsimp only
  rw [floor]
  rfl

theorem Spec.situate_of_nothing (ha : s.altitude = none) :
    s.situate none = .ok (0, none, some (.unreadable s.body)) := by
  rw [situate, ha]

end Situations

section Reading

variable [Limits]

theorem readLogged_of_situate {s : Spec} {longFloor shortFloor : Option Int} {longName shortName : String}
    {floor : Int} {altitude : Option Float} {doubt : Option Doubt} (hs : Spec.ofText spec = s)
    (hl : readName source raise s.longName = .ok (longFloor, longName))
    (hsh : readName source raise s.shortName = .ok (shortFloor, shortName))
    (situated : s.situate (shortFloor <|> longFloor) = .ok (floor, altitude, doubt)) :
    (readLogged spec source raise).result =
      .ok ⟨floor, altitude, shortName, longName, source, (shortFloor <|> longFloor).isSome⟩ := by
  subst hs
  suffices read spec source raise =
      .ok (⟨floor, altitude, shortName, longName, source, (shortFloor <|> longFloor).isSome⟩, doubt) by
    rw [readLogged_of_ok this]
  rw [read, hl]
  simp only [bind, Except.bind, hsh, pure, Except.pure]
  cases hf : (shortFloor <|> longFloor) with
  | some n =>
    rw [hf, Spec.situate] at situated
    obtain ⟨a, ha, pair⟩ := map_eq_ok.1 situated
    cases pair
    simp [ha]
  | none =>
    rw [hf] at situated
    cases ha : (Spec.ofText spec).altitude with
    | none =>
      rw [Spec.situate, ha] at situated
      cases situated
      rfl
    | some a =>
      rw [Spec.situate, ha] at situated
      obtain ⟨n, hn, pair⟩ := map_eq_ok.1 situated
      cases pair
      simp [hn]

/-- The floor, counted from zero, of a number in a level map. -/
def mapFloor (raise : Bool) (k : Int) : Int := if raise = true ∧ 1 ≤ k then k - 1 else k

theorem readName_map (raise : Bool) (name : String) :
    readName .levelMap raise name = .ok ((Numeral.readInt name).toOption.map (mapFloor raise), name) := by
  rw [readName]
  cases Numeral.readInt name with
  | error e => rfl
  | ok n => cases raise <;> simp [mapFloor, Except.toOption]

/-- The number that the short name reads as, or else the long name. -/
def number? (short long : String) : Option Int :=
  (Numeral.readInt short).toOption <|> (Numeral.readInt long).toOption

theorem readLogged_map {s : Spec} {floor : Int} {altitude : Option Float} {doubt : Option Doubt}
    (raise : Bool) (hs : Spec.ofText spec = s)
    (situated : s.situate ((number? s.shortName s.longName).map (mapFloor raise)) =
      .ok (floor, altitude, doubt)) :
    (readLogged spec .levelMap raise).result =
      .ok ⟨floor, altitude, s.shortName, s.longName, .levelMap, (number? s.shortName s.longName).isSome⟩ := by
  have floors : (number? s.shortName s.longName).map (mapFloor raise) =
      ((Numeral.readInt s.shortName).toOption.map (mapFloor raise) <|>
        (Numeral.readInt s.longName).toOption.map (mapFloor raise)) := by
    rw [number?]
    cases (Numeral.readInt s.shortName).toOption <;> rfl
  rw [floors] at situated
  rw [readLogged_of_situate hs (readName_map raise s.longName) (readName_map raise s.shortName) situated,
    ← floors, Option.isSome_map]

/-- The parts of a level in a level map are read back: the names as they are, the altitude if one is given,
and as floor the number of the short name, or else that of the long name, or else the whole part of a third
of the altitude.  Without an altitude the floor gives one. -/
theorem parts_read_back (h : ArePair short long) (raise : Bool) :
    (∀ altitude a, '@' ∉ altitude.toList → Numeral.readFloat altitude = .ok a → a.isFinite = true →
      ∃ floor, (readLogged (short ++ "=" ++ long ++ "@" ++ altitude) .levelMap raise).result =
          .ok ⟨floor, some a, short, long, .levelMap, (number? short long).isSome⟩ ∧
        (∀ k, number? short long = some k → floor = mapFloor raise k) ∧
        (number? short long = none →
          ∃ v, latticeValue? (a / metresPerFloor) = some v ∧ floor = v.tdiv latticeUnit)) ∧
    (∀ k, number? short long = some k → (Float.ofInt (mapFloor raise k) * metresPerFloor).isFinite = true →
      (readLogged (short ++ "=" ++ long) .levelMap raise).result =
        .ok ⟨mapFloor raise k, some (Float.ofInt (mapFloor raise k) * metresPerFloor), short, long,
          .levelMap, true⟩) ∧
    (number? short long = none →
      (readLogged (short ++ "=" ++ long) .levelMap raise).result =
        .ok ⟨0, none, short, long, .levelMap, false⟩) := by
  refine ⟨fun altitude a unplaced reads finite => ?_, fun k number fits => ?_, fun number => ?_⟩
  · have parts := h.ofText_altitude unplaced
    rw [reads] at parts
    cases number : number? short long with
    | some k =>
      have read := readLogged_map raise parts (by
        rw [number]
        exact Spec.situate_of_floor (mapFloor raise k) rfl)
      rw [number] at read
      refine ⟨mapFloor raise k, read, ?_, nofun⟩
      rintro _ ⟨⟩
      rfl
    | none =>
      obtain ⟨v, lattice, floor⟩ := Number.truncate_eq_tdiv (Number.isFinite_third finite)
      have read := readLogged_map raise parts (by
        rw [number]
        exact Spec.situate_of_altitude rfl floor)
      rw [number] at read
      exact ⟨v.tdiv latticeUnit, read, nofun, fun _ => ⟨v, lattice, rfl⟩⟩
  · have read := readLogged_map raise h.ofText (by
      rw [number]
      exact Spec.situate_of_floor_alone rfl fits)
    rwa [number] at read
  · have read := readLogged_map raise h.ofText (by
      rw [number]
      exact Spec.situate_of_nothing rfl)
    rwa [number] at read

end Reading

open Standard in
theorem areaway_read_back :
    (readLogged "A=Areaway@-4.5" .levelMap true).result =
        .ok ⟨-1, some (-4.5), "A", "Areaway", .levelMap, false⟩ ∧
      (readLogged "2=Upper=Street" .levelMap true).result =
        .ok ⟨1, some 3, "2", "Upper=Street", .levelMap, true⟩ := by
  have areaway : ArePair "A" "Areaway" :=
    ⟨⟨by decide, by decide⟩, ⟨by decide, by decide⟩, by decide, by decide⟩
  have upper : ArePair "2" "Upper=Street" :=
    ⟨⟨by decide, by decide⟩, ⟨by decide, by decide⟩, by decide, by decide⟩
  have third : (latticeValue? (-4.5 / metresPerFloor)).map (Int.tdiv · latticeUnit) = some (-1) := by
    decide +kernel
  have product : Float.ofInt (mapFloor true 2) * metresPerFloor = 3 := by decide +kernel
  constructor
  · obtain ⟨floor, read, -, guess⟩ :=
      (parts_read_back areaway true).1 "-4.5" (-4.5) (by decide) rfl rfl
    obtain ⟨v, hv, below⟩ := guess (by decide)
    rw [hv] at third
    rw [below.trans (Option.some.inj third)] at read
    exact read
  · have read := (parts_read_back upper true).2.1 2 (by decide) rfl
    rwa [product] at read

section Shown

/-- A floor as it is shown where floors count from one. -/
def shownFloor (n : Int) : String := toString (if 0 ≤ n then n + 1 else n)

/-- The decimal texts of an integer. -/
inductive IsTextOf (n : Int) : String → Prop
  | plain : IsTextOf n (toString n)
  | signed (h : 0 ≤ n) : IsTextOf n ("+" ++ toString n)

theorem mem_toString {c : Char} (hc : c ∈ (toString n).toList) : c = '-' ∨ c.isDigit = true := by
  cases n with
  | ofNat n => exact .inr ((Numeral.isDigits_toString n).digits c hc)
  | negSucc n =>
    rw [Numeral.toList_toString_negSucc, List.mem_cons] at hc
    exact hc.imp_right ((Numeral.isDigits_toString (n + 1)).digits c)

theorem shownFloor_injective : Function.Injective shownFloor := by
  intro m n same
  have numbers := Int.repr_injective same
  split at numbers <;> split at numbers <;> omega

theorem absent_toString (c : Char) (h : c ≠ '-' ∧ c.isDigit = false) (n : Int) : c ∉ (toString n).toList := by
  intro hc
  rcases mem_toString hc with minus | digit
  · exact h.1 minus
  · exact Bool.noConfusion (h.2.symm.trans digit)

theorem ofText_of_isTextOf {text : String} (h : IsTextOf n text) :
    Spec.ofText text = ⟨text, toString n, toString n, none⟩ := by
  have unplaced := absent_toString '@' (by decide) n
  have unparted := absent_toString '=' (by decide) n
  cases h with
  | plain =>
    refine Spec.ofText_of_absent unplaced unparted (dropLeading_of_head? fun plus => ?_)
    exact absent_toString '+' (by decide) n (List.mem_of_head? plus)
  | signed h =>
    have signed : ("+" ++ toString n).toList = '+' :: (toString n).toList := by
      rw [String.toList_append]
      rfl
    refine Spec.ofText_of_absent ?_ ?_ (by rw [signed]; rfl)
    · rw [signed]
      exact List.not_mem_cons_of_ne_of_not_mem (by decide) unplaced
    · rw [signed]
      exact List.not_mem_cons_of_ne_of_not_mem (by decide) unparted

theorem natAbs_of_finite (finite : (Float.ofInt n * metresPerFloor).isFinite = true) :
    ∃ digits ≤ 640, n.natAbs + 1 < Nat.pow 10 digits := by
  have bits : n.natAbs.log2 < 1024 := by
    refine Nat.lt_of_not_le fun long => ?_
    have far := Number.isInf_thrice (Number.isInf_ofInt long)
    exact Bool.noConfusion ((Number.isInf_eq_false finite).symm.trans far)
  exact ⟨640, Nat.le_refl 640, Number.succ_lt_of_log2_lt bits (by decide +kernel)⟩

variable [Limits] {digits : Nat}

theorem readName_tag (tag : source ≠ .levelMap) (few : digits ≤ 640) (small : n.natAbs + 1 < Nat.pow 10 digits) :
    readName source true (toString n) = .ok (some n, shownFloor n) := by
  have number : Numeral.readInt (toString n) = .ok n :=
    Numeral.readInt_toString (Numeral.fits_of_lt few ((Nat.le_succ _).trans_lt small))
  have next : (n + 1).natAbs ≤ n.natAbs + 1 := Int.natAbs_add_le n 1
  have fits : Numeral.fits (n + 1) = true := Numeral.fits_of_lt few (next.trans_lt small)
  have short : ¬ Overlong source true (toString n) := by
    rintro ⟨-, -, m, hm, long⟩
    cases number.symm.trans hm
    exact Bool.noConfusion (long.symm.trans fits)
  rw [readName_raised tag short, number, raisedName, number, shownFloor]
  by_cases h : 0 ≤ n <;> simp [h, Except.toOption]

theorem number?_shownFloor (few : digits ≤ 640) (small : n.natAbs + 1 < Nat.pow 10 digits) :
    (number? (shownFloor n) (shownFloor n)).map (mapFloor true) = some n := by
  have room : Numeral.fits (if 0 ≤ n then n + 1 else n) = true := by
    have next : (if 0 ≤ n then n + 1 else n).natAbs ≤ n.natAbs + 1 := by
      split
      · exact Int.natAbs_add_le n 1
      · exact Nat.le_succ _
    exact Numeral.fits_of_lt few (next.trans_lt small)
  rw [number?, shownFloor, Numeral.readInt_toString room]
  change some (mapFloor true (if 0 ≤ n then n + 1 else n)) = some n
  rw [mapFloor]
  split <;> split <;> grind

/-- The name that is shown of a floor in a tag is read in a level map as the same floor, and as its own
name.  Different floors are shown by different names. -/
theorem shown_floors_agree :
    (∀ n source text, (Float.ofInt n * metresPerFloor).isFinite = true →
      source = .levelTag ∨ source = .layerTag → IsTextOf n text →
      (readLogged text source true).result =
          .ok ⟨n, some (Float.ofInt n * metresPerFloor), shownFloor n, shownFloor n, source, true⟩ ∧
        (readLogged (shownFloor n) .levelMap true).result =
          .ok ⟨n, some (Float.ofInt n * metresPerFloor), shownFloor n, shownFloor n, .levelMap, true⟩) ∧
    Function.Injective shownFloor := by
  refine ⟨fun n source text finite tag h => ?_, shownFloor_injective⟩
  obtain ⟨digits, few, small⟩ := natAbs_of_finite finite
  constructor
  · have tag : source ≠ .levelMap := by
      rcases tag with rfl | rfl <;> decide
    have shown := readName_tag tag few small
    exact readLogged_of_situate (ofText_of_isTextOf h) shown shown (Spec.situate_of_floor_alone rfl finite)
  · have parts : Spec.ofText (shownFloor n) = ⟨shownFloor n, shownFloor n, shownFloor n, none⟩ :=
      ofText_of_isTextOf .plain
    have floor := number?_shownFloor few small
    have read := readLogged_map true parts (by
      rw [floor]
      exact Spec.situate_of_floor_alone rfl finite)
    rwa [← Option.isSome_map, floor] at read

end Shown

open Standard in
theorem ground_floor_agrees :
    (readLogged "+0" .layerTag true).result = .ok ⟨0, some 0, "1", "1", .layerTag, true⟩ ∧
      (readLogged "1" .levelMap true).result = .ok ⟨0, some 0, "1", "1", .levelMap, true⟩ := by
  have product : Float.ofInt 0 * metresPerFloor = 0 := by decide +kernel
  have read := shown_floors_agree.1 0 .layerTag "+0" rfl (.inr rfl) (.signed Int.le_rfl)
  rwa [product] at read

end StreetMap.Level
