import StreetMap.Proofs.Failure
import StreetMap.Store.Relations

/-!
Which texts can be written.  An integer may be too long for it, and a text that shows integers can be written
just if they all can.
-/

namespace StreetMap

theorem Json.number_eq_ok {α : Type} {x : Except NumeralError α} {a : α} : Json.number x = .ok a ↔ x = .ok a := by
  cases x <;> simp [Json.number]

def LongUnless (p : Prop) (f : Failure) : Prop := f = .number .tooLongToWrite ∧ ¬ p

theorem LongUnless.never {p : Prop} (fits : p) (f : Failure) : ¬ LongUnless p f := fun long => long.2 fits

inductive WrittenIf (p : Prop) : Except NumeralError String → Prop
  | written (t : String) (fits : p) : WrittenIf p (.ok t)
  | tooLong (long : ¬ p) : WrittenIf p (.error .tooLongToWrite)

namespace WrittenIf

variable {p q : Prop} {text : Except NumeralError String}

theorem exists_iff (h : WrittenIf p text) : (∃ t, text = .ok t) ↔ p := by
  cases h with
  | written t fits => exact ⟨fun _ => fits, fun _ => ⟨t, rfl⟩⟩
  | tooLong long => exact ⟨nofun, fun fits => absurd fits long⟩

theorem number_eq_error (h : WrittenIf p text) : (∃ e, Json.number text = .error e) ↔ ¬ p := by
  cases h with
  | written t fits => exact ⟨nofun, fun long => absurd fits long⟩
  | tooLong long => exact ⟨fun _ => long, fun _ => ⟨_, rfl⟩⟩

theorem of_error {e : NumeralError} (h : WrittenIf p text) (failed : text = .error e) :
    ¬ p ∧ e = .tooLongToWrite := by
  cases h with
  | written => cases failed
  | tooLong long =>
    cases failed
    exact ⟨long, rfl⟩

theorem number_long (h : WrittenIf p text) (short : q → p) : FailsBy (LongUnless q) (Json.number text) := by
  cases h with
  | written t _ => exact .ok t
  | tooLong long => exact .error ⟨rfl, fun fits => long (short fits)⟩

theorem report_long (h : WrittenIf p text) (short : q → p) (k : AnomalyKind) (id : Int) :
    FailsBy (LongUnless q) (Logged.report k id text).result := by
  cases h with
  | written t _ => exact .ok ()
  | tooLong long => exact .error ⟨rfl, fun fits => long (short fits)⟩

theorem sayText_long (h : WrittenIf p text) (short : q → p) (v : Severity) :
    FailsBy (LongUnless q) (Logged.sayText v text).result := by
  cases h with
  | written t _ => exact .ok ()
  | tooLong long => exact .error ⟨rfl, fun fits => long (short fits)⟩

theorem congr (h : WrittenIf p text) (same : p ↔ q) : WrittenIf q text := by
  rwa [← same]

theorem bind {f : String → Except NumeralError String} (h : WrittenIf p text) (hf : ∀ t, WrittenIf q (f t)) :
    WrittenIf (p ∧ q) (text >>= f) := by
  cases h with
  | written t fits => exact (hf t).congr (and_iff_right fits).symm
  | tooLong long => exact .tooLong fun both => long both.1

theorem map (f : String → String) (h : WrittenIf p text) : WrittenIf p (text >>= fun t => pure (f t)) :=
  (h.bind fun t => .written (f t) trivial).congr (iff_of_eq (and_true p))

end WrittenIf

variable [Limits]

theorem writtenIf_writeInt (n : Int) : WrittenIf (Numeral.fits n = true) (Numeral.writeInt n) := by
  rw [Numeral.writeInt]
  split
  · exact .written _ ‹_›
  · exact .tooLong ‹_›

theorem writtenIf_shown (v : Json) : WrittenIf (v.fits = true) v.shown := by
  rw [Json.shown]
  split
  · exact .written _ ‹_›
  · exact .tooLong ‹_›

theorem Key.writtenIf_display (k : Key) : WrittenIf (Numeral.fits k.id = true) k.display :=
  (writtenIf_writeInt k.id).map _

theorem writtenIf_writeIds (ids : List Int) : WrittenIf (∀ n ∈ ids, Numeral.fits n = true) (writeIds ids) := by
  rw [writeIds]
  cases written : ids.mapM Numeral.writeInt with
  | ok texts =>
    refine .written _ fun n hn => ?_
    obtain ⟨t, -, ht⟩ := exists_of_mapM written hn
    exact (writtenIf_writeInt n).exists_iff.1 ⟨t, ht⟩
  | error e =>
    obtain ⟨n, hn, failed⟩ := exists_of_mapM_error written
    obtain ⟨long, rfl⟩ := (writtenIf_writeInt n).of_error failed
    exact .tooLong fun fits => long (fits n hn)

/-- The integers that an error shows can be written. -/
def RingError.Fits : RingError → Prop
  | .unknownNodes ids => ∀ n ∈ ids.take 5, Numeral.fits n = true
  | .tooFewNodes ids => ∀ n ∈ ids, Numeral.fits n = true
  | _ => True

def AreaError.Fits : AreaError → Prop
  | .ring e => e.Fits
  | .openRings k | .noOuterRing k | .strayHole k | .invalid k _ => Numeral.fits k.id = true
  | .refused _ => True

theorem RingError.writtenIf_message (e : RingError) : WrittenIf e.Fits e.message := by
  cases e with
  | unknownNodes ids => exact (writtenIf_writeIds (ids.take 5)).map _
  | tooFewNodes ids => exact (writtenIf_writeIds ids).map _
  | refused reason => exact .written reason trivial
  | invalid reason => exact .written _ trivial
  | zeroArea => exact .written _ trivial

theorem AreaError.writtenIf_message (e : AreaError) : WrittenIf e.Fits e.message := by
  cases e with
  | ring e => exact e.writtenIf_message
  | openRings k => exact k.writtenIf_display.map _
  | noOuterRing k => exact k.writtenIf_display.map _
  | strayHole k => exact k.writtenIf_display.map _
  | invalid k reason => exact k.writtenIf_display.map _
  | refused reason => exact .written reason trivial

namespace TurnRestriction

theorem writtenIf_exceptionText (e : Ends) :
    WrittenIf (Numeral.fits e.via = true ∧ Numeral.fits e.fromWay = true) (exceptionText e) :=
  (writtenIf_writeInt e.via).bind fun _ => (writtenIf_writeInt e.fromWay).map _

theorem writtenIf_badText (r : Relation) : WrittenIf (Numeral.fits r.id = true) (badText r) :=
  (writtenIf_writeInt r.id).map _

theorem writtenIf_unknownText (r : Relation) :
    WrittenIf (((r.tags.get? "restriction").getD .null).fits = true ∧ Numeral.fits r.id = true) (unknownText r) :=
  (writtenIf_shown _).bind fun _ => (writtenIf_writeInt r.id).map _

end TurnRestriction

namespace Store

theorem writtenIf_unresolvedText (r : Relation) (problem : String) :
    WrittenIf (Numeral.fits r.id = true)
      (do return problem ++ " " ++ (← Numeral.writeInt r.id)) :=
  (writtenIf_writeInt r.id).map _

theorem writtenIf_ambiguityText (k : Key) (spec : String) :
    WrittenIf (Numeral.fits k.id = true) (ambiguityText k spec) :=
  k.writtenIf_display.map _

theorem writtenIf_skippingText (what : String) (k : Key) (e : AreaError) :
    WrittenIf (Numeral.fits k.id = true ∧ e.Fits) (skippingText what k e) :=
  (writtenIf_writeInt k.id).bind fun _ => e.writtenIf_message.map _

theorem writtenIf_roleText (r : Relation) (m : Member) :
    WrittenIf (m.role.fits = true ∧ Numeral.fits m.ref = true ∧ Numeral.fits r.id = true) (roleText r m) :=
  (writtenIf_shown m.role).bind fun _ => (writtenIf_writeInt m.ref).bind fun _ => (writtenIf_writeInt r.id).map _

theorem writtenIf_undefinedText (r : Relation) (m : Member) :
    WrittenIf (Numeral.fits m.ref = true ∧ m.role.fits = true ∧ Numeral.fits r.id = true)
      (undefinedText r m) :=
  (writtenIf_writeInt m.ref).bind fun _ => (writtenIf_shown m.role).bind fun _ => (writtenIf_writeInt r.id).map _

end Store

end StreetMap
