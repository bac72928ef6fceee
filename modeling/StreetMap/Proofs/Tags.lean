import StreetMap.Settings
import StreetMap.Proofs.Table

/-!
Tags that hold text and nothing else.  Nothing that is asked of them fails, and they stay text when text
is put among them.
-/

namespace StreetMap

@[simp] theorem orElse_ok (a b : Bool) : orElse (.ok a) (fun _ => .ok b) = .ok (a || b) := by
  cases a <;> rfl

theorem Json.eq_text_of_asText {v : Json} {operation text : String} (h : v.asText operation = .ok text) :
    v = .text text := by
  cases v with
  | text s => exact congrArg Json.text (Except.ok.inj h)
  | _ => cases h

namespace Tags

variable {t : Tags}

def lowered (t : Tags) (key : String) : String :=
  match t.get? key with
  | some (.text s) => Text.lower s
  | _ => ""

theorem is_iff {key value : String} : t.is key value = true ↔ t.get? (.text key) = some (.text value) := by
  simp [Tags.is, Option.any_eq_true, Json.isText_eq_true]

theorem AllText.of_get? (h : t.AllText) {k : TagKey} {v : Json} (hv : t.get? k = some v) :
    ∃ s, v = .text s := by
  obtain ⟨k', s, hs⟩ := h _ (Table.mem_of_get? hv)
  exact ⟨s, congrArg Prod.snd hs⟩

theorem AllText.put (h : t.AllText) (key s : String) : AllText (Table.put t (.text key) (.text s)) := by
  induction t with
  | nil => exact List.forall_mem_singleton.2 ⟨key, s, rfl⟩
  | cons r t ih =>
    have hr := List.forall_mem_cons.1 h
    rw [Table.put]
    split
    · rename_i hk
      exact List.forall_mem_cons.2 ⟨⟨key, s, by rw [hk]⟩, hr.2⟩
    · exact List.forall_mem_cons.2 ⟨hr.1, ih hr.2⟩

theorem AllText.word (h : t.AllText) (key : String) : t.word key = .ok (t.lowered key) := by
  unfold Tags.word lowered
  cases hv : t.get? key with
  | none => rfl
  | some v =>
    obtain ⟨s, rfl⟩ := h.of_get? hv
    by_cases hs : s = ""
    · rw [hs]
      rfl
    · have hn : (Json.text s).isNothing = false := by simpa [Json.isNothing] using hs
      simp [hn, Json.asText, Except.map]

theorem AllText.wordIn (h : t.AllText) (key : String) (words : List String) :
    t.wordIn key words = .ok (words.contains (t.lowered key)) := by
  rw [Tags.wordIn, h.word]
  rfl

theorem AllText.getD (h : t.AllText) (k : TagKey) :
    (t.get? k).getD .null = .null ∨ ∃ s, (t.get? k).getD .null = .text s := by
  cases hv : t.get? k with
  | none => exact .inl rfl
  | some v => exact .inr (h.of_get? hv)

theorem AllText.isParkAndRide (h : t.AllText) : ∃ b, t.isParkAndRide = .ok b := by
  have parking : ∃ b, holdsParkAndRide ((t.get? "parking").getD .null) = .ok b := by
    obtain hv | ⟨s, hv⟩ := h.getD "parking"
    · exact ⟨false, by rw [hv]; rfl⟩
    · rw [hv, holdsParkAndRide]
      split <;> exact ⟨_, rfl⟩
  have ride : ∃ b, offersParkAndRide ((t.get? "park_ride").getD .null) = .ok b := by
    obtain hv | ⟨s, hv⟩ := h.getD "park_ride"
    · exact ⟨false, by rw [hv]; rfl⟩
    · rw [hv, offersParkAndRide]
      split <;> exact ⟨_, rfl⟩
  obtain ⟨b, hb⟩ := parking
  obtain ⟨b', hb'⟩ := ride
  rw [Tags.isParkAndRide, hb, hb', orElse_ok]
  split <;> exact ⟨_, rfl⟩

end Tags

namespace Access

variable {t : Tags}

theorem isWayRoutable_of_text (h : t.AllText) : ∃ b, isWayRoutable t = .ok b := by
  have closed : ∃ b, isClosedHighway t = .ok b := by
    rw [isClosedHighway]
    cases hv : t.get? "highway" with
    | none => exact ⟨false, rfl⟩
    | some v =>
      obtain ⟨s, rfl⟩ := h.of_get? hv
      exact ⟨_, rfl⟩
  obtain ⟨b, hb⟩ := closed
  rw [isWayRoutable, hb]
  cases isElementRoutable t with
  | false => exact ⟨false, rfl⟩
  | true =>
    cases b with
    | true => exact ⟨false, rfl⟩
    | false =>
      simp only [Tags.isAccessDenied, Tags.denies, allowsSomeMode, Tags.allows, h.wordIn, orElse_ok]
      simp only [bind, Except.bind, Bool.not_true, Bool.false_eq_true, if_false]
      split <;> exact ⟨_, rfl⟩

theorem permissions_of_text (h : t.AllText) (default : Permission) : ∃ p, permissions t default = .ok p := by
  have initial : ∃ p, initialPermission t default = .ok p := by
    simp only [initialPermission, Tags.isAccessDenied, Tags.denies, Tags.allows, h.wordIn, bind, Except.bind]
    split <;> exact ⟨_, rfl⟩
  obtain ⟨p, hp⟩ := initial
  rw [permissions, hp]
  simp only [Tags.deniesBicycle, Tags.denies, h.wordIn, orElse_ok]
  exact ⟨_, rfl⟩

end Access

namespace Settings

variable {c : Settings}

/-- The classifier answers whether a way with text tags is routable. -/
def Answers (c : Settings) : Prop := ∀ t : Tags, t.AllText → ∃ b, c.isWayRoutable t = .ok b

theorem access_of_standard (h : c.classifier = some .standard) {t : Tags} (text : t.AllText) :
    (∃ b, c.isElementRoutable t = .ok b) ∧ (∃ b, c.isWayRoutable t = .ok b) ∧
      ∀ p, ∃ q, c.permissions t p = .ok q := by
  rw [isElementRoutable, isWayRoutable, h]
  refine ⟨⟨_, rfl⟩, Access.isWayRoutable_of_text text, fun p => ?_⟩
  rw [permissions, h]
  exact Access.permissions_of_text text p

theorem answers_of_standard (h : c.classifier = some .standard) : c.Answers := by
  exact fun t ht => (access_of_standard h ht).2.1

/-- The classifier and the tags themselves tell what an area with the tags is for. -/
def Classifies (c : Settings) (t : Tags) : Prop :=
  (∃ b, c.isElementRoutable t = .ok b) ∧ (∃ p, c.permissions t .pedestrianAndBicycle = .ok p) ∧
    ∃ b, t.isParkAndRide = .ok b

theorem classifies_of_standard (h : c.classifier = some .standard) {t : Tags} (text : t.AllText) :
    c.Classifies t := by
  obtain ⟨routable, -, permissions⟩ := access_of_standard h text
  exact ⟨routable, permissions .pedestrianAndBicycle, text.isParkAndRide⟩

theorem positive_of_valid (h : c.problems = []) :
    isPositive c.nodeInterval = true ∧ isPositive c.wayInterval = true ∧
      isPositive c.relationInterval = true := by
  have hi : c.intervalProblems = [] := by
    rw [problems, List.append_eq_nil_iff, List.append_eq_nil_iff] at h
    exact h.1.2
  rw [intervalProblems, List.map_eq_nil_iff, List.filter_eq_nil_iff] at hi
  simpa using hi

theorem isMultiple_of_positive {v : Json} (h : isPositive v = true) (n : Nat) :
    ∃ b, isMultiple n v = .ok b := by
  cases v with
  | int m =>
    have hm : m ≠ 0 := by
      rintro rfl
      simp [isPositive] at h
    exact ⟨_, if_neg hm⟩
  | bool b =>
    cases b with
    | false => cases h
    | true => exact ⟨true, rfl⟩
  | _ => cases h

end Settings

end StreetMap
