import Mathlib.Data.List.Nodup
import StreetMap.Proofs.Tags

/-!
Permissions mode by mode.  Each mode is decided from its own tag, the general ban and what is open to it by
default; so the modes may be taken in any order, more by default gives no less in the end, and no mode depends
on the tags of the others.
-/

namespace StreetMap

/-- A way to travel that a permission covers or not. -/
inductive Mode
  | pedestrian | bicycle | car
  deriving DecidableEq

/-- The tag that speaks of a mode alone. -/
def Mode.key : Mode → String
  | .pedestrian => "foot"
  | .bicycle => "bicycle"
  | .car => "motorcar"

/-- The modes in the order in which permissions take them. -/
def Mode.all : List Mode := [.car, .bicycle, .pedestrian]

theorem Mode.mem_all (m : Mode) : m ∈ Mode.all := by
  cases m <;> decide

theorem Mode.nodup_all : Mode.all.Nodup := by decide

namespace Permission

def has (p : Permission) : Mode → Bool
  | .pedestrian => p.pedestrian
  | .bicycle => p.bicycle
  | .car => p.car

def set (p : Permission) (m : Mode) (b : Bool) : Permission :=
  match m with
  | .pedestrian => { p with pedestrian := b }
  | .bicycle => { p with bicycle := b }
  | .car => { p with car := b }

instance : LE Permission := ⟨fun p q => ∀ m, p.has m = true → q.has m = true⟩

variable {p q : Permission} {m k : Mode}

@[simp] theorem has_none (m : Mode) : none.has m = false := by
  cases m <;> rfl

theorem has_set (p : Permission) (m k : Mode) (b : Bool) :
    (p.set m b).has k = if k = m then b else p.has k := by
  cases m <;> cases k <;> rfl

theorem eq_of_has (h : ∀ m, p.has m = q.has m) : p = q := by
  obtain ⟨pedestrian, bicycle, car⟩ := p
  obtain ⟨pedestrian', bicycle', car'⟩ := q
  cases h .pedestrian
  cases h .bicycle
  cases h .car
  rfl

theorem has_foldl_set (f : Mode → Bool → Bool) {modes : List Mode} (distinct : modes.Nodup)
    (p : Permission) :
    (modes.foldl (fun p m => p.set m (f m (p.has m))) p).has k =
      if k ∈ modes then f k (p.has k) else p.has k := by
  induction modes generalizing p with
  | nil => rfl
  | cons m modes ih =>
    obtain ⟨new, distinct⟩ := List.nodup_cons.1 distinct
    rw [List.foldl_cons, ih distinct, has_set]
    by_cases same : k = m
    · subst same
      simp [new]
    · simp [same]

end Permission

namespace Access

section Order

variable (t : Tags)

def deniesMode : Mode → Except Failure Bool
  | .bicycle => t.deniesBicycle
  | m => t.denies m.key

def letIn (p : Permission) (m : Mode) : Except Failure Permission := do
  return p.set m (p.has m || (← t.allows m.key))

def settle (p : Permission) (m : Mode) : Except Failure Permission := do
  return p.set m (decideMode t m.key (← deniesMode t m) (p.has m))

def initialIn (order : List Mode) (default : Permission) : Except Failure Permission := do
  if ← t.isAccessDenied then order.foldlM (letIn t) .none else return default

def permissionsIn (order : List Mode) (default : Permission) : Except Failure Permission := do
  let p ← order.foldlM (settle t) (← initialIn t order default)
  return if t.isUnderConstruction then .none else p

theorem initialPermission_eq (default : Permission) :
    initialPermission t default = initialIn t Mode.all default := by
  rw [initialPermission, initialIn]
  cases t.isAccessDenied with
  | error e => rfl
  | ok banned =>
    cases banned with
    | false => rfl
    | true =>
      simp only [Mode.all, List.foldlM_cons, List.foldlM_nil, letIn, Mode.key, bind, Except.bind, pure,
        Except.pure]
      cases t.allows "motorcar" <;> cases t.allows "bicycle" <;> cases t.allows "foot" <;> rfl

theorem permissions_eq (default : Permission) :
    permissions t default = permissionsIn t Mode.all default := by
  rw [permissions, initialPermission_eq, permissionsIn]
  cases initialIn t Mode.all default with
  | error e => rfl
  | ok p =>
    simp only [Mode.all, List.foldlM_cons, List.foldlM_nil, settle, deniesMode, Mode.key, bind,
      Except.bind, pure, Except.pure]
    cases t.denies "motorcar" <;> cases t.deniesBicycle <;> cases t.denies "foot" <;> rfl

end Order

section Rule

variable (t : Tags)

def Carries (key : String) (words : List String) : Prop :=
  ∃ word, t.get? (.text key) = some (.text word) ∧ Text.lower word ∈ words

def IsDenied (m : Mode) : Prop :=
  Carries t m.key denyingWords ∨ m = .bicycle ∧ t.get? (.text m.key) = some (.text "use_sidepath")

def IsUnfinished : Prop :=
  t.get? (.text "highway") = some (.text "construction") ∨
    t.get? (.text "cycleway") = some (.text "construction")

/-- A mode gets in by a tag of its own, or by default where there is no general ban. -/
structure Admits (default : Permission) (m : Mode) : Prop where
  finished : ¬ IsUnfinished t
  undenied : ¬ IsDenied t m
  granted : t.has m.key = true ∨ ¬ Carries t "access" denyingWords ∧ default.has m = true

variable {t : Tags} {key : String} {words : List String} {m : Mode} {order : List Mode}

theorem contains_lowered (text : t.AllText) (named : "" ∉ words) :
    words.contains (t.lowered key) = true ↔ Carries t key words := by
  rw [List.contains_iff_mem, Tags.lowered, Carries]
  cases hv : t.get? (.text key) with
  | none => simpa using named
  | some v =>
    obtain ⟨s, rfl⟩ := text.of_get? hv
    simp

theorem wordIn_of_text (text : t.AllText) (key : String) (named : "" ∉ words) :
    ∃ b, t.wordIn key words = .ok b ∧ (b = true ↔ Carries t key words) :=
  ⟨_, text.wordIn key words, contains_lowered text named⟩

theorem has_of_carries (carries : Carries t key words) : t.has key = true := by
  obtain ⟨word, hv, -⟩ := carries
  exact Table.has_of_get? hv

theorem isUnderConstruction_iff : t.isUnderConstruction = true ↔ IsUnfinished t := by
  rw [Tags.isUnderConstruction, Bool.or_eq_true, Tags.is_iff, Tags.is_iff, IsUnfinished]

theorem deniesMode_of_text (text : t.AllText) (m : Mode) :
    ∃ b, deniesMode t m = .ok b ∧ (b = true ↔ IsDenied t m) := by
  have named : "" ∉ denyingWords := by decide
  obtain ⟨b, read, denied⟩ := wordIn_of_text text m.key named
  cases m with
  | bicycle =>
    refine ⟨b || t.is "bicycle" "use_sidepath", ?_, ?_⟩
    · exact (congrArg (orElse · _) read).trans (orElse_ok _ _)
    · simp [IsDenied, denied, Tags.is_iff, Mode.key]
  | pedestrian => exact ⟨b, read, by simp [IsDenied, denied]⟩
  | car => exact ⟨b, read, by simp [IsDenied, denied]⟩

theorem foldlM_set {step : Permission → Mode → Except Failure Permission} {f : Mode → Bool → Bool}
    (answers : ∀ p m, step p m = .ok (p.set m (f m (p.has m)))) (order : List Mode) (p : Permission) :
    order.foldlM step p = .ok (order.foldl (fun p m => p.set m (f m (p.has m))) p) := by
  have same : step = fun p m => pure (p.set m (f m (p.has m))) := funext fun p => funext (answers p)
  rw [same, List.foldlM_pure]
  rfl

theorem initialIn_of_text (text : t.AllText) (distinct : order.Nodup) (all : ∀ m, m ∈ order)
    (default : Permission) :
    ∃ p, initialIn t order default = .ok p ∧ ∀ m, p.has m = true ↔
      Carries t "access" denyingWords ∧ Carries t m.key allowingWords ∨
        ¬ Carries t "access" denyingWords ∧ default.has m = true := by
  have denying : "" ∉ denyingWords := by decide
  have allowing : "" ∉ allowingWords := by decide
  obtain ⟨banned, ban, hban⟩ := wordIn_of_text text "access" denying
  choose allowed allows hallowed using fun m : Mode => wordIn_of_text text m.key allowing
  have ban : t.isAccessDenied = .ok banned := ban
  rw [initialIn, ban]
  cases banned with
  | true =>
    have answers (p : Permission) (m : Mode) : letIn t p m = .ok (p.set m (p.has m || allowed m)) := by
      rw [letIn, Tags.allows, allows]
      rfl
    refine ⟨_, foldlM_set (f := fun m b => b || allowed m) answers order .none, fun m => ?_⟩
    rw [Permission.has_foldl_set (fun m b => b || allowed m) distinct, if_pos (all m), Permission.has_none,
      Bool.false_or, hallowed]
    simp [← hban]
  | false => exact ⟨default, rfl, fun m => by simp [← hban]⟩

theorem decideMode_eq_true {denied before : Bool} :
    decideMode t key denied before = true ↔ denied = false ∧ (t.has key = true ∨ before = true) := by
  cases denied <;> simp [decideMode]

theorem permissionsIn_of_text (text : t.AllText) (distinct : order.Nodup) (all : ∀ m, m ∈ order)
    (default : Permission) :
    ∃ p, permissionsIn t order default = .ok p ∧ ∀ m, p.has m = true ↔ Admits t default m := by
  obtain ⟨initial, start, hinitial⟩ := initialIn_of_text text distinct all default
  choose denied denies hdenied using deniesMode_of_text text
  have answers (p : Permission) (m : Mode) :
      settle t p m = .ok (p.set m (decideMode t m.key (denied m) (p.has m))) := by
    rw [settle, denies]
    rfl
  have settled := foldlM_set (f := fun m b => decideMode t m.key (denied m) b) answers order initial
  have out : permissionsIn t order default = .ok (if t.isUnderConstruction then .none
      else order.foldl (fun p m => p.set m (decideMode t m.key (denied m) (p.has m))) initial) := by
    rw [permissionsIn, start]
    exact congrArg (Except.map fun p => if t.isUnderConstruction then Permission.none else p) settled
  refine ⟨_, out, fun m => ?_⟩
  have named : Carries t m.key allowingWords → t.has m.key = true := has_of_carries
  have undenied : denied m = false ↔ ¬ IsDenied t m := by rw [← hdenied, Bool.not_eq_true]
  by_cases unfinished : IsUnfinished t
  · rw [if_pos (isUnderConstruction_iff.2 unfinished), Permission.has_none]
    exact ⟨nofun, fun admits => absurd unfinished admits.finished⟩
  · rw [if_neg (mt isUnderConstruction_iff.1 unfinished), Permission.has_foldl_set _ distinct,
      if_pos (all m), decideMode_eq_true, undenied, hinitial]
    constructor
    · rintro ⟨h, granted⟩
      exact ⟨unfinished, h, by tauto⟩
    · rintro ⟨-, h, granted⟩
      exact ⟨h, by tauto⟩

theorem keys_apart : ∀ m ∈ Mode.all, ∀ k ∈ Mode.all, k ≠ m →
    ∀ key ∈ [m.key, "access", "highway", "cycleway"], key ≠ k.key := by
  decide

theorem admits_congr {t' : Tags} {default : Permission}
    (same : ∀ key ∈ [m.key, "access", "highway", "cycleway"], t'.get? (.text key) = t.get? (.text key)) :
    Admits t' default m ↔ Admits t default m := by
  have own : t'.get? (.text m.key) = t.get? (.text m.key) := same m.key (by simp)
  have access : t'.get? (.text "access") = t.get? (.text "access") := same "access" (by simp)
  have unfinished : IsUnfinished t' ↔ IsUnfinished t := by
    rw [IsUnfinished, IsUnfinished, same "highway" (by simp), same "cycleway" (by simp)]
  have denied : IsDenied t' m ↔ IsDenied t m := by
    rw [IsDenied, IsDenied, Carries, Carries, own]
  have tagged : t'.has m.key = t.has m.key := congrArg Option.isSome own
  have banned : Carries t' "access" denyingWords ↔ Carries t "access" denyingWords := by
    rw [Carries, Carries, access]
  constructor
  · rintro ⟨finished, undenied, granted⟩
    exact ⟨mt unfinished.2 finished, mt denied.2 undenied, by rwa [← tagged, ← banned]⟩
  · rintro ⟨finished, undenied, granted⟩
    exact ⟨mt unfinished.1 finished, mt denied.1 undenied, by rwa [tagged, banned]⟩

theorem Admits.mono {default more : Permission} (admits : Admits t default m) (le : default ≤ more) :
    Admits t more m where
  finished := admits.finished
  undenied := admits.undenied
  granted := admits.granted.imp_right (And.imp_right (le m))

/-- Permissions of text tags follow one rule for each mode.  So they do not depend on the order in which the
modes are taken, they grow with the default, and no mode depends on the tags of the other two. -/
theorem permissions_by_mode (text : t.AllText) (default : Permission) :
    ∃ p, permissions t default = .ok p ∧
      (∀ m, p.has m = true ↔ Admits t default m) ∧
      (∀ order, order.Perm Mode.all → permissionsIn t order default = .ok p) ∧
      (∀ more, default ≤ more → ∃ q, permissions t more = .ok q ∧ p ≤ q) ∧
      ∀ m (t' : Tags), t'.AllText →
        (∀ key : TagKey, (∀ k, k ≠ m → key ≠ .text k.key) → t'.get? key = t.get? key) →
        ∃ q, permissions t' default = .ok q ∧ q.has m = p.has m := by
  have rule {t : Tags} (text : t.AllText) (default : Permission) :
      ∃ p, permissions t default = .ok p ∧ ∀ m, p.has m = true ↔ Admits t default m := by
    rw [permissions_eq]
    exact permissionsIn_of_text text Mode.nodup_all Mode.mem_all default
  obtain ⟨p, hp, admitted⟩ := rule text default
  refine ⟨p, hp, admitted, fun order perm => ?_, fun more le => ?_, fun m t' text' agree => ?_⟩
  · obtain ⟨q, hq, admitted'⟩ := permissionsIn_of_text text (perm.nodup_iff.2 Mode.nodup_all)
      (fun m => perm.mem_iff.2 m.mem_all) default
    rw [hq]
    refine congrArg Except.ok (Permission.eq_of_has fun m => ?_)
    rw [Bool.eq_iff_iff, admitted', admitted]
  · obtain ⟨q, hq, admitted'⟩ := rule text more
    exact ⟨q, hq, fun m hm => (admitted' m).2 (((admitted m).1 hm).mono le)⟩
  · obtain ⟨q, hq, admitted'⟩ := rule text' default
    refine ⟨q, hq, ?_⟩
    rw [Bool.eq_iff_iff, admitted', admitted]
    refine admits_congr fun key hkey => agree _ fun k other same => ?_
    cases same
    exact keys_apart m m.mem_all k k.mem_all other k.key hkey rfl

def cyclePath : Tags :=
  [(.text "highway", .text "path"), (.text "access", .text "No"), (.text "bicycle", .text "Designated"),
    (.text "foot", .text "no")]

theorem cyclePath_by_mode : cyclePath.AllText ∧
    permissions cyclePath .pedestrianAndBicycle = .ok ⟨false, true, false⟩ ∧
      Admits cyclePath .pedestrianAndBicycle .bicycle ∧
        ¬ Admits cyclePath .pedestrianAndBicycle .pedestrian := by
  have text : cyclePath.AllText := by
    simp [cyclePath, Tags.AllText]
  obtain ⟨p, hp, admitted, -⟩ := permissions_by_mode text .pedestrianAndBicycle
  have bicycles : permissions cyclePath .pedestrianAndBicycle = .ok ⟨false, true, false⟩ := by rfl
  cases hp.symm.trans bicycles
  exact ⟨text, bicycles, (admitted .bicycle).1 rfl,
    fun h => Bool.noConfusion ((admitted .pedestrian).2 h)⟩

end Rule

end Access

end StreetMap
