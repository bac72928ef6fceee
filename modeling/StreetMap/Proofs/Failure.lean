import StreetMap.Proofs.Computation
import StreetMap.Tags

/-!
What computations fail with.
-/

namespace StreetMap

def FailsBy {α : Type} (P : Failure → Prop) (x : Except Failure α) : Prop := ∀ e, x = .error e → P e

section Except

variable {α β : Type} {P Q : Failure → Prop} {x : Except Failure α}

theorem FailsBy.mono (h : FailsBy P x) (imp : ∀ e, P e → Q e) : FailsBy Q x := fun e he => imp e (h e he)

theorem FailsBy.ok (a : α) : FailsBy P (.ok a) := nofun

theorem FailsBy.of_ok {a : α} (h : x = .ok a) : FailsBy P x := by
  rw [h]
  exact .ok a

theorem FailsBy.error {e : Failure} (h : P e) : FailsBy P (.error e : Except Failure α) := by
  intro e' he
  cases he
  exact h

theorem FailsBy.map (h : FailsBy P x) (f : α → β) : FailsBy P (x.map f) := by
  cases x with
  | ok a => exact .ok _
  | error e => exact .error (h e rfl)

theorem FailsBy.bind {f : α → Except Failure β} (h : FailsBy P x) (hf : ∀ a, FailsBy P (f a)) :
    FailsBy P (x >>= f) := by
  cases x with
  | ok a => exact hf a
  | error e => exact .error (h e rfl)

theorem FailsBy.orElse {x : Except Failure Bool} {y : Unit → Except Failure Bool} (h : FailsBy P x)
    (hy : FailsBy P (y ())) : FailsBy P (orElse x y) := by
  cases x with
  | error e => exact h
  | ok b => cases b with
    | false => exact hy
    | true => exact .ok true

theorem FailsBy.mapM {f : α → Except Failure β} (hf : ∀ a, FailsBy P (f a)) (xs : List α) :
    FailsBy P (xs.mapM f) := by
  induction xs with
  | nil => exact .ok _
  | cons x xs ih =>
    rw [mapM_cons_eq]
    exact (hf x).bind fun _ => ih.map _

theorem FailsBy.logged_bind {x : Logged α} {f : α → Logged β} (h : FailsBy P x.result)
    (hf : ∀ a, FailsBy P (f a).result) : FailsBy P (x >>= f).result := by
  rw [Logged.bind_result]
  exact h.bind hf

theorem FailsBy.logged_foldlM {f : β → α → Logged β} (hf : ∀ b a, FailsBy P (f b a).result) (xs : List α)
    (b : β) : FailsBy P (xs.foldlM f b).result := by
  induction xs generalizing b with
  | nil => exact .ok _
  | cons x xs ih => exact (hf b x).logged_bind ih

end Except

namespace Outcome

variable {σ α : Type} {P : Failure → Prop} {s : σ} {o : Outcome σ}

def FailsBy (P : Failure → Prop) (o : Outcome σ) : Prop := ∀ e, o.failure = some e → P e

theorem FailsBy.of_none (h : o.failure = none) : o.FailsBy P := by
  intro e he
  rw [h] at he
  cases he

theorem FailsBy.eq_none (h : o.FailsBy P) (never : ∀ e, ¬ P e) : o.failure = none := by
  cases failed : o.failure with
  | none => rfl
  | some e => exact absurd (h e failed) (never e)

theorem FailsBy.fail {e : Failure} (h : P e) : (fail s e).FailsBy P := by
  intro e' he
  cases he
  exact h

theorem FailsBy.followed {f : σ → Outcome σ} (ho : o.FailsBy P) (hf : (f o.state).FailsBy P) :
    (o.andThen f).FailsBy P := by
  by_cases h : o.failure = none
  · rw [FailsBy, andThen_failure h]
    exact hf
  · rw [andThen_of_failed h]
    exact ho

theorem FailsBy.andThen {f : σ → Outcome σ} (ho : o.FailsBy P) (hf : ∀ s, (f s).FailsBy P) :
    (o.andThen f).FailsBy P :=
  ho.followed (hf o.state)

theorem FailsBy.withValue {x : Except Failure α} {f : α → Outcome σ} (h : StreetMap.FailsBy P x)
    (hf : ∀ a, (f a).FailsBy P) : (withValue s x f).FailsBy P := by
  cases x with
  | ok a => exact hf a
  | error e => exact .fail (h e rfl)

theorem FailsBy.forEach_where {I : σ → Prop} {f : α → σ → Outcome σ} {xs : List α} (hs : I s)
    (hf : ∀ x ∈ xs, ∀ t, I t → (f x t).FailsBy P ∧ I (f x t).state) : (forEach f xs s).FailsBy P := by
  induction xs generalizing s with
  | nil => exact .of_none rfl
  | cons x xs ih =>
    have first := hf x List.mem_cons_self s hs
    exact first.1.followed (ih first.2 fun y hy => hf y (List.mem_cons_of_mem _ hy))

theorem FailsBy.forEach {f : α → σ → Outcome σ} (hf : ∀ x s, (f x s).FailsBy P) (xs : List α) (s : σ) :
    (forEach f xs s).FailsBy P :=
  .forEach_where (I := fun _ => True) trivial fun x _ t _ => ⟨hf x t, trivial⟩

end Outcome

end StreetMap
