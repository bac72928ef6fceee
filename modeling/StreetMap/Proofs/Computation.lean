import Mathlib.Data.List.Perm.Basic
import StreetMap.Log

/-!
Laws of computations.  A value for each member of a list does not depend on the order of the list; what a
computation finds is what its parts find; and the steps of an operation follow one another up to the
first that fails, so what each step settles for its own member holds of all at the end.
-/

namespace StreetMap

section Except

variable {α β ε : Type} {x : Except ε α} {b : β}

theorem map_eq_ok {f : α → β} : x.map f = .ok b ↔ ∃ a, x = .ok a ∧ f a = b := by
  cases x with
  | error e => simp [Except.map]
  | ok a => simp [Except.map]

theorem bind_eq_ok {f : α → Except ε β} : x.bind f = .ok b ↔ ∃ a, x = .ok a ∧ f a = .ok b := by
  cases x with
  | error e => simp [Except.bind]
  | ok a => simp [Except.bind]

end Except

section Pairs

variable {α β : Type} {R : α → β → Prop} {xs : List α} {ys : List β} {x : α}

theorem at_index_of_forall₂ (h : List.Forall₂ R xs ys) {j : Nat} (hx : xs[j]? = some x) :
    ∃ y, ys[j]? = some y ∧ R x y := by
  induction h generalizing j with
  | nil => cases hx
  | cons hxy _ ih =>
    cases j with
    | zero =>
      cases hx
      exact ⟨_, rfl, hxy⟩
    | succ j => exact ih hx

theorem exists_of_forall₂ (h : List.Forall₂ R xs ys) (hx : x ∈ xs) : ∃ y ∈ ys, R x y := by
  obtain ⟨j, hj⟩ := List.mem_iff_getElem?.1 hx
  obtain ⟨y, hy, hxy⟩ := at_index_of_forall₂ h hj
  exact ⟨y, List.mem_of_getElem? hy, hxy⟩

theorem forall₂_zip_iff {γ δ ε : Type} {R : α → γ → Prop} {S : β → δ → Prop} {f : ε → γ} {g : ε → δ}
    {zs : List ε} (paired : xs.length = ys.length) :
    List.Forall₂ (fun p z => R p.1 (f z) ∧ S p.2 (g z)) (xs.zip ys) zs ↔
      List.Forall₂ R xs (zs.map f) ∧ List.Forall₂ S ys (zs.map g) := by
  induction xs generalizing ys zs with
  | nil =>
    obtain rfl := List.eq_nil_of_length_eq_zero paired.symm
    cases zs <;> simp
  | cons x xs ih =>
    obtain ⟨y, ys, rfl⟩ := List.exists_cons_of_length_eq_add_one paired.symm
    cases zs with
    | nil => simp
    | cons z zs =>
      simp only [List.zip_cons_cons, List.map_cons, List.forall₂_cons, ih (Nat.succ.inj paired)]
      exact and_and_and_comm

end Pairs

section Traversal

variable {α β ε : Type} {f : α → Except ε β} {xs xs' : List α} {ys : List β}

theorem mapM_cons_eq (f : α → Except ε β) (x : α) (xs : List α) :
    (x :: xs).mapM f = (f x).bind fun y => (xs.mapM f).map (y :: ·) := by
  rw [List.mapM_cons]
  cases f x with
  | error e => rfl
  | ok y => cases xs.mapM f <;> rfl

theorem mapM_congr {g : α → Except ε β} (h : ∀ x ∈ xs, f x = g x) : xs.mapM f = xs.mapM g := by
  induction xs with
  | nil => rfl
  | cons x xs ih =>
    rw [mapM_cons_eq, mapM_cons_eq, h x List.mem_cons_self, ih fun y hy => h y (List.mem_cons_of_mem _ hy)]

theorem mapM_eq_ok : xs.mapM f = .ok ys ↔ List.Forall₂ (fun x y => f x = .ok y) xs ys := by
  induction xs generalizing ys with
  | nil =>
    cases ys with
    | nil => exact ⟨fun _ => .nil, fun _ => rfl⟩
    | cons y ys =>
      constructor
      · intro h; cases h
      · intro h; cases h
  | cons x xs ih =>
    rw [mapM_cons_eq]
    constructor
    · intro h
      cases hx : f x with
      | error e => rw [hx] at h; cases h
      | ok y =>
        cases hxs : xs.mapM f with
        | error e => rw [hx, hxs] at h; cases h
        | ok zs =>
          rw [hx, hxs] at h
          cases h
          exact .cons hx (ih.1 hxs)
    · intro h
      cases h with
      | cons hx hxs => rw [hx, ih.2 hxs]; rfl

theorem mapM_append_eq_ok : (xs ++ xs').mapM f = .ok ys ↔
    ∃ zs zs', xs.mapM f = .ok zs ∧ xs'.mapM f = .ok zs' ∧ zs ++ zs' = ys := by
  rw [List.mapM_append]
  simp only [bind, pure, Except.pure, bind_eq_ok, Except.ok.injEq, exists_and_left]

theorem mapM_perm (hp : xs.Perm xs') (h : xs.mapM f = .ok ys) :
    ∃ ys', xs'.mapM f = .ok ys' ∧ ys.Perm ys' := by
  cases List.perm_comp_forall₂ hp.symm (mapM_eq_ok.1 h) with
  | intro ys' h' => exact ⟨ys', mapM_eq_ok.2 h'.1, h'.2.symm⟩

theorem exists_of_mapM (h : xs.mapM f = .ok ys) {x : α} (hx : x ∈ xs) : ∃ y ∈ ys, f x = .ok y :=
  exists_of_forall₂ (mapM_eq_ok.1 h) hx

theorem exists_of_mapM_error {e : ε} (h : xs.mapM f = .error e) : ∃ x ∈ xs, f x = .error e := by
  induction xs with
  | nil => cases h
  | cons x xs ih =>
    rw [mapM_cons_eq] at h
    cases hx : f x with
    | error e' =>
      rw [hx] at h
      cases h
      exact ⟨x, List.mem_cons_self, hx⟩
    | ok y =>
      rw [hx] at h
      cases hxs : xs.mapM f with
      | ok ys =>
        rw [hxs] at h
        cases h
      | error e' =>
        rw [hxs] at h
        cases h
        obtain ⟨x', hx', failed⟩ := ih hxs
        exact ⟨x', List.mem_cons_of_mem _ hx', failed⟩

theorem exists_of_mem_mapM (h : xs.mapM f = .ok ys) : ∀ y ∈ ys, ∃ x ∈ xs, f x = .ok y :=
  fun _ hy => exists_of_forall₂ (mapM_eq_ok.1 h).flip hy

theorem map_eq_of_mapM {γ : Type} {u : β → γ} {v : α → γ} (h : xs.mapM f = .ok ys)
    (shows : ∀ x y, f x = .ok y → v x = u y) : ys.map u = xs.map v := by
  have same : List.Forall₂ (· = ·) (xs.map v) (ys.map u) :=
    List.forall₂_map_left_iff.2 (List.forall₂_map_right_iff.2 ((mapM_eq_ok.1 h).imp shows))
  rw [List.forall₂_eq_eq_eq] at same
  exact same.symm

theorem mapM_of_subset (h : xs.mapM f = .ok ys) (hs : ∀ x ∈ xs', x ∈ xs) :
    ∃ ys', xs'.mapM f = .ok ys' ∧ ∀ y ∈ ys', y ∈ ys := by
  induction xs' with
  | nil => exact ⟨[], rfl, fun y hy => by cases hy⟩
  | cons x xs' ih =>
    obtain ⟨y, hy, hx⟩ := exists_of_mapM h (hs x List.mem_cons_self)
    obtain ⟨ys', hys', hsub⟩ := ih fun x hx => hs x (List.mem_cons_of_mem _ hx)
    refine ⟨y :: ys', ?_, ?_⟩
    · rw [mapM_cons_eq, hx, hys']; rfl
    · intro z hz
      cases hz with
      | head => exact hy
      | tail _ hz => exact hsub z hz

end Traversal

section Options

variable {α β : Type} {f : α → Option β} {xs : List α} {ys : List β}

theorem mapM_eq_some : xs.mapM f = some ys ↔ List.Forall₂ (fun x y => f x = some y) xs ys := by
  induction xs generalizing ys with
  | nil =>
    rw [List.forall₂_nil_left_iff, List.mapM_nil]
    exact ⟨fun h => (Option.some.inj h).symm, fun h => congrArg some h.symm⟩
  | cons x xs ih =>
    rw [List.forall₂_cons_left_iff, List.mapM_cons]
    simp only [bind, pure, Option.bind_eq_some_iff, Option.some.injEq, ih]
    constructor
    · rintro ⟨y, hy, ys, hys, rfl⟩
      exact ⟨y, ys, hy, hys, rfl⟩
    · rintro ⟨y, ys, hy, hys, rfl⟩
      exact ⟨y, hy, ys, hys, rfl⟩

theorem mapM_eq_none {x : α} (hx : x ∈ xs) (h : f x = none) : xs.mapM f = none := by
  cases hys : xs.mapM f with
  | none => rfl
  | some ys =>
    obtain ⟨y, -, hy⟩ := exists_of_forall₂ (mapM_eq_some.1 hys) hx
    rw [h] at hy
    cases hy

end Options

namespace Logged

variable {α β : Type}

def findings (x : Logged α) : List Anomaly := x.log.filterMap Note.anomaly?

@[simp] theorem pure_result (a : α) : (Pure.pure a : Logged α).result = .ok a := rfl

@[simp] theorem pure_findings (a : α) : (Pure.pure a : Logged α).findings = [] := rfl

@[simp] theorem lift_result (x : Except Failure α) : (liftM x : Logged α).result = x := rfl

@[simp] theorem lift_findings (x : Except Failure α) : (liftM x : Logged α).findings = [] := rfl

@[simp] theorem say_result (v : Severity) (text : String) : (say v text).result = .ok () := rfl

@[simp] theorem say_findings (v : Severity) (text : String) : (say v text).findings = [] := rfl

@[simp] theorem sayText_findings (v : Severity) (text : Except NumeralError String) :
    (sayText v text).findings = [] := by
  cases text <;> rfl

@[simp] theorem report_ok (k : AnomalyKind) (id : Int) (t : String) :
    report k id (.ok t) = find ⟨k, id, t⟩ := rfl

@[simp] theorem report_error (k : AnomalyKind) (id : Int) (e : NumeralError) :
    report k id (.error e) = ⟨[], .error (.number e)⟩ := rfl

theorem bind_result (x : Logged α) (f : α → Logged β) :
    (x >>= f).result = x.result.bind fun a => (f a).result := by
  obtain ⟨l, r⟩ := x
  cases r <;> rfl

theorem bind_findings (x : Logged α) (f : α → Logged β) :
    (x >>= f).findings = x.findings ++ match x.result with
      | .ok a => (f a).findings
      | .error _ => [] := by
  obtain ⟨l, r⟩ := x
  cases r with
  | error e => exact (List.append_nil _).symm
  | ok a => exact List.filterMap_append

theorem report_kind (k : AnomalyKind) (id : Int) (text : Except NumeralError String) :
    ∀ a ∈ (report k id text).findings, a.kind = k := by
  cases text with
  | error e => exact List.forall_mem_nil _
  | ok t => exact List.forall_mem_singleton.2 rfl

theorem report_bind_kind {k : AnomalyKind} {id : Int} {text : Except NumeralError String} {f : Unit → Logged α}
    (hf : ∀ a ∈ (f ()).findings, a.kind = k) : ∀ a ∈ (report k id text >>= f).findings, a.kind = k := by
  rw [bind_findings]
  refine List.forall_mem_append.2 ⟨report_kind k id text, ?_⟩
  split
  · exact hf
  · exact List.forall_mem_nil _

theorem bind_findings_of_ok {x : Logged α} {a : α} (h : x.result = .ok a) (f : α → Logged β) :
    (x >>= f).findings = x.findings ++ (f a).findings := by
  rw [bind_findings, h]

theorem ok_bind (a : α) (f : α → Logged β) :
    ((liftM (Except.ok a : Except Failure α) : Logged α) >>= f) = f a := pure_bind a f

theorem bind_findings_eq_nil {x : Logged α} {f : α → Logged β} (hx : x.findings = [])
    (hf : ∀ a, (f a).findings = []) : (x >>= f).findings = [] := by
  rw [bind_findings, hx]
  cases x.result with
  | error e => rfl
  | ok a => exact hf a

theorem lawful : LawfulMonad Logged := LawfulMonad.mk' Logged bind_pure pure_bind bind_assoc

theorem mapM_cons (f : α → Logged β) (x : α) (xs : List α) :
    (x :: xs).mapM f = f x >>= fun y => xs.mapM f >>= fun ys => Pure.pure (y :: ys) :=
  have := lawful
  List.mapM_cons

theorem mapM_result (f : α → Logged β) (xs : List α) :
    (xs.mapM f).result = xs.mapM fun x => (f x).result := by
  induction xs with
  | nil => rfl
  | cons x xs ih =>
    rw [mapM_cons, bind_result, mapM_cons_eq]
    congr 1
    funext y
    rw [bind_result, ih]
    cases xs.mapM fun x => (f x).result <;> rfl

theorem mapM_result_ok {f : α → Logged β} {xs : List α} :
    (∃ ys, (xs.mapM f).result = .ok ys) ↔ ∀ x ∈ xs, ∃ y, (f x).result = .ok y := by
  induction xs with
  | nil => simp
  | cons x xs ih =>
    rw [List.forall_mem_cons, ← ih, mapM_cons, bind_result]
    constructor
    · rintro ⟨ys, h⟩
      obtain ⟨y, hy, h⟩ := bind_eq_ok.1 h
      rw [bind_result] at h
      obtain ⟨zs, hzs, -⟩ := bind_eq_ok.1 h
      exact ⟨⟨y, hy⟩, zs, hzs⟩
    · rintro ⟨⟨y, hy⟩, zs, hzs⟩
      rw [hy]
      change ∃ ys, (xs.mapM f >>= fun zs => Pure.pure (y :: zs)).result = .ok ys
      rw [bind_result, hzs]
      exact ⟨_, rfl⟩

theorem mapM_findings {f : α → Logged β} (hf : ∀ a, (f a).findings = []) (xs : List α) :
    (xs.mapM f).findings = [] := by
  induction xs with
  | nil => rfl
  | cons x xs ih =>
    rw [mapM_cons]
    apply bind_findings_eq_nil (hf x)
    intro y
    exact bind_findings_eq_nil ih fun _ => rfl

theorem foldlM_findings {f : β → α → Logged β} (hf : ∀ b a, (f b a).findings = []) (xs : List α)
    (b : β) : (xs.foldlM f b).findings = [] := by
  induction xs generalizing b with
  | nil => rfl
  | cons x xs ih => exact bind_findings_eq_nil (hf b x) ih

end Logged

namespace Outcome

variable {σ α : Type}

@[simp] theorem done_state (s : σ) : (done s).state = s := rfl

@[simp] theorem done_failure (s : σ) : (done s).failure = none := rfl

@[simp] theorem fail_state (s : σ) (e : Failure) : (fail s e).state = s := rfl

@[simp] theorem fail_failure (s : σ) (e : Failure) : (fail s e).failure = some e := rfl

@[simp] theorem saying_state (v : Severity) (text : String) (s : σ) : (saying v text s).state = s := rfl

@[simp] theorem saying_failure (v : Severity) (text : String) (s : σ) :
    (saying v text s).failure = none := rfl

@[simp] theorem withValue_ok {β : Type} (s : σ) (x : β) (f : β → Outcome σ) :
    withValue s (.ok x) f = f x := rfl

@[simp] theorem withValue_error {β : Type} (s : σ) (e : Failure) (f : β → Outcome σ) :
    withValue s (.error e) f = fail s e := rfl

theorem andThen_of_failed {o : Outcome σ} (h : o.failure ≠ none) (f : σ → Outcome σ) :
    o.andThen f = o := by
  unfold andThen
  split
  · rfl
  · exact absurd ‹_› h

theorem andThen_state {o : Outcome σ} (h : o.failure = none) (f : σ → Outcome σ) :
    (o.andThen f).state = (f o.state).state := by
  simp [andThen, h]

theorem andThen_failure {o : Outcome σ} (h : o.failure = none) (f : σ → Outcome σ) :
    (o.andThen f).failure = (f o.state).failure := by
  simp [andThen, h]

theorem andThen_failure_eq_none {o : Outcome σ} {f : σ → Outcome σ} :
    (o.andThen f).failure = none ↔ o.failure = none ∧ (f o.state).failure = none := by
  cases h : o.failure with
  | none => simp [andThen_failure h]
  | some e => simp [andThen_of_failed (o := o) (by simp [h]), h]

@[simp] theorem done_andThen (s : σ) (f : σ → Outcome σ) : (done s).andThen f = f s := rfl

@[simp] theorem andThen_done (o : Outcome σ) : o.andThen done = o := by
  obtain ⟨s, log, e⟩ := o
  cases e <;> simp [andThen, done]

theorem andThen_assoc (o : Outcome σ) (f g : σ → Outcome σ) :
    (o.andThen f).andThen g = o.andThen fun s => (f s).andThen g := by
  obtain ⟨s, log, e⟩ := o
  cases e with
  | some e => rfl
  | none => cases h : (f s).failure <;> simp [andThen, h, List.append_assoc]

@[simp] theorem forEach_nil (f : α → σ → Outcome σ) (s : σ) : forEach f [] s = done s := rfl

theorem forEach_cons (f : α → σ → Outcome σ) (x : α) (xs : List α) (s : σ) :
    forEach f (x :: xs) s = (f x s).andThen (forEach f xs) := rfl

@[simp] theorem forEach_singleton (f : α → σ → Outcome σ) (x : α) : forEach f [x] = f x := by
  funext s
  exact andThen_done (f x s)

theorem forEach_append (f : α → σ → Outcome σ) (xs ys : List α) (s : σ) :
    forEach f (xs ++ ys) s = (forEach f xs s).andThen (forEach f ys) := by
  induction xs generalizing s with
  | nil => rfl
  | cons x xs ih =>
    rw [List.cons_append, forEach_cons, forEach_cons, andThen_assoc]
    congr 1
    funext t
    exact ih t

theorem forEach_map {β : Type} (f : α → σ → Outcome σ) (g : β → α) (ys : List β) :
    forEach f (ys.map g) = forEach (fun y => f (g y)) ys := by
  induction ys with
  | nil => rfl
  | cons y ys ih =>
    funext s
    rw [List.map_cons, forEach_cons, forEach_cons, ih]

/-- The operation goes well, and what it leaves has a property. -/
def Ends (o : Outcome σ) (P : σ → Prop) : Prop := o.failure = none ∧ P o.state

theorem Ends.andThen {o : Outcome σ} {f : σ → Outcome σ} {P Q : σ → Prop} (ho : o.Ends P)
    (hf : ∀ s, P s → (f s).Ends Q) : (o.andThen f).Ends Q := by
  have hq := hf o.state ho.2
  rw [Ends, andThen_failure_eq_none, andThen_state ho.1]
  exact ⟨⟨ho.1, hq.1⟩, hq.2⟩

/-- Two operations both fail, or both go well and leave what is so related. -/
def Agree (R : σ → σ → Prop) (o o' : Outcome σ) : Prop :=
  (o.failure = none ↔ o'.failure = none) ∧ (o.failure = none → R o.state o'.state)

theorem Agree.andThen {R Q : σ → σ → Prop} {o o' : Outcome σ} {f f' : σ → Outcome σ}
    (ho : Agree R o o') (hf : ∀ s t, R s t → Agree Q (f s) (f' t)) :
    Agree Q (o.andThen f) (o'.andThen f') := by
  by_cases h : o.failure = none
  · have h' := ho.1.1 h
    have hq := hf o.state o'.state (ho.2 h)
    rw [Agree, andThen_failure h, andThen_failure h', andThen_state h, andThen_state h']
    exact hq
  · have h' : ¬ o'.failure = none := fun h' => h (ho.1.2 h')
    rw [Agree, andThen_of_failed h, andThen_of_failed h']
    exact ⟨ho.1, fun h'' => absurd h'' h⟩

theorem Agree.imp {R Q : σ → σ → Prop} {o o' : Outcome σ} (h : Agree R o o')
    (hq : R o.state o'.state → Q o.state o'.state) : Agree Q o o' :=
  ⟨h.1, fun hf => hq (h.2 hf)⟩

theorem Agree.refl {P : σ → Prop} {o : Outcome σ} (h : o.failure = none → P o.state) :
    Agree (fun s t => t = s ∧ P s) o o :=
  ⟨.rfl, fun hf => ⟨rfl, h hf⟩⟩

theorem Agree.of_failed {R : σ → σ → Prop} {o o' : Outcome σ} (h : o.failure ≠ none)
    (h' : o'.failure ≠ none) : Agree R o o' :=
  ⟨iff_of_false h h', fun hf => absurd hf h⟩

theorem Agree.after {R : σ → σ → Prop} {o a : Outcome σ} {f : σ → Outcome σ} {s : σ}
    (ho : o.Ends (· = s)) (h : Agree R a (f s)) : Agree R a (o.andThen f) := by
  rw [Agree, andThen_failure ho.1, andThen_state ho.1, ho.2]
  exact h

theorem forEach_ends {P : σ → Prop} {f : α → σ → Outcome σ} {xs : List α} {s : σ} (hs : P s)
    (hf : ∀ x ∈ xs, ∀ s, P s → (f x s).Ends P) : (forEach f xs s).Ends P := by
  induction xs generalizing s with
  | nil => exact ⟨rfl, hs⟩
  | cons x xs ih =>
    apply (hf x List.mem_cons_self s hs).andThen
    intro t ht
    exact ih ht fun y hy => hf y (List.mem_cons_of_mem _ hy)

theorem forEach_keeps_of_ok {P : σ → Prop} {f : α → σ → Outcome σ} {xs : List α} {s : σ} (hs : P s)
    (hf : ∀ x ∈ xs, ∀ t, P t → (f x t).failure = none → P (f x t).state)
    (ok : (forEach f xs s).failure = none) : P (forEach f xs s).state := by
  induction xs generalizing s with
  | nil => exact hs
  | cons x xs ih =>
    rw [forEach_cons, andThen_failure_eq_none] at ok
    rw [forEach_cons, andThen_state ok.1]
    have first := hf x List.mem_cons_self s hs ok.1
    exact ih first (fun y hy => hf y (List.mem_cons_of_mem _ hy)) ok.2

theorem forEach_fails {P : σ → Prop} {Q : α → Prop} {f : α → σ → Outcome σ} {xs : List α} {s : σ}
    (hs : P s) (good : ∀ x ∈ xs, Q x → ∀ s, P s → (f x s).Ends P)
    (bad : ∀ x ∈ xs, ¬ Q x → ∀ s, P s → (f x s).failure ≠ none) (h : ∃ x ∈ xs, ¬ Q x) :
    (forEach f xs s).failure ≠ none := by
  induction xs generalizing s with
  | nil => simp at h
  | cons x xs ih =>
    rw [forEach_cons, Ne, andThen_failure_eq_none, not_and]
    intro ok
    by_cases hx : Q x
    · have rest : ∃ y ∈ xs, ¬ Q y := by simpa [hx] using h
      exact ih (good x List.mem_cons_self hx s hs).2 (fun y hy => good y (List.mem_cons_of_mem _ hy))
        (fun y hy => bad y (List.mem_cons_of_mem _ hy)) rest
    · exact absurd ok (bad x List.mem_cons_self hx s hs)

theorem forEach_failure {P : σ → Prop} {Q : α → Prop} {f : α → σ → Outcome σ} {xs : List α} {s : σ}
    (hs : P s)
    (hf : ∀ x ∈ xs, ∀ s, P s → P (f x s).state ∧ ((f x s).failure = none ↔ Q x)) :
    P (forEach f xs s).state ∧ ((forEach f xs s).failure = none ↔ ∀ x ∈ xs, Q x) := by
  refine ⟨forEach_keeps hs fun x hx s hs => (hf x hx s hs).1, ?_⟩
  induction xs generalizing s with
  | nil => simp
  | cons x xs ih =>
    have first := hf x List.mem_cons_self s hs
    rw [forEach_cons, andThen_failure_eq_none, first.2, List.forall_mem_cons,
      ih first.1 fun y hy => hf y (List.mem_cons_of_mem _ hy)]

theorem forEach_settles {Q : α → σ → Prop} {D : α → α → Prop} {f : α → σ → Outcome σ} {xs : List α}
    {s : σ} (hxs : xs.Pairwise D)
    (settle : ∀ x ∈ xs, ∀ s, (f x s).failure = none → Q x (f x s).state)
    (keep : ∀ x y, D x y → ∀ s, Q x s → Q x (f y s).state)
    (h : (forEach f xs s).failure = none) : ∀ x ∈ xs, Q x (forEach f xs s).state := by
  induction xs generalizing s with
  | nil => intro x hx; cases hx
  | cons x xs ih =>
    rw [forEach_cons, andThen_failure_eq_none] at h
    rw [forEach_cons, andThen_state h.1]
    cases hxs with
    | cons hx hxs =>
      intro y hy
      cases hy with
      | head =>
        refine forEach_keeps (settle x List.mem_cons_self s h.1) ?_
        intro y hy t ht
        exact keep x y (hx y hy) t ht
      | tail _ hy => exact ih hxs (fun y hy => settle y (List.mem_cons_of_mem _ hy)) h.2 y hy

theorem forEach_each {P : σ → Prop} {f : α → σ → Outcome σ} {xs : List α} {s : σ} (hs : P s)
    (keep : ∀ x ∈ xs, ∀ t, P t → P (f x t).state) (h : (forEach f xs s).failure = none) :
    ∀ x ∈ xs, ∃ t, P t ∧ (f x t).failure = none := by
  induction xs generalizing s with
  | nil => exact List.forall_mem_nil _
  | cons x xs ih =>
    rw [forEach_cons, andThen_failure_eq_none] at h
    refine List.forall_mem_cons.2 ⟨⟨s, hs, h.1⟩, ?_⟩
    exact ih (keep x List.mem_cons_self s hs) (fun y hy => keep y (List.mem_cons_of_mem _ hy)) h.2

theorem forEach_view {β : Type} {P : σ → Prop} {f : α → σ → Outcome σ} {g : σ → β} {u : β → α → β}
    {xs : List α} {s : σ} (hs : P s)
    (hf : ∀ x ∈ xs, ∀ t, P t → (f x t).failure = none → P (f x t).state ∧ g (f x t).state = u (g t) x)
    (ok : (forEach f xs s).failure = none) :
    P (forEach f xs s).state ∧ g (forEach f xs s).state = xs.foldl u (g s) := by
  induction xs generalizing s with
  | nil => exact ⟨hs, rfl⟩
  | cons x xs ih =>
    rw [forEach_cons, andThen_failure_eq_none] at ok
    obtain ⟨first, seen⟩ := hf x List.mem_cons_self s hs ok.1
    rw [forEach_cons, andThen_state ok.1, List.foldl_cons, ← seen]
    exact ih first (fun y hy => hf y (List.mem_cons_of_mem _ hy)) ok.2

theorem forEach_last {β : Type} {P : σ → Prop} {f : α → σ → Outcome σ} {g : σ → Option β}
    {write : α → Option β} {xs : List α} {s : σ} (hs : P s)
    (hf : ∀ x ∈ xs, ∀ t, P t → (f x t).failure = none →
      P (f x t).state ∧ g (f x t).state = (write x).or (g t))
    (h : (forEach f xs s).failure = none) :
    g (forEach f xs s).state = (xs.reverse.findSome? write).or (g s) := by
  induction xs generalizing s with
  | nil => rfl
  | cons x xs ih =>
    rw [forEach_cons, andThen_failure_eq_none] at h
    have first := hf x List.mem_cons_self s hs h.1
    have rest := ih first.1 (fun y hy => hf y (List.mem_cons_of_mem _ hy)) h.2
    have own : [x].findSome? write = write x := by cases hx : write x <;> simp [hx]
    rw [forEach_cons, andThen_state h.1, rest, first.2, List.reverse_cons, List.findSome?_append, own,
      Option.or_assoc]

theorem forEach_again {Q : α → σ → Prop} {f : α → σ → Outcome σ} {xs : List α} {s : σ}
    (steady : ∀ x ∈ xs, ∀ s, (f x s).failure ≠ none → (f x s).state = s)
    (settle : ∀ x ∈ xs, ∀ s, (f x s).failure = none → Q x (f x s).state)
    (keep : ∀ x y s, Q x s → Q x (f y s).state) (idle : ∀ x s, Q x s → f x s = done s) :
    (forEach f xs (forEach f xs s).state).state = (forEach f xs s).state ∧
      (forEach f xs (forEach f xs s).state).failure = (forEach f xs s).failure := by
  induction xs generalizing s with
  | nil => exact ⟨rfl, rfl⟩
  | cons x xs ih =>
    by_cases hx : (f x s).failure = none
    · have rest := ih (s := (f x s).state) (fun y hy => steady y (List.mem_cons_of_mem _ hy))
        fun y hy => settle y (List.mem_cons_of_mem _ hy)
      have settled : Q x (forEach f xs (f x s).state).state :=
        forEach_keeps (settle x List.mem_cons_self s hx) fun y _ t ht => keep x y t ht
      rw [forEach_cons f x xs s, andThen_state hx, andThen_failure hx, forEach_cons, idle x _ settled,
        done_andThen]
      exact rest
    · rw [forEach_cons f x xs s, andThen_of_failed hx, steady x List.mem_cons_self s hx, forEach_cons,
        andThen_of_failed hx]
      exact ⟨steady x List.mem_cons_self s hx, rfl⟩

end Outcome

end StreetMap
