import StreetMap.Anomaly
import StreetMap.Failure

/-!
What a computation says while it runs.  Lines written before a failure stay written.
-/

namespace StreetMap

inductive Note
  | line (severity : Severity) (text : String) | finding (a : Anomaly)
  deriving DecidableEq

namespace Note

def severity : Note → Severity
  | line s _ => s
  | finding a => a.kind.severity

def text : Note → String
  | line _ t => t
  | finding a => a.message

def anomaly? : Note → Option Anomaly
  | line _ _ => none
  | finding a => some a

end Note

abbrev Log := List Note

/-- A computation of a value: its log, and the value or why there is none. -/
structure Logged (α : Type) where
  log : Log
  result : Except Failure α

namespace Logged

def pure {α : Type} (x : α) : Logged α := ⟨[], .ok x⟩

def bind {α β : Type} (x : Logged α) (f : α → Logged β) : Logged β :=
  match x.result with
  | .ok a => ⟨x.log ++ (f a).log, (f a).result⟩
  | .error e => ⟨x.log, .error e⟩

instance : Monad Logged where
  pure := pure
  bind := bind

def say (severity : Severity) (text : String) : Logged Unit := ⟨[.line severity text], .ok ()⟩

def find (a : Anomaly) : Logged Unit := ⟨[.finding a], .ok ()⟩

def sayText (severity : Severity) (text : Except NumeralError String) : Logged Unit :=
  match text with
  | .ok t => say severity t
  | .error e => ⟨[], .error (.number e)⟩

def report (kind : AnomalyKind) (id : Int) (text : Except NumeralError String) : Logged Unit :=
  match text with
  | .ok t => find ⟨kind, id, t⟩
  | .error e => ⟨[], .error (.number e)⟩

def ofExcept {α : Type} (x : Except Failure α) : Logged α := ⟨[], x⟩

instance : MonadLift (Except Failure) Logged := ⟨ofExcept⟩

@[simp] theorem pure_bind {α β : Type} (a : α) (f : α → Logged β) : bind (pure a) f = f a := by
  simp [bind, pure]

@[simp] theorem bind_pure {α : Type} (x : Logged α) : bind x pure = x := by
  obtain ⟨l, r⟩ := x
  cases r <;> simp [bind, pure]

theorem bind_assoc {α β γ : Type} (x : Logged α) (f : α → Logged β) (g : β → Logged γ) :
    bind (bind x f) g = bind x fun a => bind (f a) g := by
  obtain ⟨l, r⟩ := x
  cases r with
  | error e => simp [bind]
  | ok a => cases h : (f a).result <;> simp [bind, h, List.append_assoc]

end Logged

/-- What an operation on a state leaves behind: the state as far as it came, its log, and why it
stopped, if it did. -/
structure Outcome (σ : Type) where
  state : σ
  log : Log
  failure : Option Failure

namespace Outcome

variable {σ : Type}

def done (s : σ) : Outcome σ := ⟨s, [], none⟩

def fail (s : σ) (e : Failure) : Outcome σ := ⟨s, [], some e⟩

/-- Go on from the state reached, unless the operation has failed. -/
def andThen (o : Outcome σ) (f : σ → Outcome σ) : Outcome σ :=
  match o.failure with
  | some _ => o
  | none => ⟨(f o.state).state, o.log ++ (f o.state).log, (f o.state).failure⟩

def withValue {α : Type} (s : σ) (x : Except Failure α) (f : α → Outcome σ) : Outcome σ :=
  match x with
  | .ok a => f a
  | .error e => fail s e

def saying (severity : Severity) (text : String) (s : σ) : Outcome σ :=
  ⟨s, [.line severity text], none⟩

/-- The steps for each member of a list in turn, up to the first that fails. -/
def forEach {α : Type} (f : α → σ → Outcome σ) : List α → σ → Outcome σ
  | [], s => done s
  | x :: xs, s => (f x s).andThen (forEach f xs)

def toLogged (o : Outcome σ) : Logged σ :=
  ⟨o.log, match o.failure with
    | none => .ok o.state
    | some e => .error e⟩

theorem andThen_keeps {P : σ → Prop} {o : Outcome σ} {f : σ → Outcome σ} (ho : P o.state)
    (hf : ∀ s, P s → P (f s).state) : P (o.andThen f).state := by
  unfold andThen
  split
  · exact ho
  · exact hf _ ho

theorem forEach_keeps {α : Type} {P : σ → Prop} {f : α → σ → Outcome σ} {xs : List α} {s : σ}
    (hs : P s) (hf : ∀ x ∈ xs, ∀ s, P s → P (f x s).state) : P (forEach f xs s).state := by
  induction xs generalizing s with
  | nil => exact hs
  | cons x xs ih =>
    exact andThen_keeps (hf x (by simp) s hs) fun s' h => ih h fun y hy => hf y (by simp [hy])

end Outcome

end StreetMap
