/-!
Tables and sets that keep the order in which their keys came.  A key written again keeps its place and
takes the new value.
-/

namespace StreetMap

abbrev Table (α β : Type) := List (α × β)

namespace Table

variable {α β : Type} [DecidableEq α]

def get? : Table α β → α → Option β
  | [], _ => none
  | (k, v) :: t, x => if k = x then some v else get? t x

def has (t : Table α β) (x : α) : Bool := (t.get? x).isSome

def put : Table α β → α → β → Table α β
  | [], x, y => [(x, y)]
  | (k, v) :: t, x, y => if k = x then (k, y) :: t else (k, v) :: put t x y

def adjust (t : Table α β) (x : α) (f : Option β → β) : Table α β := t.put x (f (t.get? x))

def keys (t : Table α β) : List α := t.map Prod.fst

def values (t : Table α β) : List β := t.map Prod.snd

def ofList (rows : List (α × β)) : Table α β := rows.foldl (fun t (k, v) => t.put k v) []

@[simp] theorem get?_nil (x : α) : get? ([] : Table α β) x = none := rfl

@[simp] theorem get?_put_self (t : Table α β) (x : α) (y : β) : (t.put x y).get? x = some y := by
  induction t with
  | nil => simp [put, get?]
  | cons r t ih => by_cases h : r.1 = x <;> simp [put, get?, h, ih]

theorem get?_put_of_ne (t : Table α β) {x z : α} (y : β) (h : z ≠ x) :
    (t.put x y).get? z = t.get? z := by
  induction t with
  | nil => simp [put, get?, Ne.symm h]
  | cons r t ih =>
    by_cases hr : r.1 = x
    · have : ¬ r.1 = z := fun e => h (e.symm.trans hr)
      simp [put, get?, hr, Ne.symm h]
    · simp [put, get?, hr, ih]

theorem get?_put (t : Table α β) (x z : α) (y : β) :
    (t.put x y).get? z = if z = x then some y else t.get? z := by
  split
  · rename_i h; subst h; exact get?_put_self t z y
  · exact get?_put_of_ne t y ‹_›

theorem keys_put (t : Table α β) (x : α) (y : β) :
    (t.put x y).keys = if x ∈ t.keys then t.keys else t.keys ++ [x] := by
  induction t with
  | nil => simp [put, keys]
  | cons r t ih =>
    by_cases h : r.1 = x
    · simp [put, keys, h]
    · have h' : ¬ x = r.1 := fun e => h e.symm
      simp only [keys] at ih
      simp only [put, keys, h, if_false, List.map_cons, ih, List.mem_cons, h', false_or]
      by_cases hx : x ∈ List.map Prod.fst t <;> simp [hx]

end Table

/-- A list without repetition, with one more member at the end unless it is there already. -/
def insertNew {α : Type} [DecidableEq α] (xs : List α) (x : α) : List α :=
  if x ∈ xs then xs else xs ++ [x]

def insertAll {α : Type} [DecidableEq α] (xs ys : List α) : List α := ys.foldl insertNew xs

@[simp] theorem mem_insertNew {α : Type} [DecidableEq α] {xs : List α} {x y : α} :
    y ∈ insertNew xs x ↔ y ∈ xs ∨ y = x := by
  unfold insertNew
  split
  · rename_i h
    exact ⟨Or.inl, fun e => e.elim id (fun e => e ▸ h)⟩
  · simp

@[simp] theorem mem_insertAll {α : Type} [DecidableEq α] {xs ys : List α} {y : α} :
    y ∈ insertAll xs ys ↔ y ∈ xs ∨ y ∈ ys := by
  induction ys generalizing xs with
  | nil => simp [insertAll]
  | cons z ys ih =>
    have : insertAll xs (z :: ys) = insertAll (insertNew xs z) ys := rfl
    rw [this, ih, mem_insertNew, List.mem_cons, or_assoc]

end StreetMap
