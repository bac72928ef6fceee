import Mathlib.Data.List.Nodup
import StreetMap.Table

/-!
More on tables.  A row with a new key comes last, one with its old value changes nothing, and a table
with each key once is read the same in any order of its rows.
-/

namespace StreetMap

namespace Table

variable {α β : Type} [DecidableEq α] {t u : Table α β} {x z : α} {y : β}

theorem has_iff_mem_keys : t.has x = true ↔ x ∈ t.keys := by
  induction t with
  | nil => simp [has, keys]
  | cons r t ih =>
    by_cases h : r.1 = x
    · simp [has, get?, keys, h]
    · have h' : ¬ x = r.1 := fun e => h e.symm
      simp only [has, keys] at ih
      simp [has, get?, keys, h, h', ih]

theorem has_of_get? (h : t.get? x = some y) : t.has x = true := by simp [has, h]

theorem get?_eq_none (h : t.has x = false) : t.get? x = none := by simpa [has] using h

theorem has_put : (t.put x y).has z = true ↔ z = x ∨ t.has z = true := by
  rw [has, get?_put, has]
  split <;> simp [*]

theorem has_put_of_has (h : t.has z = true) : (t.put x y).has z = true := has_put.2 (.inr h)

theorem has_append (t u : Table α β) (x : α) : has (t ++ u) x = (t.has x || u.has x) := by
  rw [Bool.eq_iff_iff, Bool.or_eq_true]
  simp only [has_iff_mem_keys, keys, List.map_append, List.mem_append]

@[simp] theorem has_nil (x : α) : has ([] : Table α β) x = false := rfl

@[simp] theorem has_singleton (z x : α) (y : β) : has [(z, y)] x = decide (z = x) := by
  by_cases h : z = x <;> simp [has, get?, h]

theorem put_of_new (h : t.has x = false) : t.put x y = t ++ [(x, y)] := by
  induction t with
  | nil => rfl
  | cons r t ih =>
    by_cases hr : r.1 = x
    · simp [has, get?, hr] at h
    · have ht : has t x = false := by simpa [has, get?, hr] using h
      simp [put, hr, ih ht]

theorem values_put_of_new (h : t.has x = false) : (t.put x y).values = t.values ++ [y] := by
  rw [put_of_new h, values, values, List.map_append]
  rfl

theorem put_of_get? (h : t.get? x = some y) : t.put x y = t := by
  induction t with
  | nil => cases h
  | cons r t ih =>
    obtain ⟨k, v⟩ := r
    by_cases hr : k = x
    · simp_all [get?, put]
    · simp_all [get?, put]

theorem nodup_keys_put (h : t.keys.Nodup) : (t.put x y).keys.Nodup := by
  rw [keys_put]
  split
  · exact h
  · exact h.append (List.nodup_singleton x) (List.disjoint_singleton.2 ‹_›)

theorem mem_of_get? (h : t.get? x = some y) : (x, y) ∈ t := by
  induction t with
  | nil => cases h
  | cons r t ih =>
    obtain ⟨k, v⟩ := r
    by_cases hr : k = x
    · simp only [get?, hr, if_pos, Option.some.injEq] at h
      rw [hr, h]
      exact List.mem_cons_self
    · simp only [get?, hr, if_false] at h
      exact List.mem_cons_of_mem _ (ih h)

theorem get?_of_mem (hn : t.keys.Nodup) (h : (x, y) ∈ t) : t.get? x = some y := by
  induction t with
  | nil => cases h
  | cons r t ih =>
    have hn' := List.nodup_cons.1 hn
    cases h with
    | head => simp [get?]
    | tail _ h =>
      have hr : ¬ r.1 = x := fun e => hn'.1 (e ▸ List.mem_map_of_mem h)
      simp only [get?, hr, if_false]
      exact ih hn'.2 h

theorem get?_eq_some (hn : t.keys.Nodup) : t.get? x = some y ↔ (x, y) ∈ t :=
  ⟨mem_of_get?, get?_of_mem hn⟩

theorem get?_perm (hp : t.Perm u) (hn : t.keys.Nodup) (x : α) : t.get? x = u.get? x := by
  have hu : u.keys.Nodup := (hp.map Prod.fst).nodup_iff.1 hn
  apply Option.ext
  intro y
  rw [get?_eq_some hn, get?_eq_some hu, hp.mem_iff]

theorem get?_of_prefix (hp : t <+: u) (h : t.get? x = some y) : u.get? x = some y := by
  obtain ⟨rows, rfl⟩ := hp
  induction t with
  | nil => cases h
  | cons r t ih =>
    obtain ⟨k, v⟩ := r
    by_cases hr : k = x
    · simpa [get?, hr] using h
    · simp only [get?, hr, if_false, List.cons_append] at h ⊢
      exact ih h

theorem get?_put_of_get? (new : t.has z = false) {v : β} (h : t.get? x = some y) :
    (t.put z v).get? x = some y := by
  rw [put_of_new new]
  exact get?_of_prefix (List.prefix_append t _) h

theorem mem_values_of_get? (h : t.get? x = some y) : y ∈ t.values := List.mem_map_of_mem (mem_of_get? h)

theorem mem_put {row : α × β} (h : row ∈ t.put x y) : row = (x, y) ∨ row ∈ t := by
  induction t with
  | nil => exact .inl (List.mem_singleton.1 h)
  | cons r t ih =>
    obtain ⟨k, v⟩ := r
    rw [put] at h
    split at h
    · rename_i same
      exact (List.mem_cons.1 h).imp (same ▸ ·) (List.mem_cons_of_mem _)
    · rcases List.mem_cons.1 h with rfl | h
      · exact .inr List.mem_cons_self
      · exact (ih h).imp_right (List.mem_cons_of_mem _)

theorem mem_values_put {v : β} (h : v ∈ (t.put x y).values) : v = y ∨ v ∈ t.values := by
  obtain ⟨row, hrow, rfl⟩ := List.mem_map.1 h
  exact (mem_put hrow).imp (congrArg Prod.snd) List.mem_map_of_mem

theorem get?_ofList (rows : List (α × β)) (x : α) :
    (ofList rows).get? x = ((rows.filter fun r => r.1 = x).getLast?).map Prod.snd := by
  suffices ∀ t : Table α β, (rows.foldl (fun t r => t.put r.1 r.2) t).get? x =
      (((rows.filter fun r => r.1 = x).getLast?).map Prod.snd).or (t.get? x) from
    (this []).trans Option.or_none
  induction rows with
  | nil => exact fun _ => rfl
  | cons r rows ih =>
    intro t
    rw [List.foldl_cons, ih, get?_put]
    by_cases hr : r.1 = x
    · rw [if_pos hr.symm, List.filter_cons_of_pos (by simpa using hr), List.getLast?_cons]
      cases List.getLast? _ <;> rfl
    · rw [if_neg (Ne.symm hr), List.filter_cons_of_neg (by simpa using hr)]

theorem keys_foldl_put (t : Table α β) (rows : List (α × β)) :
    (rows.foldl (fun t r => t.put r.1 r.2) t).keys = insertAll t.keys (rows.map Prod.fst) := by
  induction rows generalizing t with
  | nil => rfl
  | cons r rows ih => rw [List.foldl_cons, ih, keys_put]; rfl

theorem get?_mapValues {γ : Type} (f : β → γ) (t : Table α β) (x : α) :
    get? (t.map fun r => (r.1, f r.2)) x = (t.get? x).map f := by
  induction t with
  | nil => rfl
  | cons r t ih =>
    rw [List.map_cons, get?, get?]
    split
    · rfl
    · exact ih

theorem mapValues_put {γ : Type} (f : β → γ) (t : Table α β) (x : α) (y : β) :
    (t.put x y).map (fun r => (r.1, f r.2)) = put (t.map fun r => (r.1, f r.2)) x (f y) := by
  induction t with
  | nil => rfl
  | cons r t ih =>
    rw [List.map_cons, put, put]
    split
    · rfl
    · rw [List.map_cons, ih]

end Table

section Sets

variable {α : Type} [DecidableEq α] {xs ys : List α} {x : α}

theorem insertNew_of_mem (h : x ∈ xs) : insertNew xs x = xs := if_pos h

theorem nodup_insertNew (h : xs.Nodup) : (insertNew xs x).Nodup := by
  unfold insertNew
  split
  · exact h
  · exact h.append (List.nodup_singleton x) (List.disjoint_singleton.2 ‹_›)

theorem nodup_insertAll (h : xs.Nodup) : (insertAll xs ys).Nodup :=
  List.foldlRecOn ys insertNew h fun _ hzs _ _ => nodup_insertNew hzs

theorem insertAll_cons : insertAll xs (x :: ys) = insertAll (insertNew xs x) ys := rfl

theorem insertAll_append (xs ys zs : List α) :
    insertAll xs (ys ++ zs) = insertAll (insertAll xs ys) zs := List.foldl_append

theorem insertAll_of_subset (h : ∀ y ∈ ys, y ∈ xs) : insertAll xs ys = xs := by
  induction ys with
  | nil => rfl
  | cons y ys ih =>
    rw [insertAll_cons, insertNew_of_mem (h y List.mem_cons_self)]
    exact ih fun z hz => h z (List.mem_cons_of_mem _ hz)

theorem eraseDups_snoc (xs : List α) (x : α) : (xs ++ [x]).eraseDups = insertNew xs.eraseDups x := by
  rw [List.eraseDups_append, insertNew]
  by_cases known : x ∈ xs
  · rw [if_pos (List.mem_eraseDups.2 known)]
    simp [List.removeAll, known]
  · rw [if_neg fun h => known (List.mem_eraseDups.1 h)]
    simp [List.removeAll, known, List.eraseDups_cons]

theorem insertAll_eraseDups (xs ys : List α) : insertAll xs.eraseDups ys = (xs ++ ys).eraseDups := by
  induction ys generalizing xs with
  | nil => rw [List.append_nil]; rfl
  | cons y ys ih => rw [insertAll_cons, ← eraseDups_snoc, ih, List.append_cons xs y ys]

theorem eraseDups_ne_nil (h : xs ≠ []) : xs.eraseDups ≠ [] := by
  obtain ⟨x, xs, rfl⟩ := List.exists_cons_of_ne_nil h
  rw [List.eraseDups_cons]
  exact List.cons_ne_nil x _

theorem Table.keys_ofList {β : Type} (rows : List (α × β)) :
    (Table.ofList rows).keys = (rows.map Prod.fst).eraseDups :=
  (Table.keys_foldl_put [] rows).trans (insertAll_eraseDups [] _)

end Sets

end StreetMap
