import StreetMap.Proofs.Ring

/-!
When ways make up rings.  Joining goes from state to state, a chain beside the ways that are left.  As long
as the ends of all these ways pair up at every node, a chain that is not closed finds a way to go on with;
so nothing but an end without its pair, or a way without two nodes, stands against the rings.
-/

namespace StreetMap.Ring

variable {ways ws rest rest' rings : List Refs} {chain w next : Refs} {tail v : Int}

/-- The ways that are no rings by themselves. -/
def openWays (ways : List Refs) : List Refs := ways.filter fun w => !isClosed w

/-- The number of open ways that a node ends. -/
def openWaysAt (v : Int) (ways : List Refs) : Nat :=
  (openWays ways).countP fun w => w.head? = some v || w.getLast? = some v

def degree (v : Int) (ws : List Refs) : Nat := (ends ws).count v

def Paired (ws : List Refs) : Prop := ∀ v, degree v ws % 2 = 0

section Degree

theorem degree_cons (v : Int) (w : Refs) (ws : List Refs) :
    degree v (w :: ws) =
      (if w.head? = some v then 1 else 0) + (if w.getLast? = some v then 1 else 0) + degree v ws := by
  have toList (o : Option Int) : o.toList.count v = if o = some v then 1 else 0 := by
    cases o <;> simp [List.count_singleton]
  rw [degree, ends, List.flatMap_cons, List.count_append, List.count_append, toList, toList]
  rfl

theorem degree_append (v : Int) (us ws : List Refs) :
    degree v (us ++ ws) = degree v us + degree v ws := by
  rw [degree, ends, List.flatMap_append, List.count_append]
  rfl

theorem degree_reverse (v : Int) (w : Refs) (ws : List Refs) :
    degree v (w.reverse :: ws) = degree v (w :: ws) := by
  rw [degree_cons, degree_cons, List.head?_reverse, List.getLast?_reverse]
  omega

theorem mem_openWays : w ∈ openWays ways ↔ w ∈ ways ∧ isClosed w = false := by
  simp [openWays]

theorem openWaysAt_eq (v : Int) (ways : List Refs) : openWaysAt v ways = degree v (openWays ways) := by
  have unclosed : ∀ w ∈ openWays ways, isClosed w = false := fun w hw => (mem_openWays.1 hw).2
  rw [openWaysAt]
  generalize openWays ways = ws at unclosed
  induction ws with
  | nil => rfl
  | cons w ws ih =>
    rw [List.forall_mem_cons] at unclosed
    have apart : ¬ (w.head? = some v ∧ w.getLast? = some v) := by
      rintro ⟨head, last⟩
      simp [isClosed, head, last] at unclosed
    rw [List.countP_cons, degree_cons, ih unclosed.2]
    by_cases head : w.head? = some v
    · have last : ¬ w.getLast? = some v := fun last => apart ⟨head, last⟩
      simp [head, last, Nat.add_comm]
    · by_cases last : w.getLast? = some v <;> simp [head, last, Nat.add_comm]

theorem isBalanced_iff : isBalanced ws = true ↔ Paired ws := by
  rw [isBalanced, List.all_eq_true]
  constructor
  · intro h v
    by_cases hv : v ∈ ends ws
    · exact of_decide_eq_true (h v hv)
    · rw [degree, List.count_eq_zero_of_not_mem hv]
  · exact fun h v _ => decide_eq_true (h v)

theorem paired_of_closed (closed : isClosed w = true) (h : Paired (w :: ws)) : Paired ws := by
  intro v
  have hv := h v
  rw [degree_cons, of_decide_eq_true closed] at hv
  omega

end Degree

section Taking

theorem takeFrom_eq_some (h : takeFrom tail ws = some (next, rest)) :
    ∃ pre w post, ws = pre ++ w :: post ∧ rest = pre ++ post ∧ next.head? = some tail ∧
      (next = w ∨ next = w.reverse) := by
  induction ws generalizing rest with
  | nil => cases h
  | cons w ws ih =>
    have head := head?_of_takeFrom h
    rw [takeFrom] at h
    split at h
    · cases h
      exact ⟨[], _, _, rfl, rfl, head, .inl rfl⟩
    · split at h
      · cases h
        exact ⟨[], _, _, rfl, rfl, head, .inr rfl⟩
      · obtain ⟨⟨next', rest'⟩, taken, pair⟩ := Option.map_eq_some_iff.1 h
        cases pair
        obtain ⟨pre, u, post, rfl, rfl, -, direction⟩ := ih taken
        exact ⟨w :: pre, u, post, rfl, rfl, head, direction⟩

theorem takeFrom_eq_none (h : takeFrom tail ws = none) : degree tail ws = 0 := by
  induction ws with
  | nil => rfl
  | cons w ws ih =>
    rw [takeFrom] at h
    split at h
    · cases h
    · split at h
      · cases h
      · rw [Option.map_eq_none_iff] at h
        simp [degree_cons, ih h, *]

theorem degree_takeFrom (h : takeFrom tail ws = some (next, rest)) (v : Int) :
    degree v ws = degree v (next :: rest) := by
  obtain ⟨pre, w, post, rfl, rfl, -, direction⟩ := takeFrom_eq_some h
  have turned : degree v (next :: (pre ++ post)) = degree v (w :: (pre ++ post)) := by
    obtain rfl | rfl := direction
    · rfl
    · exact degree_reverse v w _
  rw [turned, degree_append, degree_cons, degree_cons, degree_append]
  omega

theorem isClosed_reverse (w : Refs) : isClosed w.reverse = isClosed w := by
  simp only [isClosed, List.head?_reverse, List.getLast?_reverse, eq_comm]

theorem open_of_takeFrom (h : takeFrom tail ws = some (next, rest)) (unclosed : ∀ w ∈ ws, isClosed w = false) :
    isClosed next = false ∧ ∀ w ∈ rest, isClosed w = false := by
  obtain ⟨pre, w, post, rfl, rfl, -, direction⟩ := takeFrom_eq_some h
  simp only [List.forall_mem_append, List.forall_mem_cons] at unclosed ⊢
  refine ⟨?_, unclosed.1, unclosed.2.2⟩
  obtain rfl | rfl := direction
  · exact unclosed.2.1
  · rw [isClosed_reverse]
    exact unclosed.2.1

theorem getLast?_join (head : next.head? = some tail) (unclosed : isClosed next = false) :
    (chain ++ next.tail).getLast? = next.getLast? := by
  obtain ⟨others, rfl⟩ := List.head?_eq_some_iff.1 head
  cases others with
  | nil => simp [isClosed] at unclosed
  | cons id others =>
    rw [List.tail_cons, List.getLast?_append, List.getLast?_cons_cons, List.getLast?_cons, Option.some_or]

theorem head?_join (last : chain.getLast? = some tail) : (chain ++ next.tail).head? = chain.head? := by
  cases chain with
  | nil => cases last
  | cons id chain => rfl

theorem paired_join (last : chain.getLast? = some tail) (head : next.head? = some tail)
    (unclosed : isClosed next = false) (h : Paired (chain :: next :: rest)) :
    Paired ((chain ++ next.tail) :: rest) := by
  intro v
  have hv := h v
  rw [degree_cons, degree_cons, last, head] at hv
  rw [degree_cons, head?_join last, getLast?_join head unclosed]
  omega

end Taking

section Joining

/-- The states that the joining of ways goes through: the chain of the ring that is being made, and the ways
that are left. -/
inductive Joins (ws : List Refs) : Refs → List Refs → Prop
  | first {w : Refs} {rest : List Refs} (ways : ws = w :: rest) : Joins ws w rest
  | longer {chain next : Refs} {rest rest' : List Refs} {tail : Int} (joins : Joins ws chain rest)
      (unclosed : isClosed chain = false) (last : chain.getLast? = some tail)
      (taken : takeFrom tail rest = some (next, rest')) : Joins ws (chain ++ next.tail) rest'
  | again {ring w : Refs} {rest : List Refs} (joins : Joins ws ring (w :: rest))
      (closed : isClosed ring = true) : Joins ws w rest

/-- A chain that cannot be closed and has no way to go on with. -/
def Stuck (chain : Refs) (ws : List Refs) : Prop :=
  isClosed chain = false ∧ ∀ tail, chain.getLast? = some tail → takeFrom tail ws = none

structure Joinable (chain : Refs) (ws : List Refs) : Prop where
  unclosed : ∀ w ∈ ws, isClosed w = false
  paired : Paired (chain :: ws)

theorem Joinable.longer (h : Joinable chain ws) (last : chain.getLast? = some tail)
    (taken : takeFrom tail ws = some (next, rest)) : Joinable (chain ++ next.tail) rest := by
  have unclosed := open_of_takeFrom taken h.unclosed
  refine ⟨unclosed.2, paired_join last (head?_of_takeFrom taken) unclosed.1 fun v => ?_⟩
  rw [degree_cons, ← degree_takeFrom taken v, ← degree_cons]
  exact h.paired v

theorem Joinable.again (h : Joinable chain (w :: ws)) (closed : isClosed chain = true) : Joinable w ws :=
  ⟨(List.forall_mem_cons.1 h.unclosed).2, paired_of_closed closed h.paired⟩

theorem Joins.joinable (h : Joins ws chain rest) (unclosed : ∀ w ∈ ws, isClosed w = false)
    (paired : Paired ws) : Joinable chain rest := by
  induction h with
  | first ways =>
    subst ways
    exact ⟨(List.forall_mem_cons.1 unclosed).2, paired⟩
  | longer _ _ last taken ih => exact ih.longer last taken
  | again _ closed ih => exact ih.again closed

theorem Joinable.not_stuck (h : Joinable chain ws) : ¬ Stuck chain ws := by
  rintro ⟨unclosed, none⟩
  cases last : chain.getLast? with
  | none =>
    rw [List.getLast?_eq_none_iff] at last
    subst last
    cases unclosed
  | some tail =>
    have head : chain.head? ≠ some tail := by
      intro head
      simp [isClosed, head, last] at unclosed
    have ends := h.paired tail
    rw [degree_cons, if_neg head, if_pos last, takeFrom_eq_none (none tail last)] at ends
    cases ends

theorem close_stuck (h : close chain rest = none) (joins : Joins ws chain rest) :
    ∃ chain rest, Joins ws chain rest ∧ Stuck chain rest := by
  fun_induction close chain rest with
  | case1 => cases h
  | case2 chain rest unclosed last =>
    exact ⟨chain, rest, joins, by simpa using unclosed, by simp [last]⟩
  | case3 chain rest unclosed tail last none =>
    exact ⟨chain, rest, joins, by simpa using unclosed, by simp [last, none]⟩
  | case4 chain rest unclosed tail last next rest' taken ih =>
    exact ih h (joins.longer (by simpa using unclosed) last taken)

theorem close_joins (h : close chain rest = some (w, rest')) (joins : Joins ws chain rest) :
    Joins ws w rest' := by
  fun_induction close chain rest with
  | case1 => cases h; exact joins
  | case2 => cases h
  | case3 => cases h
  | case4 chain rest unclosed tail last next rest' taken ih =>
    exact ih h (joins.longer (by simpa using unclosed) last taken)

theorem chains_stuck (h : chains rest = none) (joins : ∀ w us, rest = w :: us → Joins ws w us) :
    ∃ chain rest, Joins ws chain rest ∧ Stuck chain rest := by
  fun_induction chains rest with
  | case1 => cases h
  | case2 w us unclosed => exact close_stuck unclosed (joins w us rfl)
  | case3 w us ring rest closed ih =>
    rw [Option.map_eq_none_iff] at h
    refine ih h ?_
    rintro u us' rfl
    exact .again (close_joins closed (joins w us rfl)) (isClosed_of_close closed)

end Joining

/-- Ways make up rings unless one has fewer than two nodes or some node ends an odd number of the open ones.
Once all ends pair up, joining is stuck in none of the states that it goes through. -/
theorem assemble_eq_none_iff (ways : List Refs) :
    (assemble ways = none ↔ (∃ w ∈ ways, w.length < 2) ∨ ∃ v, openWaysAt v ways % 2 = 1) ∧
    (isBalanced (openWays ways) = true →
      (∃ rings, chains (openWays ways) = some rings) ∧
      ∀ chain rest, Joins (openWays ways) chain rest → ¬ Stuck chain rest) := by
  have unstuck (paired : Paired (openWays ways)) {chain : Refs} {rest : List Refs}
      (joins : Joins (openWays ways) chain rest) : ¬ Stuck chain rest :=
    (joins.joinable (fun w hw => (mem_openWays.1 hw).2) paired).not_stuck
  have joined (paired : Paired (openWays ways)) : ∃ rings, chains (openWays ways) = some rings := by
    cases h : chains (openWays ways) with
    | some rings => exact ⟨rings, rfl⟩
    | none =>
      obtain ⟨chain, rest, joins, stuck⟩ := chains_stuck h fun w us hw => .first hw
      exact absurd stuck (unstuck paired joins)
  refine ⟨?_, fun balanced => ⟨joined (isBalanced_iff.1 balanced), fun chain rest => ?_⟩⟩
  · have short : (ways.any fun w => w.length < 2) = true ↔ ∃ w ∈ ways, w.length < 2 := by
      simp only [List.any_eq_true, decide_eq_true_eq]
    have odd : isBalanced (openWays ways) = false ↔ ∃ v, openWaysAt v ways % 2 = 1 := by
      simp only [← Bool.not_eq_true, isBalanced_iff, Paired, openWaysAt_eq, not_forall, Nat.mod_two_not_eq_zero]
    rw [← short, ← odd, assemble]
    change (if _ then none else if isBalanced (openWays ways) then _ else none) = none ↔ _
    split
    · rename_i short
      exact iff_of_true rfl (.inl short)
    · rename_i long
      cases balanced : isBalanced (openWays ways) with
      | false => exact iff_of_true rfl (.inr rfl)
      | true =>
        obtain ⟨rings, hrings⟩ := joined (isBalanced_iff.1 balanced)
        change (chains (openWays ways)).map _ = none ↔ _
        rw [hrings]
        exact iff_of_false (Option.some_ne_none _) (not_or.2 ⟨long, Bool.noConfusion⟩)
  · exact unstuck (isBalanced_iff.1 balanced)

def figureEight : List Refs := [[1, 2, 3], [5, 4, 3], [5, 6, 3], [1, 7, 3]]

theorem figureEight_joins :
    isBalanced (openWays figureEight) = true ∧
    (∃ rings, chains (openWays figureEight) = some rings) ∧
    (∀ chain rest, Joins (openWays figureEight) chain rest → ¬ Stuck chain rest) ∧
    assemble figureEight ≠ none := by
  have paired : isBalanced (openWays figureEight) = true := by decide
  obtain ⟨none_iff, joins⟩ := assemble_eq_none_iff figureEight
  refine ⟨paired, (joins paired).1, (joins paired).2, fun none => ?_⟩
  obtain ⟨w, hw, short⟩ | ⟨v, odd⟩ := none_iff.1 none
  · revert w
    decide
  · rw [openWaysAt_eq, isBalanced_iff.1 paired v] at odd
    cases odd

end StreetMap.Ring
