/-!
Rings of node ids, assembled from ways.  A closed way is a ring by itself; open ways are chained end to
end, each in either direction, until the chain comes back to its start.
-/

namespace StreetMap.Ring

abbrev Refs := List Int

def isClosed (w : Refs) : Bool := w.head? = w.getLast?

def takeFrom (tail : Int) : List Refs → Option (Refs × List Refs)
  | [] => none
  | w :: ws =>
    if w.head? = some tail then some (w, ws)
    else if w.getLast? = some tail then some (w.reverse, ws)
    else (takeFrom tail ws).map fun (next, rest) => (next, w :: rest)

theorem takeFrom_length {tail : Int} {ws rest : List Refs} {next : Refs}
    (h : takeFrom tail ws = some (next, rest)) : rest.length + 1 = ws.length := by
  induction ws generalizing rest with
  | nil => simp [takeFrom] at h
  | cons w ws ih =>
    simp only [takeFrom] at h
    split at h
    · simp_all
    · split at h
      · simp_all
      · obtain ⟨⟨n, r⟩, hr, heq⟩ := Option.map_eq_some_iff.1 h
        simp only [Prod.mk.injEq] at heq
        obtain ⟨rfl, rfl⟩ := heq
        simpa using ih hr

def close (chain : Refs) (ws : List Refs) : Option (Refs × List Refs) :=
  if isClosed chain then some (chain, ws)
  else
    match chain.getLast? with
    | none => none
    | some tail =>
      match _ : takeFrom tail ws with
      | none => none
      | some (next, rest) => close (chain ++ next.tail) rest
termination_by ws.length
decreasing_by
  rename_i h
  have := takeFrom_length h
  omega

theorem close_length {chain ring : Refs} {ws rest : List Refs}
    (h : close chain ws = some (ring, rest)) : rest.length ≤ ws.length := by
  fun_induction close chain ws with
  | case1 => simp_all
  | case2 => simp at h
  | case3 => simp at h
  | case4 chain ws _ tail _ next rest' heq ih =>
    have := takeFrom_length heq
    have := ih h
    omega

def chains : List Refs → Option (List Refs)
  | [] => some []
  | w :: ws =>
    match _ : close w ws with
    | none => none
    | some (ring, rest) => (chains rest).map (ring :: ·)
termination_by ws => ws.length
decreasing_by
  rename_i h
  have := close_length h
  simp only [List.length_cons]
  omega

def ends (ws : List Refs) : List Int := ws.flatMap fun w => w.head?.toList ++ w.getLast?.toList

def isBalanced (ws : List Refs) : Bool := (ends ws).all fun v => (ends ws).count v % 2 = 0

/-- Closed rings through all the ways, closed ways first; none if a way has fewer than two nodes or some
node ends an odd number of the open ways. -/
def assemble (ways : List Refs) : Option (List Refs) :=
  if ways.any fun w => w.length < 2 then none
  else
    let unclosed := ways.filter fun w => !isClosed w
    if isBalanced unclosed then (chains unclosed).map (ways.filter isClosed ++ ·) else none

end StreetMap.Ring
