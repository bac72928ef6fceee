import StreetMap.Extract
import StreetMap.Store.Relations

/-!
The operations on a store, as data, and runs of them.  A failed operation leaves the store as far as it
came, and the next one goes on from there.
-/

namespace StreetMap

namespace Store

variable [Limits] [Geometry]

/-- Relations and ways go first, so that the nodes to keep are known when nodes come. -/
def addExtract (c : Settings) (x : Extract) (s : Store) : Outcome Store :=
  ((((Outcome.forEach (addRelation c) x.relations s).andThen
    (Outcome.forEach (addWay c) x.ways)).andThen
    linesComplete).andThen
    (Outcome.forEach (addNode c) x.nodes)).andThen
    (pointsComplete c)

def loadExtract (c : Settings) (x : Extract) (s : Store) : Outcome Store :=
  (addExtract c x s).andThen (Outcome.saying .info ("Loaded " ++ toString x.nodes.length ++ " nodes, "
    ++ toString x.ways.length ++ " ways, " ++ toString x.relations.length ++ " relations"))

def loadDocument (c : Settings) (document : Json) (s : Store) : Outcome Store :=
  s.absorb (Extract.ofDocument document) (loadExtract c)

inductive Operation
  | addNode (n : Node) | addWay (w : Way) | addRelation (r : Relation)
  | linesComplete | pointsComplete | finish | load (document : Json)

def apply (c : Settings) : Operation → Store → Outcome Store
  | .addNode n => addNode c n
  | .addWay w => addWay c w
  | .addRelation r => addRelation c r
  | .linesComplete => linesComplete
  | .pointsComplete => pointsComplete c
  | .finish => finish c
  | .load document => loadDocument c document

/-- The store after a sequence of operations, failed ones included. -/
def run (c : Settings) (ops : List Operation) (s : Store) : Store :=
  ops.foldl (fun s op => (apply c op s).state) s

@[simp] theorem run_nil (c : Settings) (s : Store) : run c [] s = s := rfl

@[simp] theorem run_cons (c : Settings) (op : Operation) (ops : List Operation) (s : Store) :
    run c (op :: ops) s = run c ops (apply c op s).state := rfl

theorem run_append (c : Settings) (ops ops' : List Operation) (s : Store) :
    run c (ops ++ ops') s = run c ops' (run c ops s) := by
  simp [run]

def Reachable (c : Settings) (s : Store) : Prop := ∃ ops, s = run c ops empty

theorem Reachable.induction {c : Settings} {P : Store → Prop} {s : Store} (h : Reachable c s)
    (start : P empty) (step : ∀ op s, P s → P (apply c op s).state) : P s := by
  obtain ⟨ops, rfl⟩ := h
  suffices ∀ s, P s → P (run c ops s) from this _ start
  induction ops with
  | nil => intro s hs; exact hs
  | cons op ops ih => intro s hs; exact ih _ (step op s hs)

end Store

end StreetMap
