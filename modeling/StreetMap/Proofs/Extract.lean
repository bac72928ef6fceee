import StreetMap.Extract
import StreetMap.Proofs.Computation

/-!
A document element by element.  What an element yields does not depend on those before it, so an extract
holds what the elements yield one by one, and nothing else; reading finds no anomalies.
-/

namespace StreetMap.Extract

def append (x y : Extract) : Extract :=
  ⟨x.nodes ++ y.nodes, x.ways ++ y.ways, x.relations ++ y.relations⟩

@[simp] theorem append_empty (x : Extract) : x.append empty = x := by simp [append, empty]

@[simp] theorem empty_append (x : Extract) : empty.append x = x := by simp [append, empty]

def join (xs : List Extract) : Extract :=
  ⟨xs.flatMap nodes, xs.flatMap ways, xs.flatMap relations⟩

@[simp] theorem append_join_cons (x y : Extract) (ys : List Extract) :
    x.append (join (y :: ys)) = (x.append y).append (join ys) := by
  simp [append, join, List.append_assoc]

variable [Limits]

def ofElement (element : Json) : Except Failure Extract := (readElement empty element).result

theorem readNode_findings (element : Json) (ms : Table String Json) :
    (readNode element ms).findings = [] := by
  apply Logged.bind_findings_eq_nil rfl
  intro id
  split
  · apply Logged.bind_findings_eq_nil rfl
    intro lat
    apply Logged.bind_findings_eq_nil rfl
    intro lon
    exact Logged.bind_findings_eq_nil rfl fun _ => rfl
  · exact Logged.bind_findings_eq_nil (Logged.sayText_findings _ _) fun _ => rfl

theorem readElement_findings (x : Extract) (element : Json) : (readElement x element).findings = [] := by
  apply Logged.bind_findings_eq_nil rfl
  intro kind
  dsimp only
  split
  · exact Logged.bind_findings_eq_nil (readNode_findings _ _) fun _ => rfl
  · split
    · exact Logged.bind_findings_eq_nil rfl fun _ => rfl
    · split
      · exact Logged.bind_findings_eq_nil rfl fun _ => rfl
      · exact Logged.bind_findings_eq_nil (Logged.sayText_findings _ _) fun _ => rfl

theorem ofDocument_findings (document : Json) : (ofDocument document).findings = [] := by
  apply Logged.bind_findings_eq_nil rfl
  intro elements
  apply Logged.bind_findings_eq_nil rfl
  intro es
  exact Logged.foldlM_findings readElement_findings es empty

theorem readElement_result (x : Extract) (element : Json) :
    (readElement x element).result = (ofElement element).map x.append := by
  unfold ofElement readElement
  rw [Logged.bind_result, Logged.bind_result, Logged.lift_result]
  cases element.member? "type" with
  | error e => rfl
  | ok kind =>
    dsimp only [Except.bind]
    split
    · rw [Logged.bind_result, Logged.bind_result]
      cases (readNode element _).result with
      | error e => rfl
      | ok node => simp [Except.bind, Except.map, append, empty]
    · split
      · rw [Logged.bind_result, Logged.bind_result, Logged.lift_result]
        cases readWay element _ with
        | error e => rfl
        | ok way => simp [Except.bind, Except.map, append, empty]
      · split
        · rw [Logged.bind_result, Logged.bind_result, Logged.lift_result]
          cases readRelation element _ with
          | error e => rfl
          | ok relation => simp [Except.bind, Except.map, append, empty]
        · rw [Logged.bind_result, Logged.bind_result]
          cases (Logged.sayText _ _).result with
          | error e => rfl
          | ok u => simp [Except.bind, Except.map]

theorem foldlM_readElement (es : List Json) (x : Extract) :
    (es.foldlM readElement x).result = (es.mapM ofElement).map fun ys => x.append (join ys) := by
  induction es generalizing x with
  | nil => exact congrArg Except.ok (append_empty x).symm
  | cons e es ih =>
    rw [List.foldlM_cons, Logged.bind_result, readElement_result, mapM_cons_eq]
    cases ofElement e with
    | error err => rfl
    | ok y =>
      dsimp only [Except.map, Except.bind]
      rw [ih]
      cases es.mapM ofElement with
      | error err => rfl
      | ok ys => simp [Except.map]

def elements (document : Json) : Except Failure (List Json) := do
  ((← document.member? "elements").getD (.list [])).items

theorem ofDocument_result (document : Json) :
    (ofDocument document).result = (elements document).bind fun es => (es.mapM ofElement).map join := by
  unfold elements ofDocument
  rw [Logged.bind_result, Logged.lift_result]
  cases document.member? "elements" with
  | error e => rfl
  | ok v =>
    change Logged.result _ = Except.bind (v.getD (.list [])).items _
    rw [Logged.bind_result, Logged.lift_result]
    congr 1
    funext es
    rw [foldlM_readElement]
    simp

end StreetMap.Extract
