import StreetMap.Load
import StreetMap.Proofs.Store.Numbering
import StreetMap.Proofs.Store.WayLevel
import StreetMap.Standard

/-!
Loads from files.  A load that goes well is a run of operations, one for each document and the end of the
load, and how floors are numbered shows in its report and in the names of levels from tags alone.
-/

namespace StreetMap

namespace Load

open Store (apply history levelSources levelText?)

variable {c : Settings} {files : FileTree} {paths : List String}

def operations (documents : List Json) : List Store.Operation := documents.map .load ++ [.finish]

section Reports

variable [Limits]

theorem document_of_read {path : String} (text : String) {members : List (String × Json)}
    (content : readText (diskOf files) path = .ok text) (read : Json.read Limits.depth text = .ok (.object members)) :
    document files path = .ok (.object members) := by
  have parsed : parse text = .ok (.object members) := by rw [parse, read]
  have found : readDocument (diskOf files) path = .ok (.object members) := by
    rw [readDocument, content]
    exact parsed
  rw [document, found]

variable [Geometry]

section Operations

theorem addSource_ok {path : String} {s : Store} (ok : (addSource c files path s).failure = none) :
    ∃ source, document files path = .ok source ∧
      (addSource c files path s).state = (Store.loadDocument c source s).state ∧
      (Store.loadDocument c source s).failure = none := by
  change (Outcome.withValue s (document files path) fun source =>
    Store.loadDocument c source s).failure = none at ok
  change ∃ source, _ ∧ (Outcome.withValue s (document files path) fun source =>
    Store.loadDocument c source s).state = _ ∧ _
  cases hd : document files path with
  | error e =>
    rw [hd] at ok
    cases ok
  | ok source =>
    rw [hd] at ok
    exact ⟨source, rfl, rfl, ok⟩

theorem addSources_ok {s : Store} (ok : (Outcome.forEach (addSource c files) paths s).failure = none) :
    ∃ documents, paths.mapM (document files) = .ok documents ∧
      (Outcome.forEach (addSource c files) paths s).state =
        (Outcome.forEach (apply c) (documents.map .load) s).state ∧
      (Outcome.forEach (apply c) (documents.map .load) s).failure = none := by
  induction paths generalizing s with
  | nil => exact ⟨[], rfl, rfl, rfl⟩
  | cons path paths ih =>
    rw [Outcome.forEach_cons, Outcome.andThen_failure_eq_none] at ok
    obtain ⟨source, hd, loaded, first⟩ := addSource_ok ok.1
    obtain ⟨documents, hds, rest, last⟩ := ih ok.2
    refine ⟨source :: documents, ?_, ?_, ?_⟩
    · rw [mapM_cons_eq, hd, hds]
      rfl
    · rw [Outcome.forEach_cons, Outcome.andThen_state ok.1, rest, List.map_cons, Outcome.forEach_cons,
        Outcome.andThen_state (o := apply c (.load source) s) first, loaded]
      rfl
    · rw [List.map_cons, Outcome.forEach_cons, Outcome.andThen_failure (o := apply c (.load source) s) first]
      rw [loaded] at last
      exact last

theorem resolve_ok (ok : (resolve c files paths).failure = none) :
    ∃ documents, paths.mapM (document files) = .ok documents ∧
      (Outcome.forEach (apply c) (operations documents) Store.empty).failure = none ∧
      (resolve c files paths).state = Store.run c (operations documents) Store.empty := by
  rw [resolve] at ok ⊢
  by_cases none : paths.isEmpty = true
  · rw [if_pos none] at ok
    cases ok
  · rw [if_neg none, Outcome.andThen_failure_eq_none] at ok
    obtain ⟨documents, hds, state, loaded⟩ := addSources_ok ok.1
    have all : (Outcome.forEach (apply c) (operations documents) Store.empty).failure = .none := by
      rw [operations, Outcome.forEach_append, Outcome.andThen_failure loaded, Outcome.forEach_singleton]
      rw [state] at ok
      exact ok.2
    refine ⟨documents, hds, all, ?_⟩
    rw [if_neg none, Outcome.andThen_state ok.1, (Store.history_ok all).1, operations, Outcome.forEach_append,
      Outcome.andThen_state loaded, Outcome.forEach_singleton, state]
    rfl

theorem resolve_of_document {path : String} {source : Json} (found : document files path = .ok source) :
    resolve c files [path] =
      ((Outcome.saying .info ("Loading " ++ path) Store.empty).andThen (Store.loadDocument c source)).andThen
        (Store.finish c) := by
  rw [resolve, Outcome.forEach_singleton]
  simp only [addSource, found]
  rfl

theorem run_ok {r : Report} (h : (run c files paths).result = .ok r) :
    (resolve c files paths).failure = none ∧
      Report.ofStore c paths (resolve c files paths).state = .ok r := by
  rw [run, Logged.bind_result] at h
  obtain ⟨s, hs, h⟩ := bind_eq_ok.1 h
  rw [Outcome.toLogged] at hs
  split at hs
  · cases hs
    rename_i failure
    refine ⟨failure, ?_⟩
    rw [Logged.bind_result] at h
    obtain ⟨r', hr, h⟩ := bind_eq_ok.1 h
    cases h
    exact hr
  · cases hs

end Operations

section Numbering

theorem ofStore_raised (s : Store) : Report.ofStore (c.numbered .us) paths s.raised =
    (Report.ofStore (c.numbered .literal) paths s).map fun r => { r with floorNumbering := .us } := by
  rw [Report.ofStore, Report.ofStore, show Report.areasInOrder s.raised = Report.areasInOrder s from rfl,
    show Report.featureOf s.raised = Report.featureOf s from rfl]
  cases (Report.areasInOrder s).mapM (Report.featureOf s) <;> rfl

/-- Loads that differ in the numbering of floors alone and both give reports give the same report but for
the numbering, and lead to the same store but for the names of levels from tags.  Where floors are not raised
these are as the tags have them; where they are, a name that reads as a number from zero up is one higher. -/
theorem numbering_shows_in_names {r r' : Report}
    (us : (run (c.numbered .us) files paths).result = .ok r)
    (literal : (run (c.numbered .literal) files paths).result = .ok r') :
    let s := (resolve (c.numbered .us) files paths).state
    let t := (resolve (c.numbered .literal) files paths).state
    r = { r' with floorNumbering := .us } ∧ r' = { r with floorNumbering := .literal } ∧
      s = { t with levels := t.levels.map fun row => (row.1, row.2.raised) } ∧
      ∃ documents, paths.mapM (document files) = .ok documents ∧
        ∀ k l, t.level? k = some l → l.source = .levelTag ∨ l.source = .layerTag →
          ∃ tags v, (k, tags) ∈ levelSources (history (c.numbered .literal) (documents.map .load) .empty) t ∧
            levelText? tags = some (v, l.source) ∧ l.shortName = (Level.Spec.ofText v).shortName ∧
              l.longName = (Level.Spec.ofText v).longName := by
  intro s t
  obtain ⟨ok, hr⟩ := run_ok us
  obtain ⟨ok', hr'⟩ := run_ok literal
  obtain ⟨documents, hds, all, hs⟩ := resolve_ok ok
  obtain ⟨_, hds', all', ht⟩ := resolve_ok ok'
  obtain rfl := Except.ok.inj (hds.symm.trans hds')
  have raised : s = t.raised := by
    change (resolve (c.numbered .us) files paths).state = (resolve (c.numbered .literal) files paths).state.raised
    rw [hs, ht]
    exact Store.run_raised all all'
  have reports : r = { r' with floorNumbering := .us } := by
    change Report.ofStore _ paths s = _ at hr
    rw [raised, ofStore_raised, hr'] at hr
    exact (Except.ok.inj hr).symm
  have numbering : r'.floorNumbering = .literal := by
    obtain ⟨areas, -, h⟩ := bind_eq_ok.1 hr'
    cases h
    rfl
  refine ⟨reports, ?_, raised, documents, hds, fun k l hl tag => ?_⟩
  · rw [reports, ← numbering]
  · change t = _ at ht
    rw [ht] at hl ⊢
    have other : l.source ≠ .levelMap := by
      intro ofMap
      rw [ofMap] at tag
      simp at tag
    obtain ⟨tags, own, given⟩ := Store.level_of_tags all' hl other
    obtain ⟨v, written⟩ := Store.tagLevel_written given tag
    exact ⟨tags, v, own, written⟩

end Numbering

end Reports

section Examples

open Standard

def lobby : Json :=
  .object [("elements", .list [.object [("type", .text "way"), ("id", .int 1),
    ("tags", .object [("highway", .text "footway"), ("level", .text "+0=Lobby")])]])]

def lobbyFiles : FileTree := [(["lobby.json"], .file (Text.Utf8.encode lobby.compact))]

theorem lobby_reads : document lobbyFiles "lobby.json" = .ok lobby :=
  document_of_read lobby.compact (by decide +kernel) (by with_unfolding_all rfl)

theorem lobby_resolves (c : Settings) : resolve c lobbyFiles ["lobby.json"] =
    ((Outcome.saying .info "Loading lobby.json" Store.empty).andThen (Store.loadDocument c lobby)).andThen
      (Store.finish c) :=
  resolve_of_document lobby_reads

theorem lobby_shows_numbering :
    let us := Settings.default.numbered .us
    let literal := Settings.default.numbered .literal
    let s := (resolve us lobbyFiles ["lobby.json"]).state
    let t := (resolve literal lobbyFiles ["lobby.json"]).state
    (∃ r r', (run us lobbyFiles ["lobby.json"]).result = .ok r ∧
      (run literal lobbyFiles ["lobby.json"]).result = .ok r' ∧
      r' = { r with floorNumbering := .literal }) ∧
    (t.level? ⟨.way, 1⟩).map (fun l => (l.shortName, l.longName)) = some ("0", "Lobby") ∧
    (s.level? ⟨.way, 1⟩).map (fun l => (l.shortName, l.longName)) = some ("1", "Lobby") := by
  intro us literal s t
  have reports (x : Except Failure Report) (good : x.toBool = true) : ∃ r, x = .ok r := by
    cases x with
    | error e => cases good
    | ok r => exact ⟨r, rfl⟩
  obtain ⟨r, hr⟩ := reports (run us lobbyFiles ["lobby.json"]).result (by
    rw [run, lobby_resolves]
    decide +kernel)
  obtain ⟨r', hr'⟩ := reports (run literal lobbyFiles ["lobby.json"]).result (by
    rw [run, lobby_resolves]
    decide +kernel)
  obtain ⟨-, same, names, -⟩ := numbering_shows_in_names hr hr'
  have shown : (t.level? ⟨.way, 1⟩).map (fun l => (l.shortName, l.longName)) = some ("0", "Lobby") := by
    change ((resolve literal lobbyFiles ["lobby.json"]).state.level? ⟨.way, 1⟩).map _ = _
    rw [lobby_resolves]
    decide +kernel
  refine ⟨⟨r, r', hr, hr', same⟩, shown, ?_⟩
  change s = _ at names
  rw [names]
  change ((Store.raised (resolve literal lobbyFiles ["lobby.json"]).state).level? ⟨.way, 1⟩).map _ = _
  rw [lobby_resolves]
  decide +kernel

end Examples

end Load

end StreetMap
