import StreetMap.Proofs.Store.Interleaving
import StreetMap.Proofs.Text.Pieces
import StreetMap.Standard

/-!
Routes name the ways that they go over.  A tag for routes takes one value after another, each text once as
long as it does not have the separator in it: the tag then holds the values joined in the order in which
they first came, and is taken apart into just these.  A text with the separator in it is none of the pieces
of the tag that it has made, and is listed again by every route that has it.
-/

namespace StreetMap

/-- The settings for routes are texts, with a tag for names and another for references. -/
structure Settings.JoinsRoutes (c : Settings) (nameTag refTag separator : String) : Prop where
  names : c.routeNameTag = .text nameTag
  refs : c.routeRefTag = .text refTag
  differ : nameTag ≠ refTag
  joined : c.routeSeparator = .text separator

namespace Store

open Text (Unbordered split)

variable {c : Settings} {s t : Store} {k l : KeptRelation} {ks : List KeptRelation} {r : Relation} {id : Int}
  {nameTag refTag key tag v sep : String} {old : Option Json} {values : List Json} {ns : List String}

section Listing

def listed (sep : String) : Option Json → Json → Json
  | none, v => v
  | some .null, v => v
  | some (.text s), .text v => .text (if v ∈ split sep s then s else s ++ sep ++ v)
  | some old, _ => old

def listAll (sep : String) (values : List Json) (old : Option Json) : Option Json :=
  values.foldl (fun old v => some (listed sep old v)) old

theorem listAll_append (values values' : List Json) (old : Option Json) :
    listAll sep (values ++ values') old = listAll sep values' (listAll sep values old) := List.foldl_append

def Lists (sep : String) (old : Option Json) (v : String) : Prop := some (listed sep old (.text v)) = old

/-- Another value may be listed: there is none yet, or text. -/
inductive Listable : Option Json → Prop
  | absent : Listable none
  | null : Listable (some .null)
  | text (s : String) : Listable (some (.text s))

theorem joinUnique_text (full : sep ≠ "") (v existing : String) :
    joinUnique (.text sep) (.text v) existing =
      .ok (if v ∈ split sep existing then none else some (existing ++ sep ++ v)) := by
  have found : (split sep existing).any (Json.text v).isText = decide (v ∈ split sep existing) := by
    rw [Bool.eq_iff_iff, List.any_eq_true, decide_eq_true_iff]
    simp
  rw [joinUnique, piecesBy_of_text full]
  simp only [bind, Except.bind, pure, Except.pure, found, decide_eq_true_eq]
  split <;> rfl

theorem text_of_joinUnique {value : Json} {existing : String} {joined : Option String} (full : sep ≠ "")
    (h : joinUnique (.text sep) value existing = .ok joined) : ∃ v, value = .text v := by
  cases value with
  | text v => exact ⟨v, rfl⟩
  | _ =>
    rw [joinUnique, piecesBy_of_text full] at h
    simp [bind, Except.bind, Json.isText] at h
    exact fun v hv => by cases hv

theorem addToList_text {t : Tags} (full : sep ≠ "") (opened : Listable (t.get? (.text tag))) (v : String) :
    addToList (.text sep) (.text tag) (.text v) t =
      .ok (t.put (.text tag) (listed sep (t.get? (.text tag)) (.text v))) := by
  rw [addToList, TagKey.ofJson]
  simp only [bind, Except.bind, Tags.standing_text]
  generalize hold : t.get? (.text tag) = old at opened
  cases opened with
  | absent => rfl
  | null => rfl
  | text s =>
    dsimp only [Json.asText]
    rw [joinUnique_text full, listed]
    by_cases piece : v ∈ split sep s
    · rw [if_pos piece, if_pos piece, Table.put_of_get? hold]
      rfl
    · rw [if_neg piece, if_neg piece]
      rfl

theorem addToList_eq_ok {value : Json} {t u : Tags} (full : sep ≠ "")
    (h : addToList (.text sep) (.text tag) value t = .ok u) :
    u = t.put (.text tag) (listed sep (t.get? (.text tag)) value) := by
  have added := h
  rw [addToList, TagKey.ofJson] at h
  simp only [bind, Except.bind, Tags.standing_text] at h
  split at h
  · rename_i absent
    rw [absent]
    exact (Except.ok.inj h).symm
  · rename_i null
    rw [null]
    exact (Except.ok.inj h).symm
  · rename_i v _ hv
    obtain ⟨existing, hexisting, h⟩ := bind_eq_ok.1 h
    obtain rfl := Json.eq_text_of_asText hexisting
    obtain ⟨joined, hjoined, -⟩ := bind_eq_ok.1 h
    obtain ⟨v, rfl⟩ := text_of_joinUnique full hjoined
    rw [addToList_text full (hv ▸ .text existing)] at added
    exact (Except.ok.inj added).symm

theorem Lists.mem_split {s : String} (full : sep ≠ "") (h : Lists sep (some (.text s)) v) :
    v ∈ split sep s := by
  by_contra other
  rw [Lists, listed, if_neg other, Option.some.injEq, Json.text.injEq] at h
  have grown := congrArg String.length h
  rw [String.length_append, String.length_append] at grown
  exact full (String.length_eq_zero_iff.1 (by omega))

theorem lists_of_mem_split {s : String} (h : v ∈ split sep s) : Lists sep (some (.text s)) v := by
  rw [Lists, listed, if_pos h]

theorem Lists.again (h : Lists sep old v) (same : ∀ w ∈ values, w = .text v) :
    listAll sep values old = old := by
  rw [listAll]
  induction values with
  | nil => rfl
  | cons w values ih =>
    obtain ⟨rfl, rest⟩ := List.forall_mem_cons.1 same
    rw [List.foldl_cons, show some (listed sep old (.text v)) = old from h]
    exact ih rest

variable (unbordered : Unbordered sep.toList) (full : sep ≠ "")
include unbordered full

theorem split_joined (s v : String) : split sep (s ++ sep ++ v) = split sep s ++ split sep v :=
  Text.split_append unbordered (by simpa using full) s v

theorem Lists.listed (h : Lists sep old v) (w : Json) : Lists sep (some (listed sep old w)) v := by
  match old, w with
  | none, _ => cases h
  | some .null, _ => cases h
  | some (.text s), .text w =>
    rw [Store.listed]
    split
    · exact h
    · apply lists_of_mem_split
      rw [split_joined unbordered full]
      exact List.mem_append_left _ (h.mem_split full)
  | some (.text s), .null | some (.text s), .bool _ | some (.text s), .int _ | some (.text s), .float _
  | some (.text s), .list _ | some (.text s), .object _ => exact h
  | some (.bool _), _ | some (.int _), _ | some (.float _), _ | some (.list _), _
  | some (.object _), _ => rfl

theorem Lists.listAll (h : Lists sep old v) (values : List Json) :
    Lists sep (listAll sep values old) v :=
  List.foldlRecOn (motive := fun old => Lists sep old v) values _ h
    fun _ h w _ => h.listed unbordered full w

theorem lists_of_listed (absent : ¬ sep.toList <:+: v.toList) (old : Option Json) :
    Lists sep (some (Store.listed sep old (.text v))) v := by
  have own : v ∈ split sep v := by rw [Text.split_of_absent absent]; exact List.mem_singleton_self v
  match old with
  | none => exact lists_of_mem_split own
  | some .null => exact lists_of_mem_split own
  | some (.text s) =>
    rw [Store.listed]
    split
    · exact lists_of_mem_split ‹_›
    · apply lists_of_mem_split
      rw [split_joined unbordered full]
      exact List.mem_append_right _ own
  | some (.bool _) | some (.int _) | some (.float _) | some (.list _) | some (.object _) => rfl

theorem addToList_twice {t : Tags} (listable : Listable (t.get? tag)) (v : String) :
    ∃ u first, addToList (.text sep) (.text tag) (.text v) t = .ok u ∧ u.get? tag = some (.text first) ∧
      addToList (.text sep) (.text tag) (.text v) u =
        .ok (if Text.occursIn sep.toList v.toList then u.put tag (.text (first ++ sep ++ v)) else u) := by
  obtain ⟨first, hfirst⟩ : ∃ first, Store.listed sep (t.get? (.text tag)) (.text v) = .text first := by
    generalize t.get? (.text tag) = old at listable
    cases listable <;> exact ⟨_, rfl⟩
  have added := addToList_text full listable v
  rw [hfirst] at added
  have holds : (t.put (.text tag) (.text first)).get? (.text tag) = some (.text first) :=
    Table.get?_put_self t _ _
  have longer : Listable ((t.put (.text tag) (.text first)).get? (.text tag)) := by
    rw [holds]
    exact .text first
  have again := addToList_text full longer v
  rw [holds, Store.listed] at again
  refine ⟨_, first, added, holds, again.trans ?_⟩
  by_cases absent : sep.toList <:+: v.toList
  · have other : v ∉ split sep first := fun piece =>
      Text.absent_of_mem_split (by simpa using full) piece absent
    rw [if_neg other, if_pos ((Text.occursIn_iff _).2 absent)]
  · have lists := lists_of_listed unbordered full absent (t.get? (.text tag))
    rw [hfirst] at lists
    rw [if_pos (lists.mem_split full), if_neg (by rwa [Text.occursIn_iff]), Table.put_of_get? holds]

theorem listAll_texts (absent : ∀ n ∈ ns, ¬ sep.toList <:+: n.toList) :
    Store.listAll sep (ns.map .text) none =
      if ns = [] then none else some (.text (sep.intercalate ns.eraseDups)) := by
  induction ns using List.reverseRecOn with
  | nil => rfl
  | append_singleton ns n ih =>
    rw [List.forall_mem_append] at absent
    have more : ns ++ [n] ≠ [] := by simp
    rw [List.map_append, listAll_append, ih absent.1, if_neg more, eraseDups_snoc]
    by_cases first : ns = []
    · subst first
      simp [Store.listAll, Store.listed, insertNew]
    · have before : ns.eraseDups ≠ [] := eraseDups_ne_nil first
      have pieces : split sep (sep.intercalate ns.eraseDups) = ns.eraseDups :=
        Text.split_intercalate unbordered (by simpa using full) before
          fun t ht => absent.1 t (List.mem_eraseDups.1 ht)
      rw [if_neg first, insertNew]
      change some (Json.text (if n ∈ split sep (sep.intercalate ns.eraseDups) then _ else _)) = _
      rw [pieces]
      split
      · rfl
      · rw [String.intercalate_append_of_ne_nil before (List.cons_ne_nil n []), String.intercalate_singleton]

end Listing

section Ways

/-- A tag of a plain way. -/
def wayTag (s : Store) (id : Int) (tag : String) : Option Json := (s.ways.get? id).bind fun w => w.tags.get? tag

/-- The relation has the way as a way member. -/
def goesOver (id : Int) (k : KeptRelation) : Bool := k.relation.wayMembers.any fun m => m.ref = id

/-- The values that relations have for a way, in order. -/
def routeValues (ks : List KeptRelation) (key : String) (id : Int) : List Json :=
  (ks.filter (goesOver id)).filterMap fun k => k.relation.tags.get? key

def listings (r : Relation) (key : String) (id : Int) : List Json :=
  r.wayMembers.flatMap fun m => if m.ref = id then (r.tags.get? key).toList else []

theorem listOnWay_view {own : String} (tag : String) (joined : c.routeSeparator = .text sep)
    (full : sep ≠ "") {m : Int} (there : s.ways.has id = true)
    (ok : (listOnWay c r key (.text own) m s).failure = none) :
    (listOnWay c r key (.text own) m s).state.ways.has id = true ∧
      wayTag (listOnWay c r key (.text own) m s).state id tag =
        listAll sep (if own = tag ∧ m = id then (r.tags.get? key).toList else []) (wayTag s id tag) := by
  rw [listOnWay] at ok ⊢
  cases hv : r.tags.get? (.text key) with
  | none => exact ⟨there, by simp [listAll]⟩
  | some value =>
    cases hw : s.ways.get? m with
    | none =>
      have other : m ≠ id := by
        rintro rfl
        rw [Table.has, hw] at there
        cases there
      exact ⟨there, by simp [listAll, other]⟩
    | some w =>
      rw [hv, hw] at ok
      dsimp only at ok ⊢
      rw [joined] at ok ⊢
      cases hu : addToList (.text sep) (.text own) value w.tags with
      | error e =>
        rw [hu] at ok
        cases ok
      | ok u =>
        obtain rfl := addToList_eq_ok full hu
        refine ⟨Table.has_put_of_has there, ?_⟩
        simp only [Outcome.withValue_ok, Outcome.done_state, wayTag]
        by_cases here : m = id
        · subst here
          rw [Table.get?_put_self, hw]
          by_cases same : own = tag
          · subst same
            simp [listAll]
          · simp [listAll, same, Table.get?_put, Ne.symm same]
        · rw [Table.get?_put_of_ne _ _ (Ne.symm here)]
          simp [listAll, here]

def listMember (c : Settings) (r : Relation) (m : Member) (s : Store) : Outcome Store :=
  (listOnWay c r "name" c.routeNameTag m.ref s).andThen (listOnWay c r "ref" c.routeRefTag m.ref)

theorem applyRoute_eq (c : Settings) (r : Relation) :
    applyRoute c r = Outcome.forEach (listMember c r) r.wayMembers := rfl

variable (routes : c.JoinsRoutes nameTag refTag sep) (full : sep ≠ "")
  (listing : (key, tag) ∈ [("name", nameTag), ("ref", refTag)])
include routes full listing

theorem listMember_view {m : Member} (there : s.ways.has id = true)
    (ok : (listMember c r m s).failure = none) :
    (listMember c r m s).state.ways.has id = true ∧ wayTag (listMember c r m s).state id tag =
      listAll sep (if m.ref = id then (r.tags.get? key).toList else []) (wayTag s id tag) := by
  rw [listMember, routes.names, routes.refs] at ok ⊢
  rw [Outcome.andThen_failure_eq_none] at ok
  rw [Outcome.andThen_state ok.1]
  have first := listOnWay_view tag routes.joined full there ok.1
  have second := listOnWay_view tag routes.joined full first.1 ok.2
  refine ⟨second.1, ?_⟩
  rw [second.2, first.2, ← listAll_append]
  congr 1
  have differ := routes.differ
  simp only [List.mem_cons, Prod.mk.injEq, List.not_mem_nil, or_false] at listing
  rcases listing with ⟨rfl, rfl⟩ | ⟨rfl, rfl⟩
  · simp [Ne.symm differ]
  · simp [differ]

theorem applyRoute_view (there : s.ways.has id = true) (ok : (applyRoute c r s).failure = none) :
    (applyRoute c r s).state.ways.has id = true ∧
      wayTag (applyRoute c r s).state id tag = listAll sep (listings r key id) (wayTag s id tag) := by
  rw [applyRoute_eq] at ok ⊢
  have run := Outcome.forEach_view (P := fun t : Store => t.ways.has id = true) (g := (wayTag · id tag))
    (u := fun old m => listAll sep (if m.ref = id then (r.tags.get? key).toList else []) old) there
    (fun _ _ _ ht ok => listMember_view routes full listing ht ok) ok
  exact ⟨run.1, run.2.trans List.foldl_flatMap.symm⟩

variable [Limits]

theorem finish_view (there : s.ways.has id = true) (ok : (finish c s).failure = none) :
    wayTag (finish c s).state id tag =
      listAll sep ((ofKind .roadRoute s.relations.values).flatMap fun k => listings k.relation key id)
        (wayTag s id tag) := by
  obtain ⟨ok, state⟩ := finish_ok ok
  rw [state]
  change wayTag (Outcome.forEach (applyRelation c) s.relations.values s).state id tag = _
  have same : AgreeOn (· = .roadRoute) s s := .refl s
  have alone := forEach_ofKind same ok
  have ways : (Outcome.forEach (applyRelation c) (ofKind .roadRoute s.relations.values) s).state.ways =
    (Outcome.forEach (applyRelation c) s.relations.values s).state.ways := alone.2.parts .roadRoute rfl
  rw [wayTag, ← ways, ← wayTag]
  have run := Outcome.forEach_view (P := fun t : Store => t.ways.has id = true) (g := (wayTag · id tag))
    (u := fun old k => listAll sep (listings k.relation key id) old) there ?_ alone.1
  · exact run.2.trans List.foldl_flatMap.symm
  · intro k hk t ht ok
    have road : applyRelation c k = applyRoute c k.relation := by
      have kind : k.kind = .roadRoute := by simpa using (List.mem_filter.1 hk).2
      funext u
      rw [applyRelation, kind]
    rw [road] at ok ⊢
    exact applyRoute_view routes full listing ht ok

end Ways

section Routes

theorem eq_of_mem_listings {value : Json} (own : r.tags.get? key = some value) :
    ∀ w ∈ listings r key id, w = value := by
  intro w hw
  obtain ⟨m, -, hw⟩ := List.mem_flatMap.1 hw
  split at hw
  · rw [own] at hw
    exact List.mem_singleton.1 hw
  · cases hw

theorem mem_listings {value : Json} (crosses : goesOver id k = true)
    (own : k.relation.tags.get? key = some value) : value ∈ listings k.relation key id := by
  obtain ⟨m, hm, ref⟩ := List.any_eq_true.1 crosses
  refine List.mem_flatMap.2 ⟨m, hm, ?_⟩
  rw [if_pos (by simpa using ref), own]
  exact List.mem_singleton_self value

theorem listings_of_aside (aside : goesOver id k ≠ true) : listings k.relation key id = [] := by
  refine List.flatMap_eq_nil_iff.2 fun m hm => if_neg fun ref => aside ?_
  exact List.any_eq_true.2 ⟨m, hm, by simpa using ref⟩

theorem listings_of_unnamed (unnamed : r.tags.get? key = none) : listings r key id = [] := by
  refine List.flatMap_eq_nil_iff.2 fun m _ => ?_
  rw [unnamed]
  exact ite_self _

theorem routeValues_cons : routeValues (k :: ks) key id =
    (if goesOver id k then (k.relation.tags.get? key).toList else []) ++ routeValues ks key id := by
  rw [routeValues, List.filter_cons]
  split
  · rw [List.filterMap_cons]
    cases k.relation.tags.get? key <;> rfl
  · rfl

variable (unbordered : Unbordered sep.toList) (full : sep ≠ "")
include unbordered full

theorem lists_of_route (crosses : goesOver id k = true) (own : k.relation.tags.get? key = some (.text v))
    (absent : ¬ sep.toList <:+: v.toList) (old : Option Json) :
    listAll sep (listings k.relation key id) old = some (listed sep old (.text v)) ∧
      Lists sep (some (listed sep old (.text v))) v := by
  have lists := lists_of_listed unbordered full absent old
  refine ⟨?_, lists⟩
  have same : ∀ w ∈ listings k.relation key id, w = .text v := eq_of_mem_listings own
  cases values : listings k.relation key id with
  | nil =>
    have some_ := mem_listings crosses own
    rw [values] at some_
    cases some_
  | cons w values' =>
    rw [values] at same
    obtain ⟨rfl, rest⟩ := List.forall_mem_cons.1 same
    exact lists.again rest

theorem listAll_repeated (crosses : goesOver id k = true) (own : k.relation.tags.get? key = some (.text v))
    (again : l.relation.tags.get? key = some (.text v)) (absent : ¬ sep.toList <:+: v.toList)
    (between : List Json) (old : Option Json) :
    listAll sep (listings l.relation key id)
        (listAll sep between (listAll sep (listings k.relation key id) old)) =
      listAll sep between (listAll sep (listings k.relation key id) old) := by
  obtain ⟨values, lists⟩ := lists_of_route unbordered full crosses own absent old
  rw [values]
  exact (lists.listAll unbordered full between).again (eq_of_mem_listings again)

theorem listAll_listings
    (absent : ∀ v ∈ routeValues ks key id, ∃ n, v = .text n ∧ ¬ sep.toList <:+: n.toList) (old : Option Json) :
    listAll sep (ks.flatMap fun k => listings k.relation key id) old =
      listAll sep (routeValues ks key id) old := by
  induction ks generalizing old with
  | nil => rfl
  | cons k ks ih =>
    rw [routeValues_cons] at absent ⊢
    rw [List.flatMap_cons, listAll_append, listAll_append]
    obtain ⟨first, rest⟩ := List.forall_mem_append.1 absent
    rw [ih rest]
    congr 1
    split
    · rename_i crosses
      rw [if_pos crosses] at first
      cases own : k.relation.tags.get? key with
      | none =>
        rw [listings_of_unnamed own]
        rfl
      | some value =>
        rw [own] at first
        obtain ⟨v, rfl, plain⟩ := first value (List.mem_singleton_self value)
        exact (lists_of_route unbordered full crosses own plain old).1
    · rename_i aside
      rw [listings_of_aside aside]

end Routes

section Results

/-- The second store has one relation more, somewhere after another, and is the same otherwise. -/
structure AddsAfter (k l : KeptRelation) (s t : Store) : Prop where
  others : t = { s with relations := t.relations }
  relations : ∃ before between after, s.relations.values = before ++ k :: (between ++ after) ∧
    t.relations.values = before ++ k :: (between ++ l :: after)

theorem comma_unbordered : Unbordered ", ".toList := by decide

theorem default_joinsRoutes : Settings.default.JoinsRoutes "route:names" "route:refs" ", " :=
  ⟨rfl, rfl, by decide, rfl⟩

variable [Limits]

/-- A plain way without a tag for routes has, after the end of the load, the texts of the routes that go over
it, each where it first came, with a comma and a blank between them; and is without the tag if there are
none.  If no text has the separator in it, the tag is taken apart into just these texts. -/
theorem routes_joined_in_order (routes : c.JoinsRoutes nameTag refTag ", ")
    (listing : (key, tag) ∈ [("name", nameTag), ("ref", refTag)]) (there : s.ways.has id = true)
    (unlisted : wayTag s id tag = none) (ok : (finish c s).failure = none)
    (texts : routeValues (ofKind .roadRoute s.relations.values) key id = ns.map .text)
    (absent : ∀ n ∈ ns, Text.occursIn ", ".toList n.toList = false) :
    wayTag (finish c s).state id tag =
        (if ns = [] then none else some (.text (", ".intercalate ns.eraseDups))) ∧
      (ns ≠ [] → split ", " (", ".intercalate ns.eraseDups) = ns.eraseDups) := by
  simp only [Text.occursIn_eq_false] at absent
  have full : ", " ≠ "" := by decide
  constructor
  · rw [finish_view routes full listing there ok, unlisted, listAll_listings comma_unbordered full, texts,
      listAll_texts comma_unbordered full absent]
    rw [texts]
    intro v hv
    obtain ⟨n, hn, rfl⟩ := List.mem_map.1 hv
    exact ⟨n, rfl, absent n hn⟩
  · intro some_
    refine Text.split_intercalate comma_unbordered (by decide) ?_ fun n hn =>
      absent n (List.mem_eraseDups.1 hn)
    exact eraseDups_ne_nil some_

/-- A text without the separator in it is listed once, in a tag and by all routes that have it.  One with the
separator in it comes again each time that it is listed. -/
theorem listed_once_unless_joined (routes : c.JoinsRoutes nameTag refTag ", ")
    (listing : (key, tag) ∈ [("name", nameTag), ("ref", refTag)]) (v : String) :
    (∀ t : Tags, Listable (t.get? tag) → ∃ u first, addToList c.routeSeparator (.text tag) (.text v) t = .ok u ∧
      u.get? tag = some (.text first) ∧ addToList c.routeSeparator (.text tag) (.text v) u =
        .ok (if Text.occursIn ", ".toList v.toList then u.put tag (.text (first ++ ", " ++ v)) else u)) ∧
    (Text.occursIn ", ".toList v.toList = false → ∀ k l s t id, k.kind = .roadRoute → l.kind = .roadRoute →
      k.relation.tags.get? key = some (.text v) → l.relation.tags.get? key = some (.text v) →
      goesOver id k = true → AddsAfter k l s t → s.ways.has id = true →
      (finish c s).failure = none → (finish c t).failure = none →
      wayTag (finish c t).state id tag = wayTag (finish c s).state id tag) := by
  have full : ", " ≠ "" := by decide
  constructor
  · intro t listable
    rw [routes.joined]
    exact addToList_twice comma_unbordered full listable v
  · intro absent k l s t id hk hl own again crosses ⟨others, before, between, after, hs, ht⟩ there ok ok'
    rw [Text.occursIn_eq_false] at absent
    have same : wayTag t id tag = wayTag s id tag := by rw [others]; rfl
    have there' : t.ways.has id = true := by rw [others]; exact there
    rw [finish_view routes full listing there ok, finish_view routes full listing there' ok', same, hs, ht]
    simp only [ofKind, List.filter_append, List.filter_cons, hk, hl, decide_true, if_true,
      List.flatMap_append, List.flatMap_cons, listAll_append]
    rw [listAll_repeated comma_unbordered full crosses own again absent]

end Results

open Standard

def pathRoute (id : Int) (name : String) (times : Nat) : Relation :=
  ⟨id, List.replicate times ⟨.text "way", 10, .text ""⟩,
    [("type", .text "route"), ("route", .text "road"), ("name", .text name)]⟩

def towpath (rs : List Relation) : Store :=
  run .default (rs.map .addRelation ++ [.addWay ⟨10, [1, 2], [("highway", .text "footway")]⟩, .linesComplete,
    .pointsComplete]) empty

theorem towpath_joined_in_order :
    let s := towpath [pathRoute 301 "North," 2, pathRoute 302 " South" 1, pathRoute 303 "" 2,
      pathRoute 304 "North," 1]
    wayTag (finish .default s).state 10 "route:names" = some (.text "North,,  South, ") ∧
      split ", " "North,,  South, " = ["North,", " South", ""] := by
  intro s
  have there : s.ways.has 10 = true := by decide +kernel
  have unlisted : wayTag s 10 "route:names" = none := by decide +kernel
  have texts : routeValues (ofKind .roadRoute s.relations.values) "name" 10 =
      ["North,", " South", "", "North,"].map .text := rfl
  have joined := routes_joined_in_order default_joinsRoutes List.mem_cons_self there unlisted
    (by decide +kernel) texts (by decide)
  exact ⟨joined.1, joined.2 (List.cons_ne_nil _ _)⟩

theorem towpath_listed_once :
    let s := towpath [pathRoute 301 "North," 1, pathRoute 302 " South" 1]
    let t := towpath [pathRoute 301 "North," 1, pathRoute 302 " South" 1, pathRoute 303 "North," 1]
    Listable (Table.get? ([] : Tags) "route:names") ∧ Text.occursIn ", ".toList "North,".toList = false ∧
      (∃ u first, addToList (.text ", ") (.text "route:names") (.text "North,") [] = .ok u ∧
        u.get? "route:names" = some (.text first) ∧
        addToList (.text ", ") (.text "route:names") (.text "North,") u = .ok u) ∧
      AddsAfter ⟨pathRoute 301 "North," 1, .roadRoute⟩ ⟨pathRoute 303 "North," 1, .roadRoute⟩ s t ∧
      wayTag (finish .default t).state 10 "route:names" = wayTag (finish .default s).state 10 "route:names" := by
  intro s t
  have once := listed_once_unless_joined default_joinsRoutes List.mem_cons_self "North,"
  have absent : Text.occursIn ", ".toList "North,".toList = false := by decide
  have adds : AddsAfter ⟨pathRoute 301 "North," 1, .roadRoute⟩ ⟨pathRoute 303 "North," 1, .roadRoute⟩ s t :=
    ⟨rfl, [], [⟨pathRoute 302 " South" 1, .roadRoute⟩], [], rfl, rfl⟩
  refine ⟨.absent, absent, ?_, adds, ?_⟩
  · have twice := once.1 [] .absent
    simp only [absent, Bool.false_eq_true, if_false] at twice
    exact twice
  · exact once.2 absent _ _ s t 10 rfl rfl rfl rfl rfl adds (by decide +kernel) (by decide +kernel)
      (by decide +kernel)

theorem towpath_listed_again :
    let s := towpath [pathRoute 301 "Quay, North" 1]
    let t := towpath [pathRoute 301 "Quay, North" 1, pathRoute 302 "Quay, North" 1]
    AddsAfter ⟨pathRoute 301 "Quay, North" 1, .roadRoute⟩ ⟨pathRoute 302 "Quay, North" 1, .roadRoute⟩ s t ∧
      (finish .default s).failure = none ∧ (finish .default t).failure = none ∧
      wayTag (finish .default s).state 10 "route:names" = some (.text "Quay, North") ∧
      wayTag (finish .default t).state 10 "route:names" = some (.text "Quay, North, Quay, North") := by
  intro s t
  refine ⟨⟨rfl, [], [], [], rfl, rfl⟩, by decide +kernel, by decide +kernel, ?_, ?_⟩
  · rfl
  · rfl

end Store

end StreetMap
