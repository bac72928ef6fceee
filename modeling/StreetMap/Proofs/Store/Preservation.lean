import StreetMap.Proofs.Store.Interleaving
import StreetMap.Proofs.Store.SharedNodes
import StreetMap.Standard

/-!
What was ingested is not lost.  Nodes, area ways and relations stay as they came.  A plain way keeps its
nodes and its tags, and gets more tags in two ways: from multipolygons that make areas it takes those that
it lacks, and at the end of a load the tags for routes grow.
-/

namespace StreetMap

def Tags.Become (P : TagKey → Option Json → Json → Prop) (t u : Tags) : Prop :=
  ∀ key, u.get? key = t.get? key ∨ ∃ v, u.get? key = some v ∧ P key (t.get? key) v

def Composes (P : TagKey → Option Json → Json → Prop) : Prop :=
  ∀ ⦃key old v v'⦄, P key old v → P key (some v) v' → P key old v'

namespace Tags

variable {P Q : TagKey → Option Json → Json → Prop} {t u v : Tags}

theorem Become.refl (t : Tags) : t.Become P t := fun _ => .inl rfl

theorem Become.mono (h : t.Become P u) (hPQ : ∀ key old v, P key old v → Q key old v) : t.Become Q u :=
  fun key => (h key).imp_right fun ⟨v, hv, change⟩ => ⟨v, hv, hPQ key _ v change⟩

theorem Become.trans (hP : Composes P) (h : t.Become P u) (h' : u.Become P v) : t.Become P v := by
  intro key
  rcases h' key with same' | ⟨x', hx', change'⟩
  · rw [same']
    exact h key
  · refine .inr ⟨x', hx', ?_⟩
    rcases h key with same | ⟨x, hx, change⟩
    · exact same ▸ change'
    · exact hP change (hx ▸ change')

theorem Become.put {k : TagKey} {x : Json} (change : P k (t.get? k) x) : t.Become P (Table.put t k x) := by
  intro key
  rw [Table.get?_put]
  split
  · rename_i h
    exact .inr ⟨x, rfl, h ▸ change⟩
  · exact .inl rfl

theorem standing_same (t : Tags) (k : TagKey) : k.same (t.standing k) = true := by
  rw [standing]
  cases h : t.keys.find? k.same with
  | none => simp [TagKey.same]
  | some l => exact List.find?_some h

end Tags

namespace Store

variable {c : Settings} {s t u : Store} {op : Operation} {h : List Call}
  {P Q : Int → TagKey → Option Json → Json → Prop}

section Copying

inductive Carries (t : Tags) : TagKey → Json → Prop
  | tag {key : String} {v : Json} (named : key ∈ ["highway", "name", "ref"])
      (value : t.get? (.text key) = some v) : Carries t key v
  | platform {key : String} (named : key ∈ ["railway", "public_transport"])
      (value : t.get? (.text key) = some (.text "platform")) : Carries t key (.text "platform")

def carriedAt (source : Tags) (k : TagKey) : Option Json :=
  (copiedTags.findSome? fun key => if k = .text key then source.get? (.text key) else none).or
    (copiedPlatformTags.findSome? fun tag =>
      if k = .text tag.1 ∧ source.is tag.1 tag.2 = true then some (.text tag.2) else none)

theorem carriedAt_eq_some {source : Tags} {k : TagKey} {v : Json} :
    carriedAt source k = some v ↔ Carries source k v := by
  rw [carriedAt, Option.or_eq_some_iff]
  constructor
  · rintro (h | ⟨-, h⟩)
    · obtain ⟨key, named, h⟩ := List.exists_of_findSome?_eq_some h
      obtain ⟨rfl, value⟩ := Option.ite_none_right_eq_some.1 h
      exact .tag named value
    · obtain ⟨tag, named, h⟩ := List.exists_of_findSome?_eq_some h
      obtain ⟨⟨hk, is⟩, hv⟩ := Option.ite_none_right_eq_some.1 h
      rw [Tags.is_iff] at is
      rw [hk, ← Option.some.inj hv]
      simp only [copiedPlatformTags, List.mem_cons, List.not_mem_nil, or_false] at named
      rcases named with rfl | rfl
      · exact .platform (by simp) is
      · exact .platform (by simp) is
  · intro h
    cases h with
    | tag named value =>
      simp only [List.mem_cons, List.not_mem_nil, or_false] at named
      rcases named with rfl | rfl | rfl <;> simp [copiedTags, value]
    | platform named value =>
      simp only [List.mem_cons, List.not_mem_nil, or_false] at named
      rcases named with rfl | rfl <;> simp [copiedTags, copiedPlatformTags, Tags.is_iff, value]

theorem get?_foldl_fill {α : Type} {f : Tags → α → Tags} {p : α → TagKey → Option Json}
    (hf : ∀ t x k, (f t x).get? k = (t.get? k).or (p x k)) (xs : List α) (t : Tags) (k : TagKey) :
    (xs.foldl f t).get? k = (t.get? k).or (xs.findSome? fun x => p x k) := by
  induction xs generalizing t with
  | nil => rw [List.findSome?_nil, Option.or_none]; rfl
  | cons x xs ih =>
    rw [List.foldl_cons, ih, hf, Option.or_assoc, List.findSome?_cons]
    cases p x k <;> rfl

theorem get?_put_of_absent {t : Tags} {x : TagKey} (absent : Table.has t x = false) (y : Json) (k : TagKey) :
    (Table.put t x y).get? k = (t.get? k).or (if k = x then some y else none) := by
  rw [Table.get?_put]
  by_cases hk : k = x
  · rw [if_pos hk, if_pos hk, hk, Table.get?_eq_none absent, Option.none_or]
  · rw [if_neg hk, if_neg hk, Option.or_none]

theorem or_of_has {t : Tags} {x : TagKey} (has : Table.has t x = true) (y : Option Json) (k : TagKey) :
    (t.get? k).or (if k = x then y else none) = t.get? k := by
  by_cases hk : k = x
  · obtain ⟨v, hv⟩ := Option.isSome_iff_exists.1 has
    rw [hk, hv, Option.some_or]
  · rw [if_neg hk, Option.or_none]

theorem get?_copyTag (source t : Tags) (key : String) (k : TagKey) :
    (copyTag source t key).get? k =
      (t.get? k).or (if k = .text key then source.get? (.text key) else none) := by
  rw [copyTag]
  cases source.get? (.text key) with
  | none => rw [ite_self, Option.or_none]
  | some v =>
    dsimp only
    split
    · rename_i has
      exact (or_of_has has _ k).symm
    · rename_i absent
      exact get?_put_of_absent (by simpa [Tags.has] using absent) v k

theorem get?_copyPlatformTag (source t : Tags) (tag : String × String) (k : TagKey) :
    (copyPlatformTag source t tag).get? k = (t.get? k).or
      (if k = .text tag.1 ∧ source.is tag.1 tag.2 = true then some (.text tag.2) else none) := by
  rw [copyPlatformTag, ite_and]
  cases source.is tag.1 tag.2 with
  | false => simp
  | true =>
    rw [Bool.true_and, if_pos rfl]
    cases has : t.has tag.1 with
    | true => exact (or_of_has has _ k).symm
    | false => exact get?_put_of_absent has _ k

theorem get?_copyTags (source t : Tags) (k : TagKey) :
    (copyTags source t).get? k = (t.get? k).or (carriedAt source k) := by
  rw [copyTags, get?_foldl_fill (get?_copyPlatformTag source), get?_foldl_fill (get?_copyTag source),
    Option.or_assoc, carriedAt]

theorem copyTags_become (source t : Tags) :
    t.Become (fun key old v => old = none ∧ Carries source key v) (copyTags source t) := by
  intro key
  rw [get?_copyTags]
  cases t.get? key with
  | some v => exact .inl rfl
  | none =>
    cases carried : carriedAt source key with
    | none => exact .inl rfl
    | some v => exact .inr ⟨v, rfl, rfl, carriedAt_eq_some.1 carried⟩

end Copying

section Frame

def WaysBecome (P : Int → TagKey → Option Json → Json → Prop) (s t : Store) : Prop :=
  ∀ id w, s.ways.get? id = some w →
    ∃ tags, t.ways.get? id = some { w with tags } ∧ w.tags.Become (P id) tags

/-- All elements are still there as they were, but for changes of the tags of plain ways. -/
structure Preserves (P : Int → TagKey → Option Json → Json → Prop) (s t : Store) : Prop where
  nodes : ∀ id n, s.nodes.get? id = some n → t.nodes.get? id = some n
  areaWays : ∀ id w, s.areaWays.get? id = some w → t.areaWays.get? id = some w
  relations : ∀ id k, s.relations.get? id = some k → t.relations.get? id = some k
  ways : WaysBecome P s t

theorem WaysBecome.of_get? (h : ∀ id w, s.ways.get? id = some w → t.ways.get? id = some w) :
    WaysBecome P s t :=
  fun id w hw => ⟨w.tags, h id w hw, .refl _⟩

theorem WaysBecome.of_same (h : t.ways = s.ways) : WaysBecome P s t := .of_get? fun _ _ hw => h ▸ hw

theorem WaysBecome.mono (h : WaysBecome P s t) (hPQ : ∀ id key old v, P id key old v → Q id key old v) :
    WaysBecome Q s t := by
  intro id w hw
  obtain ⟨tags, ht, become⟩ := h id w hw
  exact ⟨tags, ht, become.mono (hPQ id)⟩

theorem WaysBecome.trans (hP : ∀ id, Composes (P id)) (h : WaysBecome P s t) (h' : WaysBecome P t u) :
    WaysBecome P s u := by
  intro id w hw
  obtain ⟨tags, ht, become⟩ := h id w hw
  obtain ⟨tags', hu, become'⟩ := h' id _ ht
  exact ⟨tags', hu, become.trans (hP id) become'⟩

theorem WaysBecome.put {id : Int} {w : Way} {tags : Tags} (hw : s.ways.get? id = some w)
    (become : w.tags.Become (P id) tags) :
    WaysBecome P s { s with ways := s.ways.put id { w with tags } } := by
  intro i v hv
  by_cases hi : i = id
  · subst hi
    obtain rfl : w = v := Option.some.inj (hw.symm.trans hv)
    exact ⟨tags, Table.get?_put_self _ _ _, become⟩
  · exact ⟨v.tags, (Table.get?_put_of_ne _ _ hi).trans hv, .refl _⟩

theorem Preserves.of_same (same : SameElements s t) (ways : WaysBecome P s t) : Preserves P s t :=
  ⟨fun _ _ h => same.nodes ▸ h, fun _ _ h => same.areaWays ▸ h, fun _ _ h => same.relations ▸ h, ways⟩

theorem Preserves.refl (s : Store) : Preserves P s s := .of_same (.refl s) (.of_same rfl)

theorem Preserves.mono (h : Preserves P s t) (hPQ : ∀ id key old v, P id key old v → Q id key old v) :
    Preserves Q s t :=
  { h with ways := h.ways.mono hPQ }

theorem Preserves.trans (hP : ∀ id, Composes (P id)) (h : Preserves P s t) (h' : Preserves P t u) :
    Preserves P s u :=
  ⟨fun id n hn => h'.nodes id n (h.nodes id n hn), fun id w hw => h'.areaWays id w (h.areaWays id w hw),
    fun id k hk => h'.relations id k (h.relations id k hk), h.ways.trans hP h'.ways⟩

theorem OnlyAdds.preserves (adds : OnlyAdds s t) : Preserves P s t where
  nodes := fun _ _ h => adds.nodes ▸ h
  areaWays := fun _ _ h => Table.get?_of_prefix adds.areaWays h
  relations := fun _ _ h => Table.get?_of_prefix adds.relations h
  ways := .of_get? fun _ _ h => Table.get?_of_prefix adds.ways h

end Frame

section Resolution

def PassesOn (r : Relation) (id : Int) (key : TagKey) (v : Json) : Prop :=
  (∃ m ∈ r.wayMembers, m.ref = id) ∧ Carries r.tags key v

theorem copyToMembers_ways (r : Relation) (s : Store) :
    WaysBecome (fun id key old v => old = none ∧ PassesOn r id key v) s (copyToMembers r s) := by
  refine List.foldlRecOn (motive := WaysBecome _ s) r.wayMembers _ (.of_same rfl) fun t ht m hm => ?_
  refine ht.trans (fun _ _ _ _ _ _ again => by cases again.1) ?_
  rw [retag]
  split
  · exact .of_same rfl
  · rename_i w hw
    exact .put hw ((copyTags_become r.tags w.tags).mono fun key old v copied =>
      ⟨copied.1, ⟨m, hm, rfl⟩, copied.2⟩)

variable [Limits] [Geometry]

def Copied (s t : Store) (id : Int) (key : TagKey) (old : Option Json) (v : Json) : Prop :=
  old = none ∧ ∃ k ∈ s.relations.values, MakesArea s t k ∧ PassesOn k.relation id key v

theorem copied_composes (s t : Store) (id : Int) : Composes (Copied s t id) :=
  fun _ _ _ _ _ again => by cases again.1

theorem resolveMultipolygon_ways (r : Relation) (s : Store) :
    WaysBecome (fun id key old v => old = none ∧ Constructs s r ∧ PassesOn r id key v) s
      (resolveMultipolygon c r s).state := by
  obtain ⟨constructs, a, -, hs⟩ | ⟨-, hs⟩ := resolveMultipolygon_cases c s r
  · rw [hs]
    apply Outcome.andThen_keeps
    · obtain ⟨as, placed⟩ := place_frame (c := c) (s := enclosed s r) a
      rw [placed]
      exact .of_same rfl
    · refine fun t ht => ht.trans (fun _ _ _ _ _ _ again => by cases again.1) ?_
      exact (copyToMembers_ways r t).mono fun id key old v copied =>
        ⟨copied.1, constructs, copied.2⟩
  · rw [hs]
    exact .of_same rfl

theorem MakesArea.mono {k : KeptRelation} (h : MakesArea s t k) (same : SameElements t u) : MakesArea s u k :=
  ⟨h.1, h.2.1, same.processed _ h.2.2.1, h.2.2.2⟩

theorem tryMultipolygon_copied {k : KeptRelation} (hk : k ∈ s.relations.values) (same : SameElements s t)
    (h : WaysBecome (Copied s t) s t) :
    WaysBecome (Copied s (tryMultipolygon c k t).state) s (tryMultipolygon c k t).state := by
  have step := same_of_chain AreaStep.same (tryMultipolygon_chain (c := c) (s := t) k)
  rcases tryMultipolygon_cases c k t with ⟨⟨kind, new⟩, ht⟩ | ⟨-, ht⟩
  · have marked := tryMultipolygon_processed (c := c) (s := t) k kind
    rw [ht] at step marked ⊢
    have before := h.mono fun id key old v ⟨absent, l, hl, makes, passes⟩ =>
      (⟨absent, l, hl, makes.mono step, passes⟩ : Copied s _ id key old v)
    refine before.trans (copied_composes s _) ((resolveMultipolygon_ways k.relation t).mono ?_)
    rintro id key old v ⟨absent, constructs, passes⟩
    have makes : MakesArea s (resolveMultipolygon c k.relation t).state k :=
      ⟨kind, fun seen => new (same.processed _ seen), marked, (same.constructs _).1 constructs⟩
    exact ⟨absent, k, hk, makes, passes⟩
  · rw [ht]
    exact h

theorem tryCandidate_ways (w : Way) (s : Store) : (tryCandidate c w s).state.ways = s.ways := by
  cases tryCandidate_trial c w s with
  | passed waits idle => rw [idle]; rfl
  | built new complete worth ends => rw [ends.2]
  | failed new complete worth failed state => rw [state]

theorem resolveAreas_copied (c : Settings) (s : Store) :
    WaysBecome (Copied s (resolveAreas c s).state) s (resolveAreas c s).state := by
  let P (t : Store) : Prop := SameElements s t ∧ WaysBecome (Copied s t) s t
  have multipolygon : ∀ k ∈ s.relations.values, ∀ t, P t → P (tryMultipolygon c k t).state := by
    rintro k hk t ⟨same, ways⟩
    exact ⟨same.trans (same_of_chain AreaStep.same (tryMultipolygon_chain k)),
      tryMultipolygon_copied hk same ways⟩
  have candidate (w : Way) : ∀ t, P t → P (tryCandidate c w t).state := by
    rintro t ⟨same, ways⟩
    have step := tryCandidate_same (c := c) (s := t) w
    have before := ways.mono fun id key old v ⟨absent, k, hk, makes, passes⟩ =>
      (⟨absent, k, hk, makes.mono step, passes⟩ : Copied s _ id key old v)
    exact ⟨same.trans step, before.trans (copied_composes s _) (.of_same (tryCandidate_ways w t))⟩
  have resolved : P (resolveAreas c s).state := by
    refine Outcome.andThen_keeps (P := P) (Outcome.forEach_keeps ⟨.refl s, .of_same rfl⟩ multipolygon) ?_
    exact fun t ht => Outcome.forEach_keeps ht fun w _ => candidate w
  exact resolved.2

theorem pointsComplete_preserves (c : Settings) (s : Store) :
    Preserves (Copied s (pointsComplete c s).state) s (pointsComplete c s).state :=
  pointsComplete_keeps (P := fun t => Preserves (Copied s t) s t) (.refl s)
    (.of_same resolveAreas_same (resolveAreas_copied c s)) fun _ ht => { ht with }

end Resolution

section Routes

inductive Lengthens : Option Json → Json → Prop
  | absent (v : Json) : Lengthens none v
  | null (v : Json) : Lengthens (some .null) v
  | text (a b : String) : Lengthens (some (.text a)) (.text (a ++ b))

theorem Lengthens.trans {old : Option Json} {v v' : Json} (h : Lengthens old v)
    (h' : Lengthens (some v) v') : Lengthens old v' := by
  cases h with
  | absent => exact .absent v'
  | null => exact .null v'
  | text a b =>
    cases h' with
    | text _ b' =>
      rw [String.append_assoc]
      exact .text a (b ++ b')

def IsRouteTag (c : Settings) (key : TagKey) : Prop :=
  ∃ tag ∈ [c.routeNameTag, c.routeRefTag], ∃ k, TagKey.ofJson tag = .ok k ∧ k.same key = true

theorem joinUnique_longer {separator value : Json} {existing joined : String}
    (h : joinUnique separator value existing = .ok (some joined)) : ∃ rest, joined = existing ++ rest := by
  obtain ⟨pieces, -, h⟩ := bind_eq_ok.1 h
  split at h
  · cases h
  · split at h
    · cases h
      exact ⟨_, String.append_assoc⟩
    · cases h
    · cases h

theorem addToList_become {separator tag value : Json} {t u : Tags}
    (h : addToList separator tag value t = .ok u) :
    t.Become (fun key old v => (∃ k, TagKey.ofJson tag = .ok k ∧ k.same key = true) ∧ Lengthens old v) u := by
  obtain ⟨k, hk, h⟩ := bind_eq_ok.1 h
  have route : ∃ l, TagKey.ofJson tag = .ok l ∧ l.same (t.standing k) = true := ⟨k, hk, t.standing_same k⟩
  dsimp only at h
  split at h
  · rename_i hv
    cases h
    exact .put ⟨route, by rw [hv]; exact .absent value⟩
  · rename_i hv
    cases h
    exact .put ⟨route, by rw [hv]; exact .null value⟩
  · rename_i v _ hv
    obtain ⟨existing, hexisting, h⟩ := bind_eq_ok.1 h
    obtain ⟨joined, hjoined, h⟩ := bind_eq_ok.1 h
    cases joined with
    | none =>
      cases h
      exact .refl t
    | some joined =>
      cases h
      obtain ⟨rest, rfl⟩ := joinUnique_longer hjoined
      rw [Json.eq_text_of_asText hexisting] at hv
      exact .put ⟨route, by rw [hv]; exact .text existing rest⟩

theorem listOnWay_ways {tag : Json} (route : tag ∈ [c.routeNameTag, c.routeRefTag]) (r : Relation)
    (key : String) (id : Int) (s : Store) :
    WaysBecome (fun _ key old v => IsRouteTag c key ∧ Lengthens old v) s (listOnWay c r key tag id s).state := by
  rw [listOnWay]
  split
  · rename_i value w _ hw
    cases hu : addToList c.routeSeparator tag value w.tags with
    | error e => exact .of_same rfl
    | ok u =>
      exact .put hw ((addToList_become hu).mono fun key old v become => ⟨⟨tag, route, become.1⟩, become.2⟩)
  · exact .of_same rfl

theorem listed_composes (c : Settings) : Composes fun key old v => IsRouteTag c key ∧ Lengthens old v :=
  fun _ _ _ _ first again => ⟨first.1, first.2.trans again.2⟩

variable [Limits]

theorem applyRelation_ways (k : KeptRelation) (s : Store) :
    WaysBecome (fun _ key old v => IsRouteTag c key ∧ Lengthens old v) s (applyRelation c k s).state := by
  by_cases route : k.kind = .roadRoute
  · rw [applyRelation, route]
    refine Outcome.forEach_keeps (.of_same rfl) fun m _ t ht => ?_
    refine Outcome.andThen_keeps (ht.trans (fun _ => listed_composes c) ?_) fun u hu =>
      hu.trans (fun _ => listed_composes c) ?_
    · exact listOnWay_ways (by simp) _ _ _ t
    · exact listOnWay_ways (by simp) _ _ _ u
  · have ways : SamePart .roadRoute s (applyRelation c k s).state := applyRelation_others route s
    exact .of_same ways

theorem finish_preserves (c : Settings) (s : Store) :
    Preserves (fun _ key old v => IsRouteTag c key ∧ Lengthens old v) s (finish c s).state := by
  have applied : WaysBecome (fun _ key old v => IsRouteTag c key ∧ Lengthens old v) s
      (applyRelations c s).state :=
    Outcome.forEach_keeps (.of_same rfl) fun k _ t ht =>
      ht.trans (fun _ => listed_composes c) (applyRelation_ways k t)
  exact finish_keeps (.refl s) (.of_same applyRelations_same applied) fun _ ht => { ht with }

end Routes

section Calls

variable [Limits] [Geometry]

/-- What calls may do to a tag of a plain way.  A way that lacks it gets it from a multipolygon of which one
of the calls makes an area, and at the end of the load routes are listed in their tags. -/
inductive Retags (c : Settings) (h : List Call) (id : Int) (key : TagKey) : Option Json → Json → Prop
  | copied {k : Call} {m : KeptRelation} {v : Json} (made : k ∈ h) (constructs : k.Constructs c m)
      (passes : PassesOn m.relation id key v) : Retags c h id key none v
  | listed {k : Call} {old : Option Json} {v : Json} (made : k ∈ h) (ends : k.op = .finish)
      (route : IsRouteTag c key) (longer : Lengthens old v) : Retags c h id key old v

theorem Retags.mono {g : List Call} {id : Int} {key : TagKey} {old : Option Json} {v : Json}
    (retags : Retags c g id key old v) (sub : g ⊆ h) : Retags c h id key old v := by
  cases retags with
  | copied made constructs passes => exact .copied (sub made) constructs passes
  | listed made ends route longer => exact .listed (sub made) ends route longer

theorem retags_composes (c : Settings) (h : List Call) (id : Int) : Composes (Retags c h id) := by
  intro key old v v' first again
  cases again with
  | listed made ends route longer =>
    cases first with
    | copied => exact .listed made ends route (.absent v')
    | listed _ _ _ before => exact .listed made ends route (before.trans longer)

theorem intake_preserves (single : op.IsCall) (points : op ≠ .pointsComplete) (ends : op ≠ .finish) :
    Preserves P s (apply c op s).state := by
  have step := call_step (c := c) (s := s) single
  generalize (apply c op s).state = t at step
  cases step with
  | refused => exact .refl s
  | rental => exact { Preserves.refl s with }
  | node opened plain wanted new =>
    exact { Preserves.refl s with nodes := fun _ _ hn => Table.get?_put_of_get? new hn }
  | passed => exact .refl s
  | way opened adds => exact { adds.preserves (P := P) with }
  | relation opened adds => exact { adds.preserves (P := P) with }
  | marked => exact { Preserves.refl s with }
  | resolving => exact absurd rfl points
  | resolved => exact absurd rfl points
  | concluding => exact absurd rfl ends
  | concluded => exact absurd rfl ends

theorem call_preserves (single : op.IsCall) : Preserves (Retags c [⟨op, s⟩]) s (apply c op s).state := by
  have own : (⟨op, s⟩ : Call) ∈ [(⟨op, s⟩ : Call)] := List.mem_singleton_self _
  by_cases points : op = .pointsComplete
  · subst points
    refine (pointsComplete_preserves c s).mono ?_
    rintro id key _ v ⟨rfl, m, hm, makes, passes⟩
    exact .copied own ⟨rfl, hm, makes⟩ passes
  · by_cases ends : op = .finish
    · subst ends
      exact (finish_preserves c s).mono fun _ _ _ _ listed => .listed own rfl listed.1 listed.2
    · exact intake_preserves single points ends

theorem Leads.preserves (hl : Leads c s h t) : Preserves (Retags c h) s t := by
  induction hl with
  | start => exact .refl s
  | @call h t op _ single ih =>
    have before := ih.mono fun _ _ _ _ retags => retags.mono (List.subset_append_left h [⟨op, t⟩])
    have last := (call_preserves (c := c) (s := t) single).mono fun _ _ _ _ retags =>
      retags.mono (List.subset_append_right h [⟨op, t⟩])
    exact before.trans (retags_composes c _) last

/-- No operation overwrites what was ingested.  Nodes, area ways and relations stay as they are, plain ways
keep their nodes, and the tags of plain ways change in two ways: a tag that is absent comes from a
multipolygon with the way as a member when its area is made, and at the end of a load tags for routes grow,
the old text staying at the front of the new one unless there was none. -/
theorem ingested_data_kept (op : Operation) (s : Store) :
    Preserves (Retags c (calls c op s)) s (apply c op s).state :=
  (leads_calls op).preserves

end Calls

open Standard

def unlisted : Json :=
  .object [("elements", .list [
    .object [("type", .text "way"), ("id", .int 10), ("nodes", .list [.int 1, .int 2]),
      ("tags", .object [("highway", .text "footway"), ("route:names", .null)])],
    .object [("type", .text "relation"), ("id", .int 302),
      ("members", .list [.object [("type", .text "way"), ("ref", .int 10), ("role", .text "")]]),
      ("tags", .object [("type", .text "route"), ("route", .text "road"), ("name", .text "Ring Road")])]])]

def routeNames (s : Store) (id : Int) : Option Json := (s.ways.get? id).bind fun w => w.tags.get? "route:names"

theorem unlisted_overwritten :
    let s := run .default [.load unlisted] empty
    Reachable .default s ∧ Settings.default.routeNameTag = .text "route:names" ∧
      routeNames s 10 = some .null ∧
      routeNames (apply .default .finish s).state 10 = some (.text "Ring Road") :=
  ⟨⟨_, rfl⟩, rfl, rfl, rfl⟩

end Store

end StreetMap
