import AffixRules.Pool.Aggregate
import AffixRules.Proofs.Pool.Log

/-! Registering an item and taking it off again. The affixes of a registration are new and stand under
the item's id, so taking the item off takes out these and what stood under its id before. -/
namespace AffixRules

variable {σ : Type} [Generator σ]

namespace Pool

/-- Two pools that answer every query alike. -/
structure SameAnswers (p q : Pool) : Prop where
  affix : ∀ i ∈ p.members, q.affix i = p.affix i
  select : ∀ c?, q.select c? = p.select c?
  forStat : ∀ c? stat, q.forStat c? stat = p.forStat c? stat
  withTag : ∀ tag, q.withTag tag = p.withTag tag
  fromSource : ∀ s, q.fromSource s = p.fromSource s
  size : q.size = p.size
  contains : ∀ i, q.contains i = p.contains i
  categorySum : ∀ context c? stat?,
    q.categorySum context c? stat? = p.categorySum context c? stat?
  categoryProduct : ∀ context c? stat?,
    q.categoryProduct context c? stat? = p.categoryProduct context c? stat?
  stat : ∀ context name base, q.stat context name base = p.stat context name base
  grantedActions : ∀ context, q.grantedActions context = p.grantedActions context
  grantedActionIds : ∀ context, q.grantedActionIds context = p.grantedActionIds context
  tagSum : ∀ context tag, q.tagSum context tag = p.tagSum context tag
  tagCount : ∀ context tag, q.tagCount context tag = p.tagCount context tag
  hasTagged : ∀ context tag, q.hasTagged context tag = p.hasTagged context tag

/-- Two pools with the same lists, of the same affixes. All answers are taken from these. -/
structure SameLists (p q : Pool) : Prop where
  members : q.members = p.members
  category : ∀ c, q.inCategory c = p.inCategory c
  source : ∀ s, q.fromSource s = p.fromSource s
  affix : ∀ i ∈ p.members, q.affix i = p.affix i
  filed : ∀ c, ∀ i ∈ p.inCategory c, i ∈ p.members

namespace SameLists

variable {p q : Pool}

theorem select (h : p.SameLists q) (c? : Option Category) : q.select c? = p.select c? := by
  rw [Pool.select, Pool.select, h.members, funext h.category]

theorem affix_of_mem_select (h : p.SameLists q) {c? : Option Category} {i : AffixId}
    (hi : i ∈ p.select c?) : q.affix i = p.affix i := by
  cases c? with
  | none => exact h.affix i hi
  | some c => exact h.affix i (h.filed c i hi)

theorem forStat (h : p.SameLists q) (c? : Option Category) (stat : Label) :
    q.forStat c? stat = p.forStat c? stat := by
  cases c? with
  | none => rfl
  | some c =>
    refine (congrArg (List.filter _) (h.category c)).trans (List.filter_congr fun i hi => ?_)
    rw [h.affix i (h.filed c i hi)]

theorem withTag (h : p.SameLists q) (tag : Label) : q.withTag tag = p.withTag tag := by
  refine (congrArg (List.filter _) h.members).trans (List.filter_congr fun i hi => ?_)
  rw [h.affix i hi]

theorem matching (h : p.SameLists q) (c? : Option Category) (stat? : Option Label) :
    q.matching c? stat? = p.matching c? stat? := by
  cases stat? with
  | none =>
    refine (congrArg (List.map _) (h.select c?)).trans (List.map_congr_left fun i hi => ?_)
    exact h.affix_of_mem_select hi
  | some stat =>
    refine (congrArg (List.map _) (h.forStat c? stat)).trans (List.map_congr_left fun i hi => ?_)
    cases c? with
    | none => cases hi
    | some c => exact h.affix i (h.filed c i (List.mem_filter.mp hi).1)

theorem taggedContributions (h : p.SameLists q) (context : Context) (tag : Label) :
    q.taggedContributions context tag = p.taggedContributions context tag := by
  refine congrArg (contributions context) ?_
  refine (congrArg (List.map _) (h.withTag tag)).trans (List.map_congr_left fun i hi => ?_)
  exact h.affix i (List.mem_filter.mp hi).1

theorem trans {r : Pool} (h : p.SameLists q) (h' : q.SameLists r) : p.SameLists r where
  members := h'.members.trans h.members
  category c := (h'.category c).trans (h.category c)
  source s := (h'.source s).trans (h.source s)
  affix i hi := (h'.affix i (h.members.symm ▸ hi)).trans (h.affix i hi)
  filed := h.filed

theorem sameAnswers (h : p.SameLists q) : p.SameAnswers q where
  affix := h.affix
  select := h.select
  forStat := h.forStat
  withTag := h.withTag
  fromSource := h.source
  size := congrArg List.length h.members
  contains i := by rw [contains, contains, h.members]
  categorySum context c? stat? := by rw [categorySum, categorySum, h.matching]
  categoryProduct context c? stat? := by rw [categoryProduct, categoryProduct, h.matching]
  stat context name base := by
    simp only [stat, categorySum, categoryProduct, h.matching]
  grantedActions context := by rw [grantedActions, grantedActions, h.matching]
  grantedActionIds context := by
    rw [grantedActionIds, grantedActionIds, grantedActions, grantedActions, h.matching]
  tagSum context tag := by rw [tagSum, tagSum, h.taggedContributions]
  tagCount context tag := by rw [tagCount, tagCount, h.taggedContributions]
  hasTagged context tag := by rw [hasTagged, hasTagged, tagCount, tagCount, h.taggedContributions]

end SameLists

/-- Each category has one place, and what stands there is known. -/
structure WellFiled (p : Pool) : Prop where
  keys : p.byCategory.keys.Nodup
  known : ∀ c, ∀ i ∈ p.inCategory c, i < p.affixes.next

variable {p q : Pool}

theorem inCategory_of_not_mem_keys {c : Category} (h : c ∉ p.byCategory.keys) :
    p.inCategory c = [] := by
  rw [inCategory, Entries.value?_eq_none_iff.mpr h]
  rfl

theorem mem_members_of_mem_inCategory (hkeys : p.byCategory.keys.Nodup) {c : Category} {i : AffixId}
    (hi : i ∈ p.inCategory c) : i ∈ p.members := by
  rw [members_eq hkeys, List.mem_flatMap]
  refine ⟨c, ?_, hi⟩
  by_contra hc
  simp [inCategory_of_not_mem_keys hc] at hi

/-- A pool that has further categories, all of them empty, has the same members. -/
theorem members_congr (hp : p.byCategory.keys.Nodup) (hq : q.byCategory.keys.Nodup)
    (hkeys : p.byCategory.keys <+: q.byCategory.keys)
    (hcategory : ∀ c, q.inCategory c = p.inCategory c) : q.members = p.members := by
  obtain ⟨more, hmore⟩ := hkeys
  have hempty : ∀ c ∈ more, p.inCategory c = [] := fun c hc =>
    inCategory_of_not_mem_keys fun hmem =>
      (List.nodup_append.mp (hmore ▸ hq)).2.2 c hmem c hc rfl
  rw [members_eq hp, members_eq hq, ← hmore, List.flatMap_append, funext hcategory,
    List.flatMap_eq_nil_iff.mpr hempty, List.append_nil]

theorem removeSource_keeps (p : Pool) (s : Label) :
    (p.removeSource s).2.byCategory.keys = p.byCategory.keys ∧
      (p.removeSource s).2.affixes = p.affixes := by
  obtain ⟨hkeys, -, haffixes⟩ :=
    foldl_dropMember_keeps (p.fromSource s) { p with bySource := p.bySource.without s }
  exact ⟨hkeys, haffixes⟩

namespace WellFiled

theorem empty (affixes : Store Affix) : WellFiled { affixes } := ⟨List.nodup_nil, by simp [inCategory]⟩

theorem members_known (h : p.WellFiled) : ∀ i ∈ p.members, i < p.affixes.next := by
  intro i hi
  rw [members_eq h.keys, List.mem_flatMap] at hi
  obtain ⟨c, -, hi⟩ := hi
  exact h.known c i hi

/-- A pool with fewer members and no further category. -/
theorem sublist (h : p.WellFiled) (hkeys : q.byCategory.keys = p.byCategory.keys)
    (hnext : q.affixes.next = p.affixes.next)
    (hcategory : ∀ c, (q.inCategory c).Sublist (p.inCategory c)) : q.WellFiled where
  keys := hkeys ▸ h.keys
  known c i hi := hnext ▸ h.known c i ((hcategory c).subset hi)

theorem add (h : p.WellFiled) {i : AffixId} (hi : i < p.affixes.next) (source? : Option Label) :
    (p.add i source?).WellFiled where
  keys := Entries.nodup_keys_put h.keys _ _
  known c j hj := by
    rw [inCategory_add, List.mem_append] at hj
    obtain hj | hj := hj
    · exact h.known c j hj
    · split at hj
      · exact List.mem_singleton.mp hj ▸ hi
      · cases hj

theorem introduce (h : p.WellFiled) (a : Affix) : (p.introduce a).2.WellFiled :=
  ⟨h.keys, fun c i hi => Nat.lt_succ_of_lt (h.known c i hi)⟩

theorem insert (h : p.WellFiled) (a : Affix) (source? : Option Label) :
    (p.insert a source?).2.WellFiled :=
  (h.introduce a).add (Nat.lt_succ_self p.affixes.next) source?

theorem insertAll (h : p.WellFiled) (source? : Option Label) (as : List Affix) :
    (p.insertAll source? as).2.WellFiled := by
  induction as generalizing p with
  | nil => exact h
  | cons a as ih => exact ih (h.insert a source?)

theorem remove (h : p.WellFiled) (i : AffixId) : (p.remove i).2.WellFiled := by
  by_cases hi : i ∈ p.inCategory (p.affix i).category
  · refine h.sublist (by simp [remove_of_mem hi]) (by rw [remove_of_mem hi]) fun c => ?_
    rw [inCategory_remove hi]
    split
    · exact List.erase_sublist
    · exact List.Sublist.refl _
  · rwa [remove_of_not_mem hi]

theorem removeSource (h : p.WellFiled) (s : Label) : (p.removeSource s).2.WellFiled := by
  obtain ⟨hkeys, haffixes⟩ := p.removeSource_keeps s
  refine h.sublist hkeys (congrArg Store.next haffixes) fun c => ?_
  rw [inCategory_removeSource]
  exact List.filter_sublist

/-- Two pools with the same lists, of which the second may have further categories. -/
theorem sameLists (hp : p.WellFiled) (hq : q.WellFiled)
    (hkeys : p.byCategory.keys <+: q.byCategory.keys)
    (hcategory : ∀ c, q.inCategory c = p.inCategory c)
    (hsource : ∀ s, q.fromSource s = p.fromSource s)
    (haffix : ∀ i < p.affixes.next, q.affix i = p.affix i) : p.SameLists q where
  members := members_congr hp.keys hq.keys hkeys hcategory
  category := hcategory
  source := hsource
  affix i hi := haffix i (hp.members_known i hi)
  filed _ _ hi := mem_members_of_mem_inCategory hp.keys hi

end WellFiled

theorem keys_prefix_insertAll (p : Pool) (source? : Option Label) (as : List Affix) :
    p.byCategory.keys <+: (p.insertAll source? as).2.byCategory.keys := by
  induction as generalizing p with
  | nil => exact List.prefix_refl _
  | cons a as ih =>
    refine List.IsPrefix.trans ?_ (ih (p.insert a source?).2)
    have hkeys := keys_add (p.introduce a).2 p.affixes.next source?
    change _ <+: ((p.introduce a).2.add p.affixes.next source?).byCategory.keys
    rw [hkeys]
    split
    · exact List.prefix_refl _
    · exact List.prefix_append _ _

/-- New affixes stand last, each under its category and all of them under their source. -/
theorem exists_new_of_insertAll (p : Pool) (source : Label) (as : List Affix) :
    ∃ new : List AffixId, (∀ i ∈ new, p.affixes.next ≤ i) ∧
      (∀ s, (p.insertAll (some source) as).2.fromSource s =
        p.fromSource s ++ if source = s then new else []) ∧
      ∀ c, (p.insertAll (some source) as).2.inCategory c = p.inCategory c ++
        new.filter fun i => ((p.insertAll (some source) as).2.affix i).category = c := by
  induction as generalizing p with
  | nil => exact ⟨[], by simp, by simp [insertAll], by simp [insertAll]⟩
  | cons a as ih =>
    let i := p.affixes.next
    let q := (p.insert a (some source)).2
    have hgains : p.Gains i a source q := p.gains_insert a source
    obtain ⟨new, hnew, hsource, hcategory⟩ := ih q
    have haffix : (q.insertAll (some source) as).2.affix i = a :=
      (affix_insertAll_of_lt q _ as (Nat.lt_succ_self i)).trans hgains.affix
    refine ⟨i :: new, ?_, fun s => ?_, fun c => ?_⟩
    · exact List.forall_mem_cons.mpr ⟨Nat.le_refl i, fun j hj => Nat.le_of_succ_le (hnew j hj)⟩
    · refine (hsource s).trans ?_
      rw [hgains.source]
      split <;> simp
    · refine (hcategory c).trans ?_
      change _ = _ ++ (i :: new).filter fun j =>
        ((q.insertAll (some source) as).2.affix j).category = c
      rw [hgains.category, List.filter_cons, haffix]
      by_cases hc : a.category = c <;> simp [hc]

/-- Registering an item before it is taken off makes no difference to what is left. -/
theorem WellFiled.sameLists_unregister_register (h : p.WellFiled) (item : Item) :
    (p.unregister item).2.SameLists ((p.register item).state.unregister item).2 := by
  let r := (p.insertAll (some item.id) item.affixes).2
  change (p.removeSource item.id).2.SameLists (r.removeSource item.id).2
  obtain ⟨new, hnew, hsource, hcategory⟩ := p.exists_new_of_insertAll item.id item.affixes
  have hr : r.WellFiled := h.insertAll (some item.id) item.affixes
  have hold : ∀ i < p.affixes.next, r.affix i = p.affix i := fun i hi =>
    affix_insertAll_of_lt p (some item.id) item.affixes hi
  obtain ⟨hkeys, haffixes⟩ := p.removeSource_keeps item.id
  obtain ⟨hkeysr, haffixesr⟩ := r.removeSource_keeps item.id
  have hheld : r.fromSource item.id = p.fromSource item.id ++ new := by
    rw [hsource, if_pos rfl]
  refine (h.removeSource item.id).sameLists (hr.removeSource item.id) ?_ (fun c => ?_)
    (fun s => ?_) fun i hi => ?_
  · exact hkeys ▸ hkeysr ▸ keys_prefix_insertAll p (some item.id) item.affixes
  · -- what was known stays or goes as before, and what is new goes
    have hgone : (new.filter fun i => (r.affix i).category = c).filter (fun j =>
        j ∉ r.fromSource item.id ∨ (r.affix j).category ≠ c) = [] := by
      rw [List.filter_eq_nil_iff]
      intro j hj
      obtain ⟨hj, hc⟩ := List.mem_filter.mp hj
      simp [hheld, hj, of_decide_eq_true hc]
    rw [inCategory_removeSource, inCategory_removeSource, hcategory, List.filter_append, hgone,
      List.append_nil]
    refine List.filter_congr fun j hj => ?_
    have hlt : j < p.affixes.next := h.known c j hj
    have hnot : j ∉ new := fun hmem => Nat.not_lt.mpr (hnew j hmem) hlt
    simp [hheld, hnot, hold j hlt]
  · rw [fromSource_removeSource, fromSource_removeSource, hsource]
    split
    · rfl
    · exact List.append_nil _
  · rw [affix, affix, haffixes, haffixesr]
    exact hold i (haffixes ▸ hi)

/-- Nothing is taken off where nothing stands under the id. -/
theorem WellFiled.sameLists_unregister (h : p.WellFiled) {item : Item}
    (hnone : p.fromSource item.id = []) : p.SameLists (p.unregister item).2 := by
  change p.SameLists (p.removeSource item.id).2
  obtain ⟨hkeys, haffixes⟩ := p.removeSource_keeps item.id
  refine h.sameLists (h.removeSource item.id) (hkeys ▸ List.prefix_refl _) (fun c => ?_)
    (fun s => ?_) fun i _ => ?_
  · rw [inCategory_removeSource, hnone, List.filter_eq_self.mpr (by simp)]
  · rw [fromSource_removeSource]
    split
    next hs => rw [← hs, hnone]
    · rfl
  · rw [affix, haffixes, affix]

namespace Edit

/-- Only known affixes are added, and none of them under a source. -/
def isPlain : Edit σ → Pool → Bool
  | add i source?, p => i < p.affixes.next && source?.isNone
  | _, _ => true

/-- The ids of the registered items after an edit. -/
def registers : Edit σ → List Label → List Label
  | register item, ids => item.id :: ids
  | unregister item, ids => ids.filter (· ≠ item.id)
  | removeSource source, ids => ids.filter (· ≠ source)
  | clear, _ => []
  | _, ids => ids

end Edit

def isPlain : Pool → List (Edit σ) → Bool
  | _, [] => true
  | p, e :: es => e.isPlain p && (e.apply p).isPlain es

/-- The ids of the items that a run has registered and not taken off again. -/
def registered (es : List (Edit σ)) : List Label := es.foldl (fun ids e => e.registers ids) []

/-- Nothing stands under a source but what registered items and grants brought. -/
structure Owned (p : Pool) (ids : List Label) : Prop extends p.WellFiled where
  source : ∀ s, s ∉ ids → s ≠ .text runSource → p.fromSource s = []

namespace Owned

variable {ids : List Label}

theorem empty (affixes : Store Affix) : Owned { affixes } [] :=
  ⟨WellFiled.empty affixes, fun _ _ _ => rfl⟩

theorem removeSource (h : p.Owned ids) (s : Label) :
    (p.removeSource s).2.Owned (ids.filter (· ≠ s)) where
  toWellFiled := h.toWellFiled.removeSource s
  source t ht hrun := by
    rw [fromSource_removeSource]
    split
    · rfl
    next hst =>
      have hids : t ∉ ids := by simpa [Ne.symm hst] using ht
      exact h.source t hids hrun

theorem remove (h : p.Owned ids) (i : AffixId) : (p.remove i).2.Owned ids where
  toWellFiled := h.toWellFiled.remove i
  source s hs hrun := by
    by_cases hi : i ∈ p.inCategory (p.affix i).category
    · rw [fromSource_remove hi, h.source s hs hrun]
      rfl
    · rw [remove_of_not_mem hi]
      exact h.source s hs hrun

theorem insertAll (h : p.Owned ids) {source : Label} (hids : source ∈ ids ∨ source = .text runSource)
    (as : List Affix) : (p.insertAll (some source) as).2.Owned ids where
  toWellFiled := h.toWellFiled.insertAll (some source) as
  source s hs hrun := by
    obtain ⟨new, -, hsource, -⟩ := p.exists_new_of_insertAll source as
    have hne : source ≠ s := by
      rintro rfl
      exact hids.elim hs hrun
    rw [hsource, h.source s hs hrun, if_neg hne]
    rfl

theorem register (h : p.Owned ids) (item : Item) :
    (p.register item).state.Owned (item.id :: ids) := by
  have hmore : p.Owned (item.id :: ids) :=
    ⟨h.toWellFiled, fun s hs => h.source s fun hmem => hs (List.mem_cons_of_mem _ hmem)⟩
  exact hmore.insertAll (.inl List.mem_cons_self) item.affixes

theorem apply (h : p.Owned ids) {e : Edit σ} (he : e.isPlain p = true) :
    (e.apply p).Owned (e.registers ids) := by
  cases e with
  | introduce a => exact ⟨h.toWellFiled.introduce a, h.source⟩
  | write i a => exact ⟨⟨h.keys, h.known⟩, h.source⟩
  | add i source? =>
    obtain ⟨hknown, hnone⟩ : i < p.affixes.next ∧ source? = none := by
      simpa [Edit.isPlain] using he
    subst hnone
    exact ⟨h.toWellFiled.add hknown none, h.source⟩
  | remove i => exact h.remove i
  | removeSource source => exact h.removeSource source
  | register item => exact h.register item
  | unregister item => exact h.removeSource item.id
  | grant template g =>
    simp only [Edit.apply, Edit.registers, grant]
    cases (template.rerolled g).answer with
    | ok a => exact h.insertAll (.inr rfl) [a]
    | error e => exact h
  | clear => exact .empty p.affixes

theorem after (h : p.Owned ids) {es : List (Edit σ)} (hes : p.isPlain es = true) :
    (p.after es).Owned (es.foldl (fun ids e => e.registers ids) ids) := by
  induction es generalizing p ids with
  | nil => exact h
  | cons e es ih =>
    obtain ⟨he, hes⟩ := (Bool.and_eq_true _ _).mp hes
    exact ih (h.apply he) hes

end Owned

end Pool

/-- After any run of edits that adds under no source but the ids of registered items and that of the
run, registering an item whose id no registered item has, and taking it off again, leaves what taking
it off at once leaves. Every answer is then as it was, unless the id is the source of the run and
something that was granted is still there. -/
theorem registration_leaves_no_trace {affixes : Store Affix} {es : List (Pool.Edit σ)}
    (hes : Pool.isPlain { affixes } es = true) {item : Item} (hnew : item.id ∉ Pool.registered es) :
    let p := Pool.after { affixes } es
    let q := ((p.register item).state.unregister item).2
    (p.unregister item).2.SameAnswers q ∧
      (p.SameAnswers q ↔ (item.id = .text Pool.runSource → p.fromSource item.id = [])) := by
  intro p q
  have h : p.Owned (Pool.registered es) := (Pool.Owned.empty affixes).after hes
  have hq : (p.unregister item).2.SameLists q := h.sameLists_unregister_register item
  refine ⟨hq.sameAnswers, fun hsame _ => ?_, fun hrun => ?_⟩
  · rw [← hsame.fromSource, hq.source, Pool.unregister, Pool.fromSource_removeSource, if_pos rfl]
  · have hnone : p.fromSource item.id = [] := by
      by_cases hid : item.id = .text Pool.runSource
      · exact hrun hid
      · exact h.source item.id hnew hid
    exact ((h.sameLists_unregister hnone).trans hq).sameAnswers

/-- A belt that was taken off before is put on and taken off again, beside a grant and an affix that
was added twice. -/
theorem registration_leaves_no_trace_beside_grant :
    let edge : Affix :=
      { name := "Edge", category := .statFlat, statName := "strength", effect := { value := 2 } }
    let ward : Affix := { name := "Ward", category := .defenseFlat, range? := some (1, 3) }
    let belt : Item := { serial := 0, id := "belt", name := "Belt", affixes := [ward, edge] }
    let es : List (Pool.Edit Script) :=
      [.introduce edge, .add 0 none, .grant ward { draws := [] }, .register belt, .remove 3,
        .unregister belt, .add 0 none]
    let p := Pool.after {} es
    let q := ((p.register belt).state.unregister belt).2
    Pool.isPlain {} es = true ∧ belt.id ∉ Pool.registered es ∧ p.SameAnswers q ∧
      q.select none = [0, 0, 1] ∧ q.fromSource "run" = [1] ∧ q.stat {} "strength" 1 = .ok 5 := by
  intro edge ward belt es p q
  have hes : Pool.isPlain {} es = true := by decide +kernel
  have hnew : belt.id ∉ Pool.registered es := by decide +kernel
  have hsame : p.SameAnswers q :=
    (registration_leaves_no_trace hes hnew).2.mpr fun hrun => absurd hrun (by decide +kernel)
  exact ⟨hes, hnew, hsame, (hsame.select none).trans (by decide +kernel),
    (hsame.fromSource "run").trans (by decide +kernel),
    (hsame.stat {} "strength" 1).trans (by decide +kernel)⟩

/-- An item whose id is the source of the run takes the grants along when it goes. -/
theorem item_named_like_run_takes_grants_along :
    let ward : Affix := { name := "Ward", category := .defenseFlat }
    let relic : Item := { serial := 0, id := Pool.runSource, name := "Relic", affixes := [ward] }
    let es : List (Pool.Edit Script) := [.grant ward { draws := [] }]
    let p := Pool.after {} es
    let q := ((p.register relic).state.unregister relic).2
    Pool.isPlain {} es = true ∧ relic.id ∉ Pool.registered es ∧ p.contains 0 = true ∧
      q.contains 0 = false ∧ ¬ p.SameAnswers q := by
  intro ward relic es p q
  have hbefore : p.contains 0 = true := by decide +kernel
  have hafter : q.contains 0 = false := by decide +kernel
  refine ⟨by decide +kernel, by decide +kernel, hbefore, hafter, fun hsame => ?_⟩
  have hkept : q.contains 0 = true := (hsame.contains 0).trans hbefore
  exact Bool.false_ne_true (hafter.symm.trans hkept)

end AffixRules
