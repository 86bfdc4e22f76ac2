import AffixRules.Proofs.Pool.Lookup
import Mathlib.Data.List.Nodup

/-! A pool answers from one log. The log lists what was added and not taken out again, in the order
of the additions, each affix with the source it was added under; both groupings of the pool are
views of it. -/
namespace AffixRules

variable {σ : Type} [Generator σ]

theorem nodup_eraseDups {α : Type} [DecidableEq α] (as : List α) : as.eraseDups.Nodup := by
  induction h : as.length using Nat.strongRecOn generalizing as with
  | ind n ih =>
    cases as with
    | nil => exact List.nodup_nil
    | cons a as =>
      have hshort : (as.filter fun b => !b == a).length < n :=
        h ▸ Nat.lt_succ_of_le (List.length_filter_le _ as)
      rw [List.eraseDups_cons, List.nodup_cons]
      exact ⟨by simp, ih _ hshort _ rfl⟩

namespace Pool

/-- An affix and the source it was added under, if one was named. -/
structure Entry where
  affix : AffixId
  source? : Option Label

/-- The entries in the order of their additions, and the categories of all additions since the pool
was last emptied. -/
structure Log where
  entries : List Entry := []
  added : List Category := []

namespace Log

def ids (log : Log) : List AffixId := log.entries.map (·.affix)

/-- The affixes of the entries that pass a test. -/
def pick (log : Log) (test : Entry → Bool) : List AffixId := (log.entries.filter test).map (·.affix)

def inCategory (log : Log) (p : Pool) (c : Category) : List AffixId :=
  log.pick fun e => (p.affix e.affix).category = c

def fromSource (log : Log) (s : Label) : List AffixId := log.pick fun e => e.source? = some s

/-- The log with new affixes under one source. -/
def extend (log : Log) (source? : Option Label) (new : List (Affix × AffixId)) : Log where
  entries := log.entries ++ new.map fun (_, i) => ⟨i, source?⟩
  added := log.added ++ new.map fun (a, _) => a.category

/-- The log without the entries that fail a test. -/
def keep (log : Log) (test : Entry → Bool) : Log :=
  { log with entries := log.entries.filter test }

theorem extend_cons (log : Log) (source? : Option Label) (x : Affix × AffixId)
    (new : List (Affix × AffixId)) :
    log.extend source? (x :: new) = (log.extend source? [x]).extend source? new := by
  simp [extend]

theorem pick_extend (log : Log) (source? : Option Label) (a : Affix) (i : AffixId)
    (test : Entry → Bool) :
    (log.extend source? [(a, i)]).pick test =
      log.pick test ++ if test ⟨i, source?⟩ then [i] else [] := by
  cases h : test ⟨i, source?⟩ <;> simp [pick, extend, h]

/-- Keeping entries by what their affixes pass is keeping the affixes that pass it. -/
theorem pick_keep {log : Log} {keeps test : Entry → Bool} {r : AffixId → Bool}
    (h : ∀ e ∈ log.entries, keeps e = r e.affix) :
    (log.keep keeps).pick test = (log.pick test).filter r := by
  simp only [pick, keep]
  rw [List.filter_map, List.filter_comm]
  refine congrArg (List.map _) (List.filter_congr fun e he => ?_)
  exact h e (List.mem_filter.mp he).1

theorem mem_pick {log : Log} {test : Entry → Bool} {i : AffixId} :
    i ∈ log.pick test ↔ ∃ e ∈ log.entries, test e = true ∧ e.affix = i := by
  simp [pick, and_assoc]

/-- Where no affix is entered twice, it is found under a source only by its own entry. -/
theorem affix_mem_fromSource {log : Log} (hn : log.ids.Nodup) {e : Entry} (he : e ∈ log.entries)
    {s : Label} : e.affix ∈ log.fromSource s ↔ e.source? = some s := by
  rw [fromSource, mem_pick]
  constructor
  · rintro ⟨f, hf, hs, hid⟩
    rw [← List.inj_on_of_nodup_map hn hf he hid]
    simpa using hs
  · intro hs
    exact ⟨e, he, by simpa using hs, rfl⟩

theorem fromSource_keep_source (log : Log) (s t : Label) :
    (log.keep fun e => e.source? ≠ some s).fromSource t =
      if s = t then [] else log.fromSource t := by
  simp only [fromSource, pick, keep, List.filter_filter]
  split
  next hst =>
    subst hst
    simp
  next hst =>
    refine congrArg (List.map _) (List.filter_congr fun e _ => ?_)
    by_cases ht : e.source? = some t <;> simp [ht, Ne.symm hst]

theorem ids_keep_sublist (log : Log) (test : Entry → Bool) : (log.keep test).ids.Sublist log.ids :=
  List.filter_sublist.map _

end Log

/-- A pool whose groupings are views of a log. -/
structure Refines (p : Pool) (log : Log) : Prop where
  category : ∀ c, p.inCategory c = log.inCategory p c
  source : ∀ s, p.fromSource s = log.fromSource s
  keys : p.byCategory.keys = log.added.eraseDups
  added : ∀ e ∈ log.entries, (p.affix e.affix).category ∈ log.added
  known : ∀ e ∈ log.entries, e.affix < p.affixes.next
  distinct : log.ids.Nodup

namespace Refines

variable {p q : Pool} {log : Log}

theorem mem_inCategory (h : p.Refines log) {c : Category} {i : AffixId} :
    i ∈ p.inCategory c ↔ i ∈ log.ids ∧ (p.affix i).category = c := by
  rw [h.category, Log.inCategory, Log.mem_pick, Log.ids, List.mem_map]
  constructor
  · rintro ⟨e, he, hc, rfl⟩
    exact ⟨⟨e, he, rfl⟩, by simpa using hc⟩
  · rintro ⟨⟨e, he, rfl⟩, hc⟩
    exact ⟨e, he, by simpa using hc, rfl⟩

theorem filed (h : p.Refines log) : p.Filed := fun _ _ hi => (h.mem_inCategory.mp hi).2

theorem nodup_inCategory (h : p.Refines log) (c : Category) : (p.inCategory c).Nodup := by
  rw [h.category]
  exact h.distinct.sublist (List.filter_sublist.map _)

theorem empty (affixes : Store Affix) : Refines { affixes } {} where
  category _ := rfl
  source _ := rfl
  keys := rfl
  added := fun _ he => nomatch he
  known := fun _ he => nomatch he
  distinct := List.nodup_nil

/-- New affixes, and changes of known ones that leave the category, do not touch the log. -/
theorem congr (h : p.Refines log) (hcategory : q.byCategory = p.byCategory)
    (hsource : q.bySource = p.bySource) (hnext : p.affixes.next ≤ q.affixes.next)
    (hsame : ∀ i < p.affixes.next, (q.affix i).category = (p.affix i).category) :
    q.Refines log where
  category c := by
    have hq : q.inCategory c = p.inCategory c := by rw [inCategory, hcategory, inCategory]
    rw [hq, h.category]
    refine congrArg (List.map _) (List.filter_congr fun e he => ?_)
    rw [hsame e.affix (h.known e he)]
  source s := by rw [fromSource, hsource, ← h.source, fromSource]
  keys := by rw [hcategory, h.keys]
  added e he := hsame e.affix (h.known e he) ▸ h.added e he
  known e he := Nat.lt_of_lt_of_le (h.known e he) hnext
  distinct := h.distinct

theorem introduce (h : p.Refines log) (a : Affix) : (p.introduce a).2.Refines log := by
  refine h.congr rfl rfl (Nat.le_succ _) fun i hi => ?_
  have hne : p.affixes.next ≠ i := by omega
  simp [affix, Pool.introduce, hne]

theorem write (h : p.Refines log) {i : AffixId} {a : Affix}
    (ha : a.category = (p.affix i).category) :
    Refines { p with affixes := p.affixes.set i a } log := by
  refine h.congr rfl rfl (Nat.le_refl _) fun j _ => ?_
  by_cases hij : i = j
  · subst hij
    simpa [affix] using ha
  · simp [affix, hij]

theorem add (h : p.Refines log) {i : AffixId} (hi : i < p.affixes.next) (hnew : i ∉ log.ids)
    (source? : Option Label) :
    (p.add i source?).Refines (log.extend source? [(p.affix i, i)]) where
  category c := by
    rw [inCategory_add, h.category, Log.inCategory, Log.inCategory, Log.pick_extend]
    exact congrArg (_ ++ ·) (if_congr decide_eq_true_iff.symm rfl rfl)
  source s := by
    rw [fromSource_add, h.source, Log.fromSource, Log.fromSource, Log.pick_extend]
    simp
  keys := by
    rw [keys_add, h.keys]
    by_cases hc : (p.affix i).category ∈ log.added <;>
      simp [Log.extend, List.eraseDups_append, List.eraseDups_cons, List.removeAll, hc]
  added e he := by
    obtain he | he := List.mem_append.mp he
    · exact List.mem_append_left _ (h.added e he)
    · obtain rfl : e = ⟨i, source?⟩ := by simpa using he
      exact List.mem_append_right _ (List.mem_singleton_self _)
  known e he := by
    obtain he | he := List.mem_append.mp he
    · exact h.known e he
    · obtain rfl : e = ⟨i, source?⟩ := by simpa using he
      exact hi
  distinct := by
    have hids : (log.extend source? [(p.affix i, i)]).ids = log.ids ++ [i] := by
      simp [Log.ids, Log.extend]
    rw [hids, List.nodup_append_comm]
    exact List.nodup_cons.mpr ⟨hnew, h.distinct⟩

theorem insert (h : p.Refines log) (a : Affix) (source? : Option Label) :
    (p.insert a source?).2.Refines (log.extend source? [(a, p.affixes.next)]) := by
  have hself : (p.introduce a).2.affix p.affixes.next = a := by simp [affix, Pool.introduce]
  have hnew : p.affixes.next ∉ log.ids := by
    intro hmem
    obtain ⟨e, he, hid⟩ := List.mem_map.mp hmem
    exact Nat.ne_of_lt (h.known e he) hid
  have hadd := (h.introduce a).add (Nat.lt_succ_self p.affixes.next) hnew source?
  rwa [hself] at hadd

theorem insertAll (h : p.Refines log) (source? : Option Label) (as : List Affix) :
    (p.insertAll source? as).2.Refines (log.extend source? (as.zipIdx p.affixes.next)) := by
  induction as generalizing p log with
  | nil => simpa [Log.extend, Pool.insertAll] using h
  | cons a as ih =>
    rw [List.zipIdx_cons, Log.extend_cons]
    exact ih (h.insert a source?)

/-- Dropping members and their entries, from the categories and from each source. -/
theorem keep (h : p.Refines log) {keeps : Entry → Bool} {r : AffixId → Bool}
    (hr : ∀ e ∈ log.entries, keeps e = r e.affix)
    (hcategory : ∀ c, q.inCategory c = (p.inCategory c).filter r)
    (hsource : ∀ s, q.fromSource s = (log.keep keeps).fromSource s)
    (hkeys : q.byCategory.keys = p.byCategory.keys) (haffixes : q.affixes = p.affixes) :
    q.Refines (log.keep keeps) where
  category c := by
    have haffix : q.affix = p.affix := by funext i; rw [affix, haffixes, affix]
    rw [hcategory, h.category, Log.inCategory, Log.inCategory, Log.pick_keep hr, haffix]
  source := hsource
  keys := hkeys.trans h.keys
  added e he := by
    rw [affix, haffixes]
    exact h.added e (List.mem_filter.mp he).1
  known e he := haffixes ▸ h.known e (List.mem_filter.mp he).1
  distinct := h.distinct.sublist (log.ids_keep_sublist keeps)

theorem remove (h : p.Refines log) (i : AffixId) :
    (p.remove i).2.Refines (log.keep fun e => e.affix ≠ i) := by
  by_cases hi : i ∈ p.inCategory (p.affix i).category
  · have hremove := remove_of_mem hi
    refine h.keep (r := (· ≠ i)) (fun e _ => rfl) (fun c => ?_) (fun s => ?_)
      (by simp [hremove]) (by rw [hremove])
    · rw [inCategory_remove_of_nodup h.nodup_inCategory hi]
      simpa using h.filed.inCategory_foldl_dropMember [i] c
    · rw [fromSource_remove hi, h.source, Log.fromSource, Log.fromSource]
      exact (Log.pick_keep fun e _ => rfl).symm
  · have hall : ∀ e ∈ log.entries, e.affix ≠ i := by
      rintro e he rfl
      exact hi (h.mem_inCategory.mpr ⟨List.mem_map_of_mem he, rfl⟩)
    have hkeep : (log.keep fun e => e.affix ≠ i) = log := by
      simp only [Log.keep]
      rw [List.filter_eq_self.mpr (by simpa using hall)]
    rw [remove_of_not_mem hi, hkeep]
    exact h

theorem removeSource (h : p.Refines log) (s : Label) :
    (p.removeSource s).2.Refines (log.keep fun e => e.source? ≠ some s) := by
  obtain ⟨hkeys, -, haffixes⟩ :=
    foldl_dropMember_keeps (p.fromSource s) { p with bySource := p.bySource.without s }
  -- the fold drops affixes from the categories, the log drops entries by their source
  have hr : ∀ e ∈ log.entries,
      decide (e.source? ≠ some s) = decide (e.affix ∉ p.fromSource s) := by
    intro e he
    rw [decide_eq_decide, h.source, Log.affix_mem_fromSource h.distinct he]
  refine h.keep (r := fun i => i ∉ p.fromSource s) hr (fun c => ?_) (fun t => ?_) hkeys haffixes
  · exact Filed.inCategory_foldl_dropMember (p := { p with bySource := p.bySource.without s }) h.filed _ c
  · rw [Log.fromSource_keep_source, ← h.source]
    exact fromSource_removeSource p s t

theorem mem_members (h : p.Refines log) {i : AffixId} : i ∈ p.members ↔ i ∈ log.ids := by
  have hnodup : p.byCategory.keys.Nodup := h.keys ▸ nodup_eraseDups log.added
  rw [members_eq hnodup, List.mem_flatMap]
  constructor
  · rintro ⟨c, -, hi⟩
    exact (h.mem_inCategory.mp hi).1
  · intro hi
    obtain ⟨e, he, rfl⟩ := List.mem_map.mp hi
    have hadded := h.added e he
    exact ⟨_, by rw [h.keys, List.mem_eraseDups]; exact hadded,
      h.mem_inCategory.mpr ⟨hi, rfl⟩⟩

theorem nodup_members (h : p.Refines log) : p.members.Nodup := by
  have hnodup : p.byCategory.keys.Nodup := h.keys ▸ nodup_eraseDups log.added
  rw [members_eq hnodup, List.nodup_flatMap]
  refine ⟨fun c _ => h.nodup_inCategory c, hnodup.imp fun {c d} hcd i hc hd => ?_⟩
  exact hcd ((h.filed c i hc).symm.trans (h.filed d i hd))

/-- The members are the affixes of the log, in another order. -/
theorem members_perm (h : p.Refines log) : p.members.Perm log.ids :=
  (List.perm_ext_iff_of_nodup h.nodup_members h.distinct).mpr fun _ => h.mem_members

theorem remove_fst (h : p.Refines log) (i : AffixId) :
    (p.remove i).1 = true ↔ i ∈ log.ids := by
  by_cases hi : i ∈ p.inCategory (p.affix i).category
  · exact iff_of_true (by rw [remove_of_mem hi]) (h.mem_inCategory.mp hi).1
  · rw [remove_of_not_mem hi]
    exact iff_of_false Bool.false_ne_true fun hmem => hi (h.mem_inCategory.mpr ⟨hmem, rfl⟩)

end Refines

/-- What happens to a pool, and to the affixes that may stand in it. -/
inductive Edit (σ : Type) where
  /-- Somebody makes an affix. -/
  | introduce (a : Affix)
  /-- An affix changes in place. -/
  | write (i : AffixId) (a : Affix)
  | add (i : AffixId) (source? : Option Label)
  | remove (i : AffixId)
  | removeSource (source : Label)
  | register (item : Item)
  | unregister (item : Item)
  | grant (template : Affix) (g : σ)
  | clear

namespace Edit

def apply : Edit σ → Pool → Pool
  | introduce a, p => (p.introduce a).2
  | write i a, p => { p with affixes := p.affixes.set i a }
  | add i source?, p => p.add i source?
  | remove i, p => (p.remove i).2
  | removeSource source, p => (p.removeSource source).2
  | register item, p => (p.register item).state
  | unregister item, p => (p.unregister item).2
  | grant template g, p => (p.grant template g).state.1
  | clear, p => p.clear

/-- Only known affixes that are not in the pool are added, and no category changes. -/
def fits : Edit σ → Pool → Bool
  | add i _, p => i < p.affixes.next && !p.contains i
  | write i a, p => a.category = (p.affix i).category
  | _, _ => true

/-- What an edit does to the log: an item and a grant enter new affixes, a grant that fails none. -/
def record : Edit σ → Pool → Log → Log
  | introduce _, _, log => log
  | write _ _, _, log => log
  | add i source?, p, log => log.extend source? [(p.affix i, i)]
  | remove i, _, log => log.keep fun e => e.affix ≠ i
  | removeSource source, _, log => log.keep fun e => e.source? ≠ some source
  | register item, p, log => log.extend (some item.id) (item.affixes.zipIdx p.affixes.next)
  | unregister item, _, log => log.keep fun e => e.source? ≠ some item.id
  | grant template g, p, log =>
    match (template.rerolled g).answer with
    | .ok a => log.extend (some (.text runSource)) [(a, p.affixes.next)]
    | .error _ => log
  | clear, _, _ => {}

end Edit

def after : Pool → List (Edit σ) → Pool
  | p, [] => p
  | p, e :: es => (e.apply p).after es

def fits : Pool → List (Edit σ) → Bool
  | _, [] => true
  | p, e :: es => e.fits p && (e.apply p).fits es

/-- The log that a run of edits from a pool on makes of a log. -/
def record : Pool → Log → List (Edit σ) → Log
  | _, log, [] => log
  | p, log, e :: es => (e.apply p).record (e.record p log) es

variable {p : Pool} {log : Log}

theorem Refines.apply (h : p.Refines log) {e : Edit σ} (he : e.fits p = true) :
    (e.apply p).Refines (e.record p log) := by
  cases e with
  | introduce a => exact h.introduce a
  | write i a => exact h.write (by simpa [Edit.fits] using he)
  | add i source? =>
    obtain ⟨hknown, hnew⟩ : i < p.affixes.next ∧ i ∉ p.members := by
      simpa [Edit.fits, contains] using he
    exact h.add hknown (fun hmem => hnew (h.mem_members.mpr hmem)) source?
  | remove i => exact h.remove i
  | removeSource source => exact h.removeSource source
  | register item => exact h.insertAll (some item.id) item.affixes
  | unregister item => exact h.removeSource item.id
  | grant template g =>
    simp only [Edit.apply, Edit.record, grant]
    cases (template.rerolled g).answer with
    | ok a => exact h.insert a (some (.text runSource))
    | error e => exact h
  | clear => exact .empty p.affixes

theorem Refines.after (h : p.Refines log) {es : List (Edit σ)} (hes : p.fits es = true) :
    (p.after es).Refines (p.record log es) := by
  induction es generalizing p log with
  | nil => exact h
  | cons e es ih =>
    obtain ⟨he, hes⟩ := (Bool.and_eq_true _ _).mp hes
    exact ih (h.apply he) hes

end Pool

/-- After any run of edits on an empty pool that adds no member again and changes no category, the
pool answers from the log of the run: by category, by stat and by source in the order of the
additions, altogether category by category in the order in which these were first added to. -/
theorem pool_answers_from_log {affixes : Store Affix} {es : List (Pool.Edit σ)}
    (hes : Pool.fits { affixes } es = true) :
    let p := Pool.after { affixes } es
    let log := Pool.record { affixes } {} es
    (∀ c, p.select (some c) = log.inCategory p c) ∧
      (∀ c stat, p.forStat (some c) stat =
        (log.inCategory p c).filter fun i => (p.affix i).statName = stat) ∧
      (∀ s, p.fromSource s = log.fromSource s) ∧
      p.select none = log.added.eraseDups.flatMap (log.inCategory p) ∧
      p.size = log.entries.length ∧
      (log.ids.Nodup ∧ ∀ i, p.contains i = true ↔ i ∈ log.ids) ∧
      (∀ i, (p.remove i).1 = true ↔ i ∈ log.ids) ∧
      (∀ s, (p.removeSource s).1 = (log.fromSource s).length) ∧
      ∀ item : Item, (p.unregister item).1 = (log.fromSource item.id).length := by
  intro p log
  have h : p.Refines log := (Pool.Refines.empty affixes).after hes
  have hview : p.inCategory = log.inCategory p := funext h.category
  have hcount : ∀ s, (p.removeSource s).1 = (log.fromSource s).length := fun s =>
    congrArg List.length (h.source s)
  refine ⟨h.category, fun c stat => ?_, h.source, ?_, ?_, ⟨h.distinct, fun i => ?_⟩, h.remove_fst,
    hcount, fun item => hcount item.id⟩
  · rw [← hview]
    rfl
  · rw [← hview, ← h.keys]
    exact Pool.members_eq (h.keys ▸ nodup_eraseDups log.added)
  · exact h.members_perm.length_eq.trans (List.length_map _)
  · rw [Pool.contains, List.contains_iff_mem]
    exact h.mem_members

/-- A category that was emptied and filled again keeps its place before a later one. -/
theorem pool_answers_from_log_with_emptied_category :
    let ward : Affix := { name := "Ward", category := .defenseFlat }
    let edge : Affix := { name := "Edge", category := .statFlat, statName := "strength" }
    let amulet : Item := { serial := 0, id := "amulet", name := "Amulet", affixes := [ward, edge] }
    let es : List (Pool.Edit Script) :=
      [.register amulet, .introduce edge, .add 2 none, .remove 0, .grant ward { draws := [] },
        .removeSource "amulet"]
    let p := Pool.after {} es
    p.select none = [3, 2] ∧ p.select (some .statFlat) = [2] ∧ p.fromSource "run" = [3] ∧
      p.size = 2 ∧ p.contains 0 = false ∧ (p.remove 1).1 = false ∧ (p.removeSource "run").1 = 1 := by
  intro ward edge amulet es p
  have hes : Pool.fits {} es = true := by decide +kernel
  have hids : (Pool.record {} {} es).ids = [2, 3] := by decide +kernel
  obtain ⟨hcategory, -, hsource, hall, hsize, ⟨-, hcontains⟩, hremove, hcount, -⟩ :=
    pool_answers_from_log hes
  refine ⟨hall.trans (by decide +kernel), (hcategory .statFlat).trans (by decide +kernel),
    (hsource "run").trans (by decide +kernel), hsize.trans (by decide +kernel), ?_, ?_,
    (hcount "run").trans (by decide +kernel)⟩
  · exact Bool.eq_false_iff.mpr fun h => by simpa [hids] using (hcontains 0).mp h
  · exact Bool.eq_false_iff.mpr fun h => by simpa [hids] using (hremove 1).mp h

end AffixRules
