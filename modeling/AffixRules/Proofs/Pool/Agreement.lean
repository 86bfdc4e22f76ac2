import AffixRules.Proofs.Pool.Registration

/-! Where the two groupings of a pool agree. An affix may be added again, under the same source,
another or none. Ending a source takes its affixes out of the categories altogether but out of no
other source; removing an affix takes it out of all sources but only once out of its category. -/
namespace AffixRules

variable {σ : Type} [Generator σ]

namespace Pool

/-- A pool whose members stand under their own categories, each of which has one place. -/
structure Arranged (p : Pool) : Prop extends p.WellFiled where
  filed : p.Filed

/-- What is listed under a source stands in the pool. -/
def Current (p : Pool) : Prop := ∀ s, ∀ i ∈ p.fromSource s, i ∈ p.members

/-- What stands in the pool is listed under a source. -/
def Traced (p : Pool) : Prop := ∀ i ∈ p.members, ∃ s, i ∈ p.fromSource s

/-- What is listed under the source is listed under no other. -/
def ownsAlone (p : Pool) (s : Label) : Bool :=
  (p.fromSource s).all fun i => p.bySource.keys.all fun t => t = s || !(p.fromSource t).contains i

variable {p : Pool} {i j : AffixId} {s t : Label}

theorem mem_keys_of_mem_fromSource (h : i ∈ p.fromSource t) : t ∈ p.bySource.keys := by
  by_contra ht
  simp [fromSource, Entries.value?_eq_none_iff.mpr ht] at h

theorem ownsAlone_iff :
    p.ownsAlone s = true ↔ ∀ i ∈ p.fromSource s, ∀ t, i ∈ p.fromSource t → t = s := by
  simp only [ownsAlone, List.all_eq_true, Bool.or_eq_true, decide_eq_true_eq, Bool.not_eq_true',
    List.contains_eq_mem, decide_eq_false_iff_not]
  constructor
  · intro h i hi t ht
    exact (h i hi t (mem_keys_of_mem_fromSource ht)).resolve_right (not_not_intro ht)
  · intro h i hi t _
    exact or_iff_not_imp_right.mpr fun ht => h i hi t (not_not.mp ht)

theorem count_flatMap_of_unique {κ : Type} [DecidableEq κ] {f : κ → List AffixId} {c : κ}
    (h : ∀ k, i ∈ f k → k = c) {ks : List κ} (hn : ks.Nodup) :
    (ks.flatMap f).count i = if c ∈ ks then (f c).count i else 0 := by
  induction ks with
  | nil => rfl
  | cons k ks ih =>
    obtain ⟨hk, hn⟩ := List.nodup_cons.mp hn
    rw [List.flatMap_cons, List.count_append, ih hn]
    by_cases hkc : k = c
    · subst hkc
      simp [hk]
    · have hzero : (f k).count i = 0 := List.count_eq_zero.mpr fun hi => hkc (h k hi)
      simp [hzero, Ne.symm hkc]

namespace Arranged

theorem empty (affixes : Store Affix) : Arranged { affixes } :=
  ⟨WellFiled.empty affixes, fun _ _ hi => by cases hi⟩

theorem introduce (h : p.Arranged) (a : Affix) : (p.introduce a).2.Arranged where
  toWellFiled := h.toWellFiled.introduce a
  filed c i hi := by
    have hne : p.affixes.next ≠ i := Nat.ne_of_gt (h.known c i hi)
    have hkept : (p.introduce a).2.affix i = p.affix i := by simp [affix, Pool.introduce, hne]
    rw [hkept]
    exact h.filed c i hi

theorem write (h : p.Arranged) {a : Affix} (ha : a.category = (p.affix i).category) :
    Arranged { p with affixes := p.affixes.set i a } where
  toWellFiled := ⟨h.keys, h.known⟩
  filed c j hj := by
    by_cases hij : i = j
    · subst hij
      simpa [affix, ha] using h.filed c i hj
    · simpa [affix, hij] using h.filed c j hj

theorem add (h : p.Arranged) (hi : i < p.affixes.next) (source? : Option Label) :
    (p.add i source?).Arranged where
  toWellFiled := h.toWellFiled.add hi source?
  filed c j hj := by
    rw [inCategory_add, List.mem_append] at hj
    obtain hj | hj := hj
    · exact h.filed c j hj
    · split at hj
      next hc => exact List.mem_singleton.mp hj ▸ hc
      · cases hj

theorem insertAll (h : p.Arranged) (source? : Option Label) (as : List Affix) :
    (p.insertAll source? as).2.Arranged := by
  induction as generalizing p with
  | nil => exact h
  | cons a as ih => exact ih ((h.introduce a).add (Nat.lt_succ_self p.affixes.next) source?)

theorem remove (h : p.Arranged) (i : AffixId) : (p.remove i).2.Arranged where
  toWellFiled := h.toWellFiled.remove i
  filed c j hj := by
    by_cases hi : i ∈ p.inCategory (p.affix i).category
    · have hkept : (p.remove i).2.affix j = p.affix j := by rw [remove_of_mem hi]; rfl
      rw [inCategory_remove hi] at hj
      rw [hkept]
      split at hj
      · exact h.filed c j (List.mem_of_mem_erase hj)
      · exact h.filed c j hj
    · rw [remove_of_not_mem hi] at hj ⊢
      exact h.filed c j hj

theorem removeSource (h : p.Arranged) (s : Label) : (p.removeSource s).2.Arranged where
  toWellFiled := h.toWellFiled.removeSource s
  filed c j hj := by
    rw [affix, (p.removeSource_keeps s).2]
    rw [inCategory_removeSource] at hj
    exact h.filed c j (List.mem_filter.mp hj).1

theorem mem_members (h : p.Arranged) :
    i ∈ p.members ↔ i ∈ p.inCategory (p.affix i).category := by
  refine ⟨fun hi => ?_, mem_members_of_mem_inCategory h.keys⟩
  rw [members_eq h.keys, List.mem_flatMap] at hi
  obtain ⟨c, -, hi⟩ := hi
  rwa [h.filed c i hi]

theorem count_members (h : p.Arranged) (i : AffixId) :
    p.members.count i = (p.inCategory (p.affix i).category).count i := by
  rw [members_eq h.keys, count_flatMap_of_unique (fun c hi => (h.filed c i hi).symm) h.keys]
  split
  · rfl
  next hc => rw [inCategory_of_not_mem_keys hc, List.count_nil]

theorem mem_members_removeSource (h : p.Arranged) :
    j ∈ (p.removeSource s).2.members ↔ j ∈ p.members ∧ j ∉ p.fromSource s := by
  have hkept : (p.removeSource s).2.affix j = p.affix j := by
    rw [affix, (p.removeSource_keeps s).2, affix]
  rw [(h.removeSource s).mem_members, h.mem_members, hkept, inCategory_removeSource]
  simp

theorem remove_of_not_member (h : p.Arranged) (hi : i ∉ p.members) : (p.remove i).2 = p := by
  rw [remove_of_not_mem (mt h.mem_members.mpr hi)]

theorem mem_members_remove (h : p.Arranged) (hi : i ∈ p.members) :
    j ∈ (p.remove i).2.members ↔ j ∈ p.members ∧ (j = i → 1 < p.members.count i) := by
  have hfiled := h.mem_members.mp hi
  have hkept : (p.remove i).2.affix j = p.affix j := by rw [remove_of_mem hfiled]; rfl
  rw [(h.remove i).mem_members, h.mem_members, hkept, inCategory_remove hfiled]
  by_cases hj : j = i
  · subst hj
    rw [if_pos rfl, h.count_members, ← List.count_pos_iff, List.count_erase_self]
    have hpos := List.count_pos_iff.mpr hfiled
    simp only [hfiled, forall_const, true_and]
    omega
  · split
    next => simp [List.mem_erase_of_ne hj, hj]
    next => simp [hj]

end Arranged

namespace Current

theorem add (h : p.Current) (i : AffixId) (source? : Option Label) : (p.add i source?).Current := by
  intro s j hj
  rw [(members_add p i source?).mem_iff, List.mem_cons]
  rw [fromSource_add, List.mem_append] at hj
  obtain hj | hj := hj
  · exact .inr (h s j hj)
  · split at hj
    · exact .inl (List.mem_singleton.mp hj)
    · cases hj

theorem insertAll (h : p.Current) (source? : Option Label) (as : List Affix) :
    (p.insertAll source? as).2.Current := by
  induction as generalizing p with
  | nil => exact h
  | cons a as ih =>
    have hknown : (p.introduce a).2.Current := h
    exact ih (hknown.add p.affixes.next source?)

theorem remove (h : p.Current) (hp : p.Arranged) (i : AffixId) : (p.remove i).2.Current := by
  by_cases hi : i ∈ p.members
  · intro s j hj
    rw [fromSource_remove (hp.mem_members.mp hi)] at hj
    obtain ⟨hj, hne⟩ := List.mem_filter.mp hj
    exact (hp.mem_members_remove hi).mpr ⟨h s j hj, fun he => absurd he (of_decide_eq_true hne)⟩
  · rwa [hp.remove_of_not_member hi]

theorem removeSource_iff (h : p.Current) (hp : p.Arranged) (s : Label) :
    (p.removeSource s).2.Current ↔ p.ownsAlone s = true := by
  simp only [Current, hp.mem_members_removeSource, fromSource_removeSource, ownsAlone_iff]
  constructor
  · intro hafter i hi t ht
    by_contra hts
    exact (hafter t i (by rwa [if_neg (Ne.symm hts)])).2 hi
  · intro halone t i hi
    split at hi
    · cases hi
    next hst => exact ⟨h t i hi, fun his => hst (halone i his t hi).symm⟩

end Current

namespace Traced

theorem add (h : p.Traced) (i : AffixId) (source : Label) : (p.add i (some source)).Traced := by
  intro j hj
  rw [(members_add p i (some source)).mem_iff, List.mem_cons] at hj
  obtain rfl | hj := hj
  · exact ⟨source, by simp [fromSource_add]⟩
  · obtain ⟨s, hs⟩ := h j hj
    exact ⟨s, by simp [fromSource_add, hs]⟩

theorem insertAll (h : p.Traced) (source : Label) (as : List Affix) :
    (p.insertAll (some source) as).2.Traced := by
  induction as generalizing p with
  | nil => exact h
  | cons a as ih =>
    have hknown : (p.introduce a).2.Traced := h
    exact ih (hknown.add p.affixes.next source)

theorem remove_iff (h : p.Traced) (hp : p.Arranged) (i : AffixId) :
    (p.remove i).2.Traced ↔ p.members.count i ≤ 1 := by
  by_cases hi : i ∈ p.members
  · have hsource := fromSource_remove (hp.mem_members.mp hi)
    constructor
    · intro hafter
      by_contra htwice
      obtain ⟨s, hs⟩ := hafter i ((hp.mem_members_remove hi).mpr ⟨hi, fun _ => by omega⟩)
      rw [hsource] at hs
      simp at hs
    · intro honce j hj
      obtain ⟨hj, hne⟩ := (hp.mem_members_remove hi).mp hj
      have hne : j ≠ i := fun he => by have := hne he; omega
      obtain ⟨s, hs⟩ := h j hj
      exact ⟨s, by rw [hsource]; simp [hs, hne]⟩
  · rw [hp.remove_of_not_member hi, List.count_eq_zero.mpr hi]
    exact iff_of_true h (Nat.zero_le 1)

theorem removeSource (h : p.Traced) (hp : p.Arranged) (s : Label) : (p.removeSource s).2.Traced := by
  intro j hj
  obtain ⟨hj, hnot⟩ := hp.mem_members_removeSource.mp hj
  obtain ⟨t, ht⟩ := h j hj
  have hst : s ≠ t := fun he => hnot (he ▸ ht)
  exact ⟨t, by rwa [fromSource_removeSource, if_neg hst]⟩

end Traced

/-- Ending every source under which a member is listed empties the pool. -/
theorem Arranged.members_foldl_removeSource {ss : List Label} (h : p.Arranged)
    (hss : ∀ i ∈ p.members, ∃ s ∈ ss, i ∈ p.fromSource s) :
    (ss.foldl (fun q s => (q.removeSource s).2) p).members = [] := by
  induction ss generalizing p with
  | nil =>
    rw [List.eq_nil_iff_forall_not_mem]
    rintro i hi
    obtain ⟨s, hs, -⟩ := hss i hi
    cases hs
  | cons s ss ih =>
    refine ih (h.removeSource s) fun j hj => ?_
    obtain ⟨hj, hnot⟩ := h.mem_members_removeSource.mp hj
    obtain ⟨t, ht, hjt⟩ := hss j hj
    have hst : s ≠ t := fun he => hnot (he ▸ hjt)
    obtain rfl | ht := List.mem_cons.mp ht
    · exact absurd rfl hst
    · exact ⟨t, ht, by rwa [fromSource_removeSource, if_neg hst]⟩

namespace Edit

/-- Only known affixes are added, and no category changes. -/
def isSteady : Edit σ → Pool → Bool
  | add i _, p => i < p.affixes.next
  | write i a, p => a.category = (p.affix i).category
  | _, _ => true

/-- The edit adds under a source if it adds. -/
def namesSource : Edit σ → Bool
  | add _ source? => source?.isSome
  | _ => true

/-- A source that the edit ends shares no affix with another. -/
def isSettled : Edit σ → Pool → Bool
  | removeSource source, p => p.ownsAlone source
  | unregister item, p => p.ownsAlone item.id
  | _, _ => true

/-- An affix that the edit removes stands in the pool at most once. -/
def isSingle : Edit σ → Pool → Bool
  | remove i, p => p.members.count i ≤ 1
  | _, _ => true

end Edit

/-- Each edit of a run passes a test in the pool that it finds. -/
def each (test : Edit σ → Pool → Bool) : Pool → List (Edit σ) → Bool
  | _, [] => true
  | p, e :: es => test e p && (e.apply p).each test es

variable {e : Edit σ} {es : List (Edit σ)}

theorem Arranged.apply (h : p.Arranged) (he : e.isSteady p = true) : (e.apply p).Arranged := by
  cases e with
  | introduce a => exact h.introduce a
  | write i a => exact h.write (by simpa [Edit.isSteady] using he)
  | add i source? => exact h.add (by simpa [Edit.isSteady] using he) source?
  | remove i => exact h.remove i
  | removeSource source => exact h.removeSource source
  | register item => exact h.insertAll (some item.id) item.affixes
  | unregister item => exact h.removeSource item.id
  | grant template g =>
    simp only [Edit.apply, grant]
    cases (template.rerolled g).answer with
    | ok a => exact h.insertAll (some (.text runSource)) [a]
    | error e => exact h
  | clear => exact .empty p.affixes

theorem Current.apply_iff (h : p.Current) (hp : p.Arranged) :
    (e.apply p).Current ↔ e.isSettled p = true := by
  cases e with
  | introduce a => exact iff_of_true h rfl
  | write i a => exact iff_of_true h rfl
  | add i source? => exact iff_of_true (h.add i source?) rfl
  | remove i => exact iff_of_true (h.remove hp i) rfl
  | removeSource source => exact h.removeSource_iff hp source
  | register item => exact iff_of_true (h.insertAll (some item.id) item.affixes) rfl
  | unregister item => exact h.removeSource_iff hp item.id
  | grant template g =>
    refine iff_of_true ?_ rfl
    simp only [Edit.apply, grant]
    cases (template.rerolled g).answer with
    | ok a => exact h.insertAll (some (.text runSource)) [a]
    | error e => exact h
  | clear => exact iff_of_true (fun _ _ hi => by cases hi) rfl

theorem Traced.apply_iff (h : p.Traced) (hp : p.Arranged) (he : e.namesSource = true) :
    (e.apply p).Traced ↔ e.isSingle p = true := by
  cases e with
  | introduce a => exact iff_of_true h rfl
  | write i a => exact iff_of_true h rfl
  | add i source? =>
    obtain ⟨source, rfl⟩ := Option.isSome_iff_exists.mp he
    exact iff_of_true (h.add i source) rfl
  | remove i => exact (h.remove_iff hp i).trans decide_eq_true_iff.symm
  | removeSource source => exact iff_of_true (h.removeSource hp source) rfl
  | register item => exact iff_of_true (h.insertAll item.id item.affixes) rfl
  | unregister item => exact iff_of_true (h.removeSource hp item.id) rfl
  | grant template g =>
    refine iff_of_true ?_ rfl
    simp only [Edit.apply, grant]
    cases (template.rerolled g).answer with
    | ok a => exact h.insertAll (.text runSource) [a]
    | error e => exact h
  | clear => exact iff_of_true (fun _ hi => by cases hi) rfl

theorem Arranged.after (h : p.Arranged) (hes : p.each Edit.isSteady es = true) :
    (p.after es).Arranged := by
  induction es generalizing p with
  | nil => exact h
  | cons e es ih =>
    obtain ⟨he, hes⟩ := (Bool.and_eq_true _ _).mp hes
    exact ih (h.apply he) hes

theorem each_of_prefix {test : Edit σ → Pool → Bool} {done : List (Edit σ)} (hd : done <+: es)
    (hes : p.each test es = true) : p.each test done = true := by
  induction done generalizing p es with
  | nil => rfl
  | cons e done ih =>
    obtain ⟨rest, rfl⟩ := hd
    obtain ⟨he, hes⟩ := (Bool.and_eq_true _ _).mp hes
    exact (Bool.and_eq_true _ _).mpr ⟨he, ih (List.prefix_append done rest) hes⟩

/-- Where a test tells for each edit whether it keeps a property, it tells whether the property holds
all along a run. -/
theorem forall_reached_iff {P : Pool → Prop} {test : Edit σ → Pool → Bool}
    (step : ∀ e ∈ es, ∀ q : Pool, q.Arranged → P q → (P (e.apply q) ↔ test e q = true))
    (hes : p.each Edit.isSteady es = true) (h : p.Arranged) (hp : P p) :
    (∀ done, done <+: es → P (p.after done)) ↔ p.each test es = true := by
  induction es generalizing p with
  | nil => exact iff_of_true (fun done hd => by rwa [List.prefix_nil.mp hd]) rfl
  | cons e es ih =>
    obtain ⟨he, hes⟩ := (Bool.and_eq_true _ _).mp hes
    have hstep := step e List.mem_cons_self p h hp
    have hrest := fun hq => ih (fun e he => step e (List.mem_cons_of_mem _ he)) hes (h.apply he) hq
    rw [each, Bool.and_eq_true]
    constructor
    · intro hall
      have hq : P (e.apply p) := hall [e] (List.prefix_append [e] es)
      exact ⟨hstep.mp hq, (hrest hq).mp fun done hd =>
        hall (e :: done) ((List.prefix_cons_inj e).mpr hd)⟩
    · rintro ⟨htest, hall⟩ done hd
      obtain rfl | ⟨later, rfl, hlater⟩ := List.prefix_cons_iff.mp hd
      · exact hp
      · exact (hrest (hstep.mpr htest)).mpr hall later hlater

end Pool

/-- A run of edits on an empty pool, in which affixes may be added again, keeps all that is listed
under a source in the pool exactly as long as no source is ended that shares an affix with another.
Where every addition names a source, what is in the pool is what is listed all along exactly if also
no affix is removed that stands there twice; and without such a removal, ending every source empties
the pool. -/
theorem listed_affixes_are_contained_iff {affixes : Store Affix} {es : List (Pool.Edit σ)}
    (hes : Pool.each Pool.Edit.isSteady { affixes } es = true) :
    let p : Pool := { affixes }
    ((∀ done, done <+: es → ∀ s, ∀ i ∈ (p.after done).fromSource s,
        (p.after done).contains i = true) ↔ p.each Pool.Edit.isSettled es = true) ∧
      ((∀ e ∈ es, e.namesSource = true) →
        ((∀ done, done <+: es → ∀ i, (p.after done).contains i = true ↔
            ∃ s, i ∈ (p.after done).fromSource s) ↔
          p.each (fun e q => e.isSettled q && e.isSingle q) es = true) ∧
        (p.each Pool.Edit.isSingle es = true → ∀ done, done <+: es → ∀ ss : List Label,
          (∀ s, (p.after done).fromSource s ≠ [] → s ∈ ss) →
          (ss.foldl (fun q s => (q.removeSource s).2) (p.after done)).size = 0)) := by
  intro p
  have hp : p.Arranged := .empty affixes
  have hcurrent : p.Current := fun _ _ hi => by cases hi
  have htraced : p.Traced := fun _ hi => by cases hi
  have hcontains (q : Pool) (i : AffixId) : q.contains i = true ↔ i ∈ q.members :=
    List.contains_iff_mem
  simp only [hcontains]
  refine ⟨Pool.forall_reached_iff (P := Pool.Current) (fun e _ q hq h => h.apply_iff hq) hes hp
    hcurrent, fun hnames => ⟨?_, ?_⟩⟩
  · have hstep : ∀ e ∈ es, ∀ q : Pool, q.Arranged → q.Current ∧ q.Traced →
        ((e.apply q).Current ∧ (e.apply q).Traced ↔ (e.isSettled q && e.isSingle q) = true) := by
      intro e he q hq h
      rw [Bool.and_eq_true]
      exact and_congr (h.1.apply_iff hq) (h.2.apply_iff hq (hnames e he))
    rw [← Pool.forall_reached_iff (P := fun q => q.Current ∧ q.Traced) hstep hes hp ⟨hcurrent, htraced⟩]
    refine forall_congr' fun done => imp_congr_right fun _ => ⟨fun h => ?_, fun h i => ?_⟩
    · exact ⟨fun s i hi => (h i).mpr ⟨s, hi⟩, fun i hi => (h i).mp hi⟩
    · exact ⟨h.2 i, fun ⟨s, hs⟩ => h.1 s i hs⟩
  · intro hsingle done hd ss hss
    have hall := (Pool.forall_reached_iff (P := Pool.Traced)
      (fun e he q hq h => h.apply_iff hq (hnames e he)) hes hp htraced).mpr hsingle done hd
    have harranged : (p.after done).Arranged := hp.after (Pool.each_of_prefix hd hes)
    refine List.length_eq_zero_iff.mpr (harranged.members_foldl_removeSource fun i hi => ?_)
    obtain ⟨s, hs⟩ := hall i hi
    exact ⟨s, hss s (List.ne_nil_of_mem hs), hs⟩

/-- A spark added twice under the sword and, once that is gone, under the shield, beside an edge that is
removed in between. -/
theorem listed_affixes_are_contained_after_reuse :
    let spark : Affix := { name := "Spark", category := .statFlat }
    let edge : Affix := { name := "Edge", category := .defenseFlat }
    let es : List (Pool.Edit Script) :=
      [.introduce spark, .introduce edge, .add 0 (some "sword"), .add 0 (some "sword"),
        .add 1 (some "shield"), .removeSource "sword", .add 0 (some "shield"), .remove 1,
        .add 0 (some "shield")]
    let p := Pool.after {} es
    let sources : List Label := ["sword", "shield"]
    Pool.each Pool.Edit.isSteady {} es = true ∧ (∀ e ∈ es, e.namesSource = true) ∧
      Pool.each (fun e q => e.isSettled q && e.isSingle q) {} es = true ∧ p.members = [0, 0] ∧
      (∀ s, ∀ i ∈ p.fromSource s, p.contains i = true) ∧
      (∀ i, p.contains i = true ↔ ∃ s, i ∈ p.fromSource s) ∧
      (sources.foldl (fun q s => (q.removeSource s).2) p).size = 0 := by
  intro spark edge es p sources
  have hes : Pool.each Pool.Edit.isSteady {} es = true := by decide +kernel
  have hnames : ∀ e ∈ es, e.namesSource = true := by simp [es, Pool.Edit.namesSource]
  have hboth : Pool.each (fun e q => e.isSettled q && e.isSingle q) {} es = true := by
    decide +kernel
  have hkeys : p.bySource.keys = [.text "shield"] := by decide +kernel
  obtain ⟨hlisted, hnamed⟩ := listed_affixes_are_contained_iff hes
  obtain ⟨hagree, hempty⟩ := hnamed hnames
  refine ⟨hes, hnames, hboth, by decide +kernel,
    hlisted.mpr (by decide +kernel) es (List.prefix_refl es),
    hagree.mpr hboth es (List.prefix_refl es),
    hempty (by decide +kernel) es (List.prefix_refl es) sources fun s hs => ?_⟩
  obtain ⟨i, hi⟩ := List.exists_mem_of_ne_nil _ hs
  have hs : s ∈ p.bySource.keys := Pool.mem_keys_of_mem_fromSource hi
  rw [hkeys] at hs
  exact List.mem_cons_of_mem _ hs

/-- Ending the sword leaves a spark that it shares with the shield listed there, though it is gone;
removing a spark that the sword holds twice leaves one in the pool that no source lists. -/
theorem shared_and_repeated_affixes_split_indexes :
    let spark : Affix := { name := "Spark", category := .statFlat }
    let shared : List (Pool.Edit Script) :=
      [.introduce spark, .add 0 (some "sword"), .add 0 (some "shield"), .removeSource "sword"]
    let repeated : List (Pool.Edit Script) :=
      [.introduce spark, .add 0 (some "sword"), .add 0 (some "sword"), .remove 0]
    let p := Pool.after {} shared
    let q := Pool.after {} repeated
    (∀ e ∈ shared ++ repeated, e.namesSource = true) ∧
      (0 ∈ p.fromSource "shield" ∧ p.contains 0 = false) ∧
      q.contains 0 = true ∧ (¬ ∃ s, 0 ∈ q.fromSource s) ∧ (q.removeSource "sword").2.size = 1 := by
  intro spark shared repeated p q
  have hkeys : q.bySource.keys = [.text "sword"] := by decide +kernel
  refine ⟨by simp [shared, repeated, Pool.Edit.namesSource], by decide +kernel, by decide +kernel,
    fun ⟨s, hs⟩ => ?_, by decide +kernel⟩
  have hmem : s ∈ q.bySource.keys := Pool.mem_keys_of_mem_fromSource hs
  rw [hkeys, List.mem_singleton] at hmem
  subst hmem
  exact absurd hs (by decide +kernel)

end AffixRules
