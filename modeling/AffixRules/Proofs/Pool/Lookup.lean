import AffixRules.Pool.Basic

/-! What the operations of a pool do to its lists, seen through the look-ups by category and by
source. -/
namespace AffixRules

namespace Pool

variable {p : Pool}

theorem getD_value?_append {κ : Type} [DecidableEq κ] (es : Entries κ (List AffixId))
    (key other : κ) (i : AffixId) :
    ((append es key i).value? other).getD [] =
      (es.value? other).getD [] ++ if key = other then [i] else [] := by
  by_cases h : key = other
  · subst h
    simp [append]
  · simp [append, h]

theorem inCategory_add (p : Pool) (i : AffixId) (source? : Option Label) (c : Category) :
    (p.add i source?).inCategory c =
      p.inCategory c ++ if (p.affix i).category = c then [i] else [] :=
  getD_value?_append p.byCategory _ c i

theorem fromSource_add (p : Pool) (i : AffixId) (source? : Option Label) (s : Label) :
    (p.add i source?).fromSource s = p.fromSource s ++ if source? = some s then [i] else [] := by
  cases source? with
  | none => simp [fromSource, add]
  | some source =>
    simp only [Option.some.injEq]
    exact getD_value?_append p.bySource source s i

theorem keys_add (p : Pool) (i : AffixId) (source? : Option Label) :
    (p.add i source?).byCategory.keys =
      if (p.affix i).category ∈ p.byCategory.keys then p.byCategory.keys
      else p.byCategory.keys ++ [(p.affix i).category] :=
  Entries.keys_put p.byCategory _ _

/-- Appending to the list at a key adds to all lists together. -/
theorem flatten_values_append {κ : Type} [DecidableEq κ] (es : Entries κ (List AffixId)) (key : κ)
    (i : AffixId) : (append es key i).values.flatten.Perm (i :: es.values.flatten) := by
  induction es with
  | nil => exact List.Perm.refl _
  | cons e es ih =>
    obtain ⟨k, is⟩ := e
    by_cases hk : k = key
    · have hput : (append ((k, is) :: es) key i).values.flatten =
          is ++ i :: (Entries.values es).flatten := by
        simp [append, Entries.put, Entries.value?, Entries.values, hk]
      rw [hput]
      exact List.perm_middle
    · have hput : (append ((k, is) :: es) key i).values.flatten =
          is ++ (append es key i).values.flatten := by
        simp [append, Entries.put, Entries.value?, Entries.values, hk]
      rw [hput]
      exact (ih.append_left is).trans List.perm_middle

theorem members_add (p : Pool) (i : AffixId) (source? : Option Label) :
    (p.add i source?).members.Perm (i :: p.members) :=
  flatten_values_append p.byCategory _ i

theorem affix_insertAll_of_lt (p : Pool) (source? : Option Label) (as : List Affix) {i : AffixId}
    (hi : i < p.affixes.next) : (p.insertAll source? as).2.affix i = p.affix i := by
  induction as generalizing p with
  | nil => rfl
  | cons a as ih =>
    have hne : p.affixes.next ≠ i := Nat.ne_of_gt hi
    refine (ih (p.insert a source?).2 (Nat.lt_succ_of_lt hi)).trans ?_
    simp [affix, insert, introduce, add, hne]

theorem value?_editCategory (c : Category) (edit : List AffixId → List AffixId)
    (es : Entries Category (List AffixId)) (k : Category) :
    (editCategory c edit es).value? k =
      (es.value? k).map fun is => if k = c then edit is else is := by
  induction es with
  | nil => rfl
  | cons e es ih =>
    obtain ⟨l, is⟩ := e
    by_cases hl : l = k
    · simp [editCategory, Entries.value?, hl]
    · simpa [editCategory, Entries.value?, hl] using ih

@[simp] theorem keys_editCategory (c : Category) (edit : List AffixId → List AffixId)
    (es : Entries Category (List AffixId)) : (editCategory c edit es).keys = es.keys := by
  simp [editCategory, Entries.keys]

/-- Each member stands under its own category. -/
def Filed (p : Pool) : Prop := ∀ c, ∀ i ∈ p.inCategory c, (p.affix i).category = c

theorem inCategory_dropMember (p : Pool) (i : AffixId) (c : Category) :
    (p.dropMember i).inCategory c =
      (p.inCategory c).filter fun j => j ≠ i ∨ (p.affix j).category ≠ c := by
  by_cases hc : (p.affix i).category = c
  · have hpass : ∀ j, (j ≠ i ∨ (p.affix j).category ≠ c) ↔ j ≠ i :=
      fun j => or_iff_left_of_imp fun hj h => hj (h ▸ hc)
    simp only [hpass]
    subst hc
    cases h : p.byCategory.value? (p.affix i).category <;>
      simp [inCategory, dropMember, value?_editCategory, h]
  · have hsame : (p.dropMember i).inCategory c = p.inCategory c := by
      simp [inCategory, dropMember, value?_editCategory, Ne.symm hc]
    rw [hsame, List.filter_eq_self.mpr]
    intro j _
    by_cases hj : j = i <;> simp [hj, hc]

theorem remove_of_mem {i : AffixId} (hi : i ∈ p.inCategory (p.affix i).category) :
    p.remove i =
      (true, { p with
        byCategory := editCategory (p.affix i).category (·.erase i) p.byCategory
        bySource := p.bySource.mapValues (·.filter (· ≠ i)) }) := by
  simp [remove, hi]

theorem inCategory_remove {i : AffixId} (hi : i ∈ p.inCategory (p.affix i).category)
    (c : Category) :
    (p.remove i).2.inCategory c =
      if (p.affix i).category = c then (p.inCategory c).erase i else p.inCategory c := by
  rw [remove_of_mem hi]
  by_cases hc : (p.affix i).category = c
  · subst hc
    cases h : p.byCategory.value? (p.affix i).category <;>
      simp [inCategory, value?_editCategory, h]
  · simp [inCategory, value?_editCategory, hc, Ne.symm hc]

theorem fromSource_remove {i : AffixId} (hi : i ∈ p.inCategory (p.affix i).category) (s : Label) :
    (p.remove i).2.fromSource s = (p.fromSource s).filter (· ≠ i) := by
  rw [remove_of_mem hi]
  cases h : p.bySource.value? s <;> simp [fromSource, h]

/-- Taking the first occurrence out is taking the member out, where no list holds it twice. -/
theorem inCategory_remove_of_nodup (hn : ∀ c, (p.inCategory c).Nodup) {i : AffixId}
    (hi : i ∈ p.inCategory (p.affix i).category) (c : Category) :
    (p.remove i).2.inCategory c = (p.dropMember i).inCategory c := by
  rw [inCategory_remove hi, inCategory_dropMember]
  split
  next hc =>
    rw [(hn c).erase_eq_filter]
    refine List.filter_congr fun j _ => ?_
    by_cases hj : j = i
    · simp [hj, hc]
    · simp [hj]
  next hc =>
    rw [List.filter_eq_self.mpr]
    intro j _
    by_cases hj : j = i <;> simp [hj, hc]

theorem remove_of_not_mem {i : AffixId} (hi : i ∉ p.inCategory (p.affix i).category) :
    p.remove i = (false, p) := by
  simp [remove, hi]

theorem foldl_dropMember_keeps (is : List AffixId) (p : Pool) :
    (is.foldl dropMember p).byCategory.keys = p.byCategory.keys ∧
      (is.foldl dropMember p).bySource = p.bySource ∧
      (is.foldl dropMember p).affixes = p.affixes := by
  induction is generalizing p with
  | nil => exact ⟨rfl, rfl, rfl⟩
  | cons i is ih =>
    obtain ⟨hkeys, hsource, haffixes⟩ := ih (p.dropMember i)
    exact ⟨hkeys.trans (keys_editCategory _ _ _), hsource, haffixes⟩

theorem inCategory_foldl_dropMember (is : List AffixId) (p : Pool) (c : Category) :
    (is.foldl dropMember p).inCategory c =
      (p.inCategory c).filter fun j => j ∉ is ∨ (p.affix j).category ≠ c := by
  induction is generalizing p with
  | nil =>
    rw [List.filter_eq_self.mpr (by simp)]
    rfl
  | cons i is ih =>
    have haffix : (p.dropMember i).affix = p.affix := rfl
    rw [List.foldl_cons, ih, inCategory_dropMember, List.filter_filter, haffix]
    refine List.filter_congr fun j _ => ?_
    by_cases hj : (p.affix j).category = c <;> simp [hj, Bool.and_comm]

/-- In a pool whose members stand under their own categories, they are dropped wherever they
stand. -/
theorem Filed.inCategory_foldl_dropMember (hp : p.Filed) (is : List AffixId) (c : Category) :
    (is.foldl dropMember p).inCategory c = (p.inCategory c).filter (· ∉ is) := by
  rw [Pool.inCategory_foldl_dropMember]
  refine List.filter_congr fun j hj => ?_
  simp [hp c j hj]

theorem inCategory_removeSource (p : Pool) (s : Label) (c : Category) :
    (p.removeSource s).2.inCategory c =
      (p.inCategory c).filter fun j => j ∉ p.fromSource s ∨ (p.affix j).category ≠ c :=
  inCategory_foldl_dropMember (p.fromSource s) { p with bySource := p.bySource.without s } c

theorem fromSource_removeSource (p : Pool) (s t : Label) :
    (p.removeSource s).2.fromSource t = if s = t then [] else p.fromSource t := by
  have hwithout : (p.removeSource s).2.bySource = p.bySource.without s :=
    (foldl_dropMember_keeps _ _).2.1
  rw [fromSource, hwithout, Entries.value?_without]
  split <;> rfl

/-- With each category once, the members are those of the categories, one after the other. -/
theorem members_eq (h : p.byCategory.keys.Nodup) :
    p.members = p.byCategory.keys.flatMap p.inCategory := by
  calc p.members = (p.byCategory.values.map some).flatMap fun is? => is?.getD [] := by
        simp [members, List.flatMap_map, List.flatMap_id']
    _ = p.byCategory.keys.flatMap p.inCategory := by
        rw [Entries.map_some_values h, List.flatMap_map]
        rfl

/-- The pool `q` has one affix more than `p`, a new one, which stands last in its category and under
its source. -/
structure Gains (p : Pool) (i : AffixId) (a : Affix) (source : Label) (q : Pool) : Prop where
  new : i = p.affixes.next
  affix : q.affix i = a
  others : ∀ j, j ≠ i → q.affix j = p.affix j
  members : q.members.Perm (i :: p.members)
  category : ∀ c, q.inCategory c = p.inCategory c ++ if a.category = c then [i] else []
  source : ∀ s, q.fromSource s = p.fromSource s ++ if source = s then [i] else []

theorem gains_insert (p : Pool) (a : Affix) (source : Label) :
    p.Gains (p.insert a (some source)).1 a source (p.insert a (some source)).2 := by
  let i := p.affixes.next
  have haffix : ∀ j, (p.introduce a).2.affix j = if i = j then a else p.affix j :=
    Store.get_alloc p.affixes a
  have hnew : (p.introduce a).2.affix i = a := by rw [haffix, if_pos rfl]
  constructor
  · rfl
  · exact hnew
  · intro j hj
    exact (haffix j).trans (if_neg (Ne.symm hj))
  · exact members_add (p.introduce a).2 i (some source)
  · intro c
    have hadd := inCategory_add (p.introduce a).2 i (some source) c
    rwa [hnew] at hadd
  · intro s
    have hadd := fromSource_add (p.introduce a).2 i (some source) s
    simp only [Option.some.injEq] at hadd
    exact hadd

end Pool

end AffixRules
