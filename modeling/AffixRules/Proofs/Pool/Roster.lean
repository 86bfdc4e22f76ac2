import AffixRules.Proofs.Pool.Log

/-! What stands in a pool after any run of edits, also where affixes were added again or changed
their category. The roster of a run lists what was filed under a category and not taken out again,
and what each source holds, in the order of the additions. -/
namespace AffixRules

variable {σ : Type} [Generator σ]

namespace Pool

/-- An affix under the category that it had when it was added. -/
structure Filing where
  category : Category
  affix : AffixId
  deriving DecidableEq

def filing (p : Pool) (i : AffixId) : Filing := ⟨(p.affix i).category, i⟩

/-- The filings of new affixes, numbered from the next free number on. -/
def newFilings (as : List Affix) (next : AffixId) : List Filing :=
  (as.zipIdx next).map fun (a, i) => ⟨a.category, i⟩

theorem mem_map_filing (p : Pool) (is : List AffixId) (f : Filing) :
    f ∈ is.map p.filing ↔ f.affix ∈ is ∧ (p.affix f.affix).category = f.category := by
  rw [List.mem_map]
  constructor
  · rintro ⟨i, hi, rfl⟩
    exact ⟨hi, rfl⟩
  · rintro ⟨hi, hc⟩
    exact ⟨f.affix, hi, by rw [filing, hc]⟩

structure Roster where
  filings : List Filing := []
  holdings : List (Label × AffixId) := []

namespace Roster

def inCategory (r : Roster) (c : Category) : List AffixId :=
  (r.filings.filter fun f => f.category = c).map (·.affix)

def fromSource (r : Roster) (s : Label) : List AffixId :=
  (r.holdings.filter fun h => h.1 = s).map (·.2)

def enter (r : Roster) (source? : Option Label) (f : Filing) : Roster where
  filings := r.filings ++ [f]
  holdings := r.holdings ++ source?.toList.map fun s => (s, f.affix)

def enterAll (r : Roster) (source? : Option Label) (fs : List Filing) : Roster :=
  fs.foldl (fun r f => r.enter source? f) r

/-- Takes out the first such filing, and the affix from every source. -/
def strike (r : Roster) (f : Filing) : Roster :=
  if f ∈ r.filings then
    { filings := r.filings.erase f, holdings := r.holdings.filter fun h => h.2 ≠ f.affix }
  else r

/-- Ends a source; what it holds is taken out wherever it stands under its present category. -/
def release (r : Roster) (p : Pool) (s : Label) : Roster where
  filings := r.filings.filter fun f => f ∉ (r.fromSource s).map p.filing
  holdings := r.holdings.filter fun h => h.1 ≠ s

variable (r : Roster) (f : Filing)

theorem mem_inCategory {c : Category} {i : AffixId} :
    i ∈ r.inCategory c ↔ ⟨c, i⟩ ∈ r.filings := by
  rw [inCategory, List.mem_map]
  constructor
  · rintro ⟨f, hf, rfl⟩
    obtain ⟨hmem, hc⟩ := List.mem_filter.mp hf
    rwa [← of_decide_eq_true hc]
  · intro h
    exact ⟨_, List.mem_filter.mpr ⟨h, decide_eq_true rfl⟩, rfl⟩

theorem inCategory_enter (source? : Option Label) (c : Category) :
    (r.enter source? f).inCategory c =
      r.inCategory c ++ if f.category = c then [f.affix] else [] := by
  by_cases hc : f.category = c <;> simp [inCategory, enter, hc]

theorem fromSource_enter (source? : Option Label) (s : Label) :
    (r.enter source? f).fromSource s =
      r.fromSource s ++ if source? = some s then [f.affix] else [] := by
  cases source? with
  | none => simp [fromSource, enter]
  | some t => by_cases hs : t = s <;> simp [fromSource, enter, hs]

theorem filings_enterAll (source? : Option Label) (fs : List Filing) :
    (r.enterAll source? fs).filings = r.filings ++ fs := by
  induction fs generalizing r with
  | nil => exact (List.append_nil _).symm
  | cons f fs ih => exact (ih (r.enter source? f)).trans (List.append_assoc _ _ _)

theorem filings_strike_sublist : (r.strike f).filings.Sublist r.filings := by
  rw [strike]
  split
  · exact List.erase_sublist
  · exact List.Sublist.refl _

/-- Erasing a filing erases its affix from its own category and leaves the others. -/
theorem inCategory_erase (fs : List Filing) (c : Category) :
    inCategory { filings := fs.erase f } c =
      if f.category = c then (inCategory { filings := fs } c).erase f.affix
      else inCategory { filings := fs } c := by
  induction fs with
  | nil => simp [inCategory]
  | cons g fs ih =>
    simp only [inCategory] at ih ⊢
    by_cases hgf : g = f
    · subst hgf
      by_cases hc : g.category = c <;> simp [hc]
    · rw [List.erase_cons_tail (by simpa using hgf)]
      by_cases hg : g.category = c
      · have hne : f.category = c → g.affix ≠ f.affix := by
          rintro hf haffix
          obtain ⟨_, _⟩ := f
          obtain ⟨_, _⟩ := g
          simp_all
        by_cases hf : f.category = c
        · simp [hg, hf, hne hf, ih]
        · simp [hg, hf, ih]
      · by_cases hf : f.category = c <;> simp [hg, hf, ih]

end Roster

/-- A pool whose groupings are views of a roster. -/
structure Lists (p : Pool) (r : Roster) : Prop where
  category : ∀ c, p.inCategory c = r.inCategory c
  source : ∀ s, p.fromSource s = r.fromSource s

namespace Lists

variable {p : Pool} {r : Roster}

theorem empty (affixes : Store Affix) : Lists { affixes } {} := ⟨fun _ => rfl, fun _ => rfl⟩

theorem add (h : p.Lists r) (i : AffixId) (source? : Option Label) :
    (p.add i source?).Lists (r.enter source? (p.filing i)) where
  category c := by
    rw [inCategory_add, h.category, Roster.inCategory_enter]
    rfl
  source s := by
    rw [fromSource_add, h.source, Roster.fromSource_enter]
    rfl

theorem insert (h : p.Lists r) (a : Affix) (source? : Option Label) :
    (p.insert a source?).2.Lists (r.enter source? ⟨a.category, p.affixes.next⟩) := by
  have hknown : (p.introduce a).2.Lists r := ⟨h.category, h.source⟩
  have hfiling : (p.introduce a).2.filing p.affixes.next = ⟨a.category, p.affixes.next⟩ := by
    simp [filing, affix, introduce]
  have hadd := hknown.add p.affixes.next source?
  rwa [hfiling] at hadd

theorem insertAll (h : p.Lists r) (source? : Option Label) (as : List Affix) :
    (p.insertAll source? as).2.Lists (r.enterAll source? (newFilings as p.affixes.next)) := by
  induction as generalizing p r with
  | nil => exact h
  | cons a as ih => exact ih (h.insert a source?)

theorem remove (h : p.Lists r) (i : AffixId) : (p.remove i).2.Lists (r.strike (p.filing i)) := by
  have hmem : i ∈ p.inCategory (p.affix i).category ↔ p.filing i ∈ r.filings := by
    rw [h.category, Roster.mem_inCategory]
    rfl
  by_cases hi : i ∈ p.inCategory (p.affix i).category
  · rw [Roster.strike, if_pos (hmem.mp hi)]
    refine ⟨fun c => ?_, fun s => ?_⟩
    · rw [inCategory_remove hi, h.category]
      exact (Roster.inCategory_erase (p.filing i) r.filings c).symm
    · rw [fromSource_remove hi, h.source, Roster.fromSource, Roster.fromSource, List.filter_map,
        List.filter_comm]
      rfl
  · rw [remove_of_not_mem hi, Roster.strike, if_neg (hmem.not.mp hi)]
    exact h

theorem removeSource (h : p.Lists r) (s : Label) : (p.removeSource s).2.Lists (r.release p s) where
  category c := by
    rw [inCategory_removeSource, h.category, h.source, Roster.inCategory, Roster.inCategory,
      List.filter_map, Roster.release, List.filter_filter, List.filter_filter]
    refine congrArg (List.map _) (List.filter_congr fun f _ => ?_)
    by_cases hc : f.category = c
    · simp [mem_map_filing, hc, imp_iff_not_or]
    · simp [hc]
  source t := by
    rw [fromSource_removeSource, h.source, Roster.fromSource, Roster.fromSource, Roster.release,
      List.filter_filter]
    by_cases hst : s = t
    · subst hst
      simp
    · rw [if_neg hst]
      refine congrArg (List.map _) (List.filter_congr fun held _ => ?_)
      by_cases ht : held.1 = t
      · simp [ht, Ne.symm hst]
      · simp [ht]

end Lists

namespace Edit

/-- What an edit files. -/
def files : Edit σ → Pool → List Filing
  | add i _, p => [p.filing i]
  | register item, p => newFilings item.affixes p.affixes.next
  | grant template g, p =>
    match (template.rerolled g).answer with
    | .ok a => newFilings [a] p.affixes.next
    | .error _ => []
  | _, _ => []

/-- The source under which an edit adds. -/
def source? : Edit σ → Option Label
  | add _ source? => source?
  | register item => some item.id
  | grant _ _ => some (.text runSource)
  | _ => none

/-- What an edit leaves of a roster. -/
def leaves : Edit σ → Pool → Roster → Roster
  | remove i, p, r => r.strike (p.filing i)
  | removeSource source, p, r => r.release p source
  | unregister item, p, r => r.release p item.id
  | clear, _, _ => {}
  | _, _, r => r

def enroll (e : Edit σ) (p : Pool) (r : Roster) : Roster :=
  (e.leaves p r).enterAll e.source? (e.files p)

end Edit

/-- The roster that a run of edits from a pool on makes of a roster. -/
def enroll : Pool → Roster → List (Edit σ) → Roster
  | _, r, [] => r
  | p, r, e :: es => (e.apply p).enroll (e.enroll p r) es

/-- All that a run files, one addition after the other. -/
def files : Pool → List (Edit σ) → List Filing
  | _, [] => []
  | p, e :: es => e.files p ++ (e.apply p).files es

variable {p : Pool} {r : Roster}

theorem Lists.apply (h : p.Lists r) (e : Edit σ) : (e.apply p).Lists (e.enroll p r) := by
  cases e with
  | introduce a => exact ⟨h.category, h.source⟩
  | write i a => exact ⟨h.category, h.source⟩
  | add i source? => exact h.add i source?
  | remove i => exact h.remove i
  | removeSource source => exact h.removeSource source
  | register item => exact h.insertAll (some item.id) item.affixes
  | unregister item => exact h.removeSource item.id
  | grant template g =>
    simp only [Edit.apply, Edit.enroll, Edit.files, grant]
    cases (template.rerolled g).answer with
    | ok a => exact h.insert a (some (.text runSource))
    | error e => exact h
  | clear => exact ⟨fun _ => rfl, fun _ => rfl⟩

theorem Lists.after (h : p.Lists r) (es : List (Edit σ)) : (p.after es).Lists (p.enroll r es) := by
  induction es generalizing p r with
  | nil => exact h
  | cons e es ih => exact ih (h.apply e)

omit [Generator σ] in
theorem Edit.filings_leaves_sublist (e : Edit σ) (p : Pool) (r : Roster) :
    (e.leaves p r).filings.Sublist r.filings := by
  cases e with
  | remove i => exact r.filings_strike_sublist _
  | removeSource source => exact List.filter_sublist
  | unregister item => exact List.filter_sublist
  | clear => exact List.nil_sublist _
  | _ => exact List.Sublist.refl _

/-- What is filed stands in the order of the additions. -/
theorem filings_enroll_sublist (p : Pool) (r : Roster) (es : List (Edit σ)) :
    (p.enroll r es).filings.Sublist (r.filings ++ p.files es) := by
  induction es generalizing p r with
  | nil => exact List.sublist_append_left _ _
  | cons e es ih =>
    refine (ih (e.apply p) (e.enroll p r)).trans ?_
    rw [Edit.enroll, Roster.filings_enterAll, List.append_assoc]
    exact (e.filings_leaves_sublist p r).append (List.Sublist.refl _)

end Pool

end AffixRules
