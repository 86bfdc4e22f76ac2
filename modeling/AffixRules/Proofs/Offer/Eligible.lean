import AffixRules.Offer.Sample
import Mathlib.Data.List.Nodup

/-! The entries that may be offered. Of the entries that pass every test of their own, those that
are the first of their affix, in catalog order. -/
namespace AffixRules

/-- The first entry of each affix. -/
def firstOfEach : List OfferEntry → List OfferEntry
  | [] => []
  | e :: es => e :: (firstOfEach es).filter fun f => f.affixId ≠ e.affixId

theorem nodup_ids_firstOfEach (es : List OfferEntry) :
    ((firstOfEach es).map (·.affixId)).Nodup := by
  induction es with
  | nil => exact List.nodup_nil
  | cons e es ih =>
    rw [firstOfEach, List.map_cons, List.nodup_cons]
    constructor
    · intro h
      obtain ⟨f, hf, hid⟩ := List.mem_map.mp h
      have hne : f.affixId ≠ e.affixId := by simpa using (List.mem_filter.mp hf).2
      exact hne hid
    · exact ih.sublist (List.filter_sublist.map _)

/-- An entry is the first of its affix where no entry before it is of that affix. -/
theorem mem_firstOfEach {es : List OfferEntry} {e : OfferEntry} :
    e ∈ firstOfEach es ↔
      ∃ before after, es = before ++ e :: after ∧ ∀ f ∈ before, f.affixId ≠ e.affixId := by
  induction es with
  | nil => simp [firstOfEach]
  | cons d es ih =>
    rw [firstOfEach, List.mem_cons, List.mem_filter, ih]
    constructor
    · rintro (rfl | ⟨⟨before, after, rfl, hbefore⟩, hne⟩)
      · exact ⟨[], es, rfl, by simp⟩
      · refine ⟨d :: before, after, rfl, ?_⟩
        have hd : d.affixId ≠ e.affixId := fun he => by simp [he] at hne
        exact List.forall_mem_cons.mpr ⟨hd, hbefore⟩
    · rintro ⟨before, after, hes, hbefore⟩
      cases before with
      | nil =>
        cases hes
        exact .inl rfl
      | cons c before =>
        cases hes
        obtain ⟨hc, hbefore⟩ := List.forall_mem_cons.mp hbefore
        exact .inr ⟨⟨before, after, rfl, hbefore⟩, by simpa using hc.symm⟩

/-- The entry excludes a tag of the other. -/
def OfferEntry.Excludes (b a : OfferEntry) : Prop := ∃ tag ∈ b.excludes, tag ∈ a.tags

instance (b a : OfferEntry) : Decidable (b.Excludes a) :=
  inferInstanceAs (Decidable (∃ tag ∈ b.excludes, tag ∈ a.tags))

namespace RunState

/-- No chosen entry of the catalog has a tag that the entry excludes, its affix is below its limit,
and its weight is not zero or less. -/
def Offerable (s : RunState) (catalog : List OfferEntry) (e : OfferEntry) : Prop :=
  (∀ c ∈ catalog, 0 < s.stackCount c.affixId → ¬ e.Excludes c) ∧
    s.stackCount e.affixId < e.maxStacks ∧ ¬ e.effectiveWeight ≤ 0

instance (s : RunState) (catalog : List OfferEntry) : DecidablePred (s.Offerable catalog) :=
  fun _ => inferInstanceAs (Decidable (_ ∧ _ ∧ _))

theorem mem_chosenTags {s : RunState} {catalog : List OfferEntry} {tag : String} :
    tag ∈ s.chosenTags catalog ↔
      ∃ c ∈ catalog, 0 < s.stackCount c.affixId ∧ tag ∈ c.tags := by
  simp [chosenTags, List.mem_eraseDups, and_assoc]

theorem mayOffer_iff (s : RunState) (catalog : List OfferEntry) (e : OfferEntry) :
    s.mayOffer (s.chosenTags catalog) e = true ↔ s.Offerable catalog e := by
  simp only [mayOffer, Offerable, isFull, Bool.and_eq_true, Bool.not_eq_true',
    decide_eq_false_iff_not, List.any_eq_false, List.contains_iff_mem, mem_chosenTags, not_exists,
    not_and, Int.not_le, and_assoc]
  constructor
  · rintro ⟨hexcl, hrest⟩
    exact ⟨fun c hc hpos ⟨tag, ht, hcarried⟩ => hexcl tag ht c hc hpos hcarried, hrest⟩
  · rintro ⟨hexcl, hrest⟩
    exact ⟨fun tag ht c hc hpos hcarried => hexcl c hc hpos ⟨tag, ht, hcarried⟩, hrest⟩

/-- The search keeps what it found and adds the first entries of the other affixes. -/
theorem foldl_search (may : OfferEntry → Bool) (es found : List OfferEntry) :
    es.foldl (fun found e =>
      if found.any fun f => f.affixId = e.affixId then found
      else if may e then found ++ [e] else found) found =
      found ++ (firstOfEach (es.filter may)).filter fun e =>
        !found.any fun f => f.affixId = e.affixId := by
  induction es generalizing found with
  | nil => simp [firstOfEach]
  | cons e es ih =>
    rw [List.foldl_cons]
    by_cases hmay : may e = true
    · rw [List.filter_cons_of_pos hmay, firstOfEach]
      by_cases hin : (found.any fun f => f.affixId = e.affixId) = true
      · -- the affix was found before: its own first entry is filtered out again
        rw [if_pos hin, ih, List.filter_cons_of_neg (by simp [hin]), List.filter_filter]
        congr 1
        refine List.filter_congr fun f _ => ?_
        by_cases hid : f.affixId = e.affixId
        · simp [hid, hin]
        · simp [hid]
      · rw [if_neg hin, if_pos hmay, ih, List.filter_cons_of_pos (by simpa using hin),
          List.filter_filter, List.append_assoc, List.singleton_append]
        congr 2
        refine List.filter_congr fun f _ => ?_
        simp [eq_comm, Bool.and_comm]
    · rw [List.filter_cons_of_neg hmay, ← ih, if_neg hmay, ite_self]

theorem eligible_eq (s : RunState) (catalog : List OfferEntry) :
    s.eligible catalog = firstOfEach (catalog.filter fun e => s.Offerable catalog e) := by
  have hmay : s.mayOffer (s.chosenTags catalog) = fun e => decide (s.Offerable catalog e) := by
    funext e
    rw [Bool.eq_iff_iff, mayOffer_iff, decide_eq_true_iff]
  simpa [eligible, hmay] using foldl_search (s.mayOffer (s.chosenTags catalog)) catalog []

/-- An entry is eligible at its place in the catalog where it is offerable and no offerable entry of
its affix stands before it. -/
theorem mem_eligible {s : RunState} {catalog : List OfferEntry} {e : OfferEntry} :
    e ∈ s.eligible catalog ↔ ∃ before after, catalog = before ++ e :: after ∧
      s.Offerable catalog e ∧ ∀ f ∈ before, s.Offerable catalog f → f.affixId ≠ e.affixId := by
  rw [eligible_eq, mem_firstOfEach]
  constructor
  · rintro ⟨kept, rest, hfilter, hkept⟩
    obtain ⟨before, tail, rfl, hb, ht⟩ := List.filter_eq_append_iff.mp hfilter
    obtain ⟨gap, after, rfl, hgap, he, -⟩ := List.filter_eq_cons_iff.mp ht
    refine ⟨before ++ gap, after, by simp, by simpa using he, fun f hf hoff => ?_⟩
    obtain hf | hf := List.mem_append.mp hf
    · exact hkept f (hb ▸ List.mem_filter.mpr ⟨hf, by simpa using hoff⟩)
    · exact absurd hoff (by simpa using hgap f hf)
  · rintro ⟨before, after, hc, hoff, hbefore⟩
    refine ⟨before.filter fun f => s.Offerable catalog f,
      after.filter fun f => s.Offerable catalog f, ?_, fun f hf => ?_⟩
    · have hsplit := congrArg (List.filter fun f => s.Offerable catalog f) hc
      rwa [List.filter_append, List.filter_cons_of_pos (by simpa using hoff)] at hsplit
    · obtain ⟨hf, hof⟩ := List.mem_filter.mp hf
      exact hbefore f hf (by simpa using hof)

theorem offerable_of_mem_eligible {s : RunState} {catalog : List OfferEntry} {e : OfferEntry}
    (h : e ∈ s.eligible catalog) : e ∈ catalog ∧ s.Offerable catalog e := by
  obtain ⟨before, after, rfl, hoff, -⟩ := mem_eligible.mp h
  exact ⟨by simp, hoff⟩

end RunState

end AffixRules
