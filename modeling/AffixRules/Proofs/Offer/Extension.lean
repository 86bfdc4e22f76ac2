import AffixRules.Proofs.Offer.Sample

/-! How a batch depends on the count and on the catalog. More offers are drawn after the fewer ones,
and entries that cannot be offered may stand in the catalog or not. -/
namespace AffixRules

/-- What is drawn first does not depend on how much is drawn after it. -/
theorem sample_take {σ β : Type} [Generator σ] (weight : β → Float) {k n : Nat} (hkn : k ≤ n)
    (cs : List β) (g : σ) : (sample weight k cs g).1 = (sample weight n cs g).1.take k := by
  induction k generalizing n cs g with
  | zero => rfl
  | succ k ih =>
    obtain ⟨m, rfl⟩ := Nat.exists_eq_add_of_lt hkn
    by_cases hcs : cs = []
    · subst hcs
      rfl
    · obtain ⟨x, rest, -, hstep⟩ := sample_step weight hcs g
      rw [hstep, hstep, List.take_succ_cons]
      exact congrArg (x :: ·) (ih (Nat.le_add_right k m) rest _)

/-- The last list has the entries of the other two, those of each in their order. -/
inductive Interleaved : List OfferEntry → List OfferEntry → List OfferEntry → Prop
  | nil : Interleaved [] [] []
  | left {e : OfferEntry} {xs ys zs : List OfferEntry} (rest : Interleaved xs ys zs) :
      Interleaved (e :: xs) ys (e :: zs)
  | right {e : OfferEntry} {xs ys zs : List OfferEntry} (rest : Interleaved xs ys zs) :
      Interleaved xs (e :: ys) (e :: zs)

namespace Interleaved

variable {xs ys zs : List OfferEntry}

theorem mem_iff (h : Interleaved xs ys zs) {e : OfferEntry} : e ∈ zs ↔ e ∈ xs ∨ e ∈ ys := by
  induction h with
  | nil => simp
  | left _ ih => rw [List.mem_cons, List.mem_cons, ih, or_assoc]
  | right _ ih => rw [List.mem_cons, List.mem_cons, ih, or_left_comm]

/-- A test that all entries of one list fail leaves those of the other. -/
theorem filter_eq (h : Interleaved xs ys zs) {p : OfferEntry → Bool}
    (hp : ∀ e ∈ ys, p e = false) : zs.filter p = xs.filter p := by
  induction h with
  | nil => rfl
  | left _ ih => rw [List.filter_cons, List.filter_cons, ih hp]
  | right _ ih =>
    obtain ⟨he, hrest⟩ := List.forall_mem_cons.mp hp
    rw [List.filter_cons_of_neg (by simp [he]), ih hrest]

end Interleaved

namespace RunState

variable {σ : Type} [Generator σ] {s : RunState} {catalog extra larger : List OfferEntry}

/-- Of an affix that was not chosen, an entry is not offered for one of three reasons. -/
theorem not_offerable_iff {e : OfferEntry} (hs : s.stackCount e.affixId = 0) :
    ¬ s.Offerable catalog e ↔
      (∃ c ∈ catalog, 0 < s.stackCount c.affixId ∧ e.Excludes c) ∨ e.maxStacks ≤ 0 ∨
        e.effectiveWeight ≤ 0 := by
  simp only [Offerable, hs, not_and_or, not_forall, not_not, Int.not_lt,
    exists_prop]

/-- Entries of affixes that were not chosen exclude no others. -/
theorem offerable_interleaved (h : Interleaved catalog extra larger)
    (hextra : ∀ e ∈ extra, s.stackCount e.affixId ≤ 0) (e : OfferEntry) :
    s.Offerable larger e ↔ s.Offerable catalog e := by
  refine and_congr_left fun _ => ?_
  constructor
  · exact fun hall c hc => hall c (h.mem_iff.mpr (.inl hc))
  · intro hall c hc hchosen
    obtain hc | hc := h.mem_iff.mp hc
    · exact hall c hc hchosen
    · have hnot := hextra c hc
      omega

theorem eligible_interleaved (h : Interleaved catalog extra larger)
    (hextra : ∀ e ∈ extra, s.stackCount e.affixId ≤ 0 ∧ ¬ s.Offerable catalog e) :
    s.eligible larger = s.eligible catalog := by
  have hsame := s.offerable_interleaved h fun e he => (hextra e he).1
  have hfilter : (larger.filter fun e => s.Offerable catalog e) =
      catalog.filter fun e => s.Offerable catalog e :=
    h.filter_eq fun e he => by simpa using (hextra e he).2
  simp only [eligible_eq, hsame, hfilter]

theorem rollOffers_of_nonneg (s : RunState) (catalog : List OfferEntry) {count : Int}
    (hcount : 0 ≤ count) (g : σ) :
    let offers := (sample OfferEntry.effectiveWeight count.toNat (s.eligible catalog) g).1
    s.rollOffers catalog count g =
      .done offers ((fun h : σ => (Generator.fraction h).2)^[offers.length] g) := by
  intro offers
  rw [rollOffers, if_neg (Int.not_lt.mpr hcount), ← sample_draws]

end RunState

variable {σ : Type} [Generator σ]

/-- A batch starts with what a smaller count offers on the same draws, and offers no more than that
where there is no more. Entries of affixes that were not chosen may stand anywhere in the catalog if
they cannot be offered, since they exclude a chosen tag, allow no stack or have no weight. -/
theorem larger_batch_extends_smaller (s : RunState) (catalog : List OfferEntry) (g : σ) :
    (∀ k n : Int, 0 ≤ k → k ≤ n → ∃ offers,
      s.rollOffers catalog n g =
        .done offers ((fun h : σ => (Generator.fraction h).2)^[offers.length] g) ∧
      s.rollOffers catalog k g =
        .done (offers.take k.toNat)
          ((fun h : σ => (Generator.fraction h).2)^[(offers.take k.toNat).length] g)) ∧
    (∀ e : OfferEntry, s.stackCount e.affixId = 0 →
      (¬ s.Offerable catalog e ↔
        (∃ c ∈ catalog, 0 < s.stackCount c.affixId ∧ e.Excludes c) ∨ e.maxStacks ≤ 0 ∨
          e.effectiveWeight ≤ 0)) ∧
    ∀ extra larger, Interleaved catalog extra larger →
      (∀ e ∈ extra, s.stackCount e.affixId ≤ 0 ∧ ¬ s.Offerable catalog e) →
      ∀ count, s.rollOffers larger count g = s.rollOffers catalog count g := by
  refine ⟨fun k n hk hkn => ?_, fun e => RunState.not_offerable_iff, ?_⟩
  · have hprefix := sample_take OfferEntry.effectiveWeight (Int.toNat_le_toNat hkn)
      (s.eligible catalog) g
    refine ⟨_, s.rollOffers_of_nonneg catalog (Int.le_trans hk hkn) g, ?_⟩
    rw [s.rollOffers_of_nonneg catalog hk g, hprefix]
  · intro extra larger h hextra count
    rw [RunState.rollOffers, RunState.rollOffers, RunState.eligible_interleaved h hextra]

/-- An entry without weight before one of the same affix, one that excludes a chosen tag and one
without stacks change nothing, and one offer is the first of three. -/
theorem larger_batch_extends_smaller_past_blanks :
    let frost : OfferEntry := { affixId := "frost", tags := ["cold"], maxStacks := 2 }
    let ember : OfferEntry := { affixId := "ember", rarity := .rare }
    let spark : OfferEntry := { affixId := "spark", weight := 3 }
    let ash : OfferEntry := { affixId := "ember", weight := 0 }
    let flame : OfferEntry := { affixId := "flame", excludes := ["cold"] }
    let husk : OfferEntry := { affixId := "husk", maxStacks := 0 }
    let s : RunState := RunState.track {} frost
    let g : Script := { draws := [0.95, 0.2, 0.5] }
    ∃ offers, s.rollOffers [frost, ember, spark] 3 g = .done offers { g with used := 3 } ∧
      s.rollOffers [ash, frost, flame, ember, husk, spark] 1 g =
        .done (offers.take 1) { g with used := 1 } := by
  intro frost ember spark ash flame husk s g
  have hlarger : Interleaved [frost, ember, spark] [ash, flame, husk]
      [ash, frost, flame, ember, husk, spark] :=
    .right (.left (.right (.left (.right (.left .nil)))))
  obtain ⟨hextends, hreasons, hpasses⟩ := larger_batch_extends_smaller s [frost, ember, spark] g
  obtain ⟨offers, hthree, hone⟩ := hextends 1 3 (by decide) (by decide)
  have hash := (hreasons ash (by decide)).mpr (.inr (.inr (by decide +kernel)))
  have hflame := (hreasons flame (by decide)).mpr (.inl (by decide))
  have hhusk := (hreasons husk (by decide)).mpr (.inr (.inl (by decide)))
  have hextra : ∀ e ∈ [ash, flame, husk],
      s.stackCount e.affixId ≤ 0 ∧ ¬ s.Offerable [frost, ember, spark] e := by
    simp only [List.forall_mem_cons]
    exact ⟨⟨by decide, hash⟩, ⟨by decide, hflame⟩, ⟨by decide, hhusk⟩, by simp⟩
  have hlength : offers.length = 3 := by
    have hroll : (s.rollOffers [frost, ember, spark] 3 g).answer.map List.length = .ok 3 := by
      decide +kernel
    rw [hthree] at hroll
    simpa [Outcome.done, Except.map] using hroll
  refine ⟨offers, ?_, ?_⟩
  · rw [hthree, hlength]
    rfl
  · rw [hpasses _ _ hlarger hextra, hone, List.length_take, hlength]
    rfl

end AffixRules
