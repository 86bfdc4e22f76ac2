import AffixRules.Proofs.Offer.Sample

/-! Runs of offers and picks. What was picked is kept beside the state, as the state itself has only
the names. -/
namespace AffixRules

/-- The states that a run of rounds reaches, with the entries picked on the way: in each round a
batch is rolled, and one of its entries is picked or the batch is skipped. -/
inductive Picked (σ : Type) [Generator σ] (catalog : List OfferEntry) :
    RunState → List OfferEntry → Prop
  | start : Picked σ catalog {} []
  | pick {s : RunState} {picks offers : List OfferEntry} {e : OfferEntry} (count : Int) (g h : σ)
      (before : Picked σ catalog s picks) (roll : s.rollOffers catalog count g = .done offers h)
      (mem : e ∈ offers) : Picked σ catalog (s.track e) (picks ++ [e])
  | skip {s : RunState} {picks offers : List OfferEntry} (count : Int) (g h : σ)
      (before : Picked σ catalog s picks) (roll : s.rollOffers catalog count g = .done offers h) :
      Picked σ catalog s.skip picks

namespace RunState

variable {σ : Type} [Generator σ] {s : RunState} {catalog picks : List OfferEntry}

theorem mem_eligible_of_mem_offers {count : Int} {g h : σ} {offers : List OfferEntry}
    {e : OfferEntry} (hroll : s.rollOffers catalog count g = .done offers h) (he : e ∈ offers) :
    e ∈ s.eligible catalog := by
  rw [rollOffers] at hroll
  split at hroll
  · cases hroll
  · cases hroll
    exact (sample_subperm _ _ _ _).subset he

theorem stackCount_track (s : RunState) (e : OfferEntry) (id : String) :
    (s.track e).stackCount id = s.stackCount id + if e.affixId = id then 1 else 0 := by
  by_cases h : e.affixId = id
  · subst h
    simp [stackCount, track]
  · simp [stackCount, track, h]

/-- The state counts its picks, each was below its limit, and none excluded what was chosen. -/
structure Orderly (s : RunState) (catalog picks : List OfferEntry) : Prop where
  order : s.order = picks.map (·.affixId)
  mem : ∀ e ∈ picks, e ∈ catalog
  count : ∀ id, s.stackCount id = s.order.count id
  limit : ∀ id, 0 < s.stackCount id →
    ∃ e ∈ catalog, e.affixId = id ∧ s.stackCount id ≤ e.maxStacks
  apart : picks.Pairwise fun a b => ∀ c ∈ catalog, c.affixId = a.affixId → ¬ b.Excludes c

theorem orderly_start (catalog : List OfferEntry) : Orderly {} catalog [] where
  order := rfl
  mem := fun e he => nomatch he
  count := fun id => rfl
  limit := fun id hpos => absurd hpos (by simp [stackCount])
  apart := List.Pairwise.nil

theorem Orderly.skip (hs : s.Orderly catalog picks) : s.skip.Orderly catalog picks :=
  ⟨hs.order, hs.mem, hs.count, hs.limit, hs.apart⟩

/-- What was picked counts as chosen. -/
theorem Orderly.stackCount_pos (hs : s.Orderly catalog picks) {a : OfferEntry} (ha : a ∈ picks) :
    0 < s.stackCount a.affixId := by
  have hid : a.affixId ∈ s.order := hs.order ▸ List.mem_map_of_mem ha
  have hcount := List.count_pos_iff.mpr hid
  rw [hs.count]
  omega

theorem Orderly.track (hs : s.Orderly catalog picks) {e : OfferEntry}
    (he : e ∈ s.eligible catalog) : (s.track e).Orderly catalog (picks ++ [e]) := by
  obtain ⟨hmem, hexclude, hbelow, -⟩ := offerable_of_mem_eligible he
  constructor
  · have horder : (s.track e).order = s.order ++ [e.affixId] := rfl
    rw [horder, hs.order, List.map_append]
    rfl
  · intro f hf
    obtain hf | hf := List.mem_append.mp hf
    · exact hs.mem f hf
    · exact List.mem_singleton.mp hf ▸ hmem
  · intro id
    have horder : (s.track e).order = s.order ++ [e.affixId] := rfl
    rw [horder, List.count_append, List.count_singleton, stackCount_track, hs.count]
    by_cases hid : e.affixId = id <;> simp [hid]
  · intro id hpos
    rw [stackCount_track] at hpos ⊢
    by_cases hid : e.affixId = id
    · subst hid
      have hle : s.stackCount e.affixId + 1 ≤ e.maxStacks := by omega
      exact ⟨e, hmem, rfl, by simpa using hle⟩
    · rw [if_neg hid, Int.add_zero] at hpos ⊢
      exact hs.limit id hpos
  · -- what was picked counts as chosen, and the pick was tested against all of that
    rw [List.pairwise_append]
    refine ⟨hs.apart, List.pairwise_singleton _ _, fun a ha b hb c hc hid => ?_⟩
    rw [List.mem_singleton] at hb
    subst hb
    have hchosen : 0 < s.stackCount c.affixId := hid ▸ hs.stackCount_pos ha
    exact hexclude c hc hchosen

/-- Where exclusion is mutual, picks are apart both ways. -/
theorem Orderly.mutually_apart (hs : s.Orderly catalog picks)
    (hsymm : ∀ a ∈ catalog, ∀ b ∈ catalog, b.Excludes a → a.Excludes b) :
    picks.Pairwise fun a b => ¬ b.Excludes a ∧ ¬ a.Excludes b := by
  refine hs.apart.imp_of_mem fun {a b} ha hb hab => ?_
  have hba : ¬ b.Excludes a := hab a (hs.mem a ha) rfl
  exact ⟨hba, fun h => hba (hsymm b (hs.mem b hb) a (hs.mem a ha) h)⟩

end RunState

variable {σ : Type} [Generator σ] {s : RunState} {catalog picks : List OfferEntry}

theorem Picked.orderly (h : Picked σ catalog s picks) : s.Orderly catalog picks := by
  induction h with
  | start => exact RunState.orderly_start catalog
  | pick count g h before roll mem ih =>
    exact ih.track (RunState.mem_eligible_of_mem_offers roll mem)
  | skip count g h before roll ih => exact ih.skip

/-- In every state that a run of rounds over one catalog reaches, the stacks count the picks, a
stack is within the largest limit of its affix, and no pick excluded a tag of what was picked
before; where exclusion is mutual, no two picks exclude each other's tags. -/
theorem picks_count_and_keep_apart (h : Picked σ catalog s picks) :
    (s.order = picks.map (·.affixId) ∧ ∀ e ∈ picks, e ∈ catalog) ∧
      (∀ id, s.stackCount id = s.order.count id) ∧
      (∀ id, 0 < s.stackCount id →
        ∃ most, ((catalog.filter (·.affixId = id)).map (·.maxStacks)).max? = some most ∧
          s.stackCount id ≤ most) ∧
      (picks.Pairwise fun a b => ∀ c ∈ catalog, c.affixId = a.affixId → ¬ b.Excludes c) ∧
      ((∀ a ∈ catalog, ∀ b ∈ catalog, b.Excludes a → a.Excludes b) →
        picks.Pairwise fun a b => ¬ b.Excludes a ∧ ¬ a.Excludes b) := by
  have hs := h.orderly
  refine ⟨⟨hs.order, hs.mem⟩, hs.count, fun id hpos => ?_, hs.apart, hs.mutually_apart⟩
  obtain ⟨e, he, hid, hle⟩ := hs.limit id hpos
  have hin : e.maxStacks ∈ (catalog.filter (·.affixId = id)).map (·.maxStacks) :=
    List.mem_map_of_mem (List.mem_filter.mpr ⟨he, by simpa using hid⟩)
  cases hmost : ((catalog.filter (·.affixId = id)).map (·.maxStacks)).max? with
  | none =>
    rw [List.max?_eq_none_iff] at hmost
    rw [hmost] at hin
    cases hin
  | some most =>
    have hmax := (List.max?_eq_some_iff.mp hmost).2 e.maxStacks hin
    exact ⟨most, rfl, Int.le_trans hle hmax⟩

/-- A run that picks one entry twice and skips once. -/
theorem picks_count_and_keep_apart_stacked :
    let frost : OfferEntry :=
      { affixId := "frost", tags := ["cold"], excludes := ["hot"], maxStacks := 2 }
    let ember : OfferEntry := { affixId := "ember", tags := ["hot"], excludes := ["cold"] }
    let s := (RunState.track {} frost).skip.track frost
    Picked Script [frost, ember] s [frost, frost] ∧ s.stackCount "frost" = s.order.count "frost" ∧
      [frost, frost].Pairwise fun a b => ¬ b.Excludes a ∧ ¬ a.Excludes b := by
  intro frost ember s
  let g : Script := { draws := [0.25] }
  have hone : Picked Script [frost, ember] (RunState.track {} frost) [frost] :=
    .pick 3 g _ .start rfl (by decide +kernel)
  have hskip : Picked Script [frost, ember] (RunState.track {} frost).skip [frost] :=
    .skip 3 g _ hone rfl
  have hrun : Picked Script [frost, ember] s [frost, frost] :=
    .pick 3 g _ hskip rfl (by decide +kernel)
  obtain ⟨-, hcount, -, -, hapart⟩ := picks_count_and_keep_apart hrun
  exact ⟨hrun, hcount "frost", hapart (by decide +kernel)⟩

end AffixRules
