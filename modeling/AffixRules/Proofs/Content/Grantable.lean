import AffixRules.Proofs.Affix.Reroll
import AffixRules.Proofs.Content.Templates
import AffixRules.Proofs.Offer.Picks
import AffixRules.Proofs.Pool.Lookup

/-! Offers of clean content can be granted. The check of the content rules out what would break a
grant: an offer without a template, and a template whose range is reversed. -/
namespace AffixRules

namespace Pool

variable {σ : Type} [Generator σ]

theorem exists_grant (hσ : Generator.InBounds σ) {a : Affix} (ha : a.rangeWarnings = [])
    (p : Pool) (g : σ) :
    ∃ value i q g', p.grant a g = .done i (q, g') ∧
      p.Gains i (a.withValue value) (.text runSource) q := by
  obtain ⟨value, g', hroll⟩ := Affix.exists_rerolled hσ ha g
  refine ⟨value, _, _, g', ?_, p.gains_insert (a.withValue value) (.text runSource)⟩
  rw [grant, hroll]
  rfl

end Pool

namespace Library

variable {l : Library}

/-- What the check of the content checks: the templates that are kept, and that every entry of the
catalog has one. -/
theorem warnings_eq_nil_iff :
    l.warnings = [] ↔ (∀ a ∈ l.templates.values, a.warnings = []) ∧
      ∀ e ∈ l.catalog, e.warnings = [] ∧ ∃ a, l.templates.value? e.affixId = some a := by
  have hentry (e : OfferEntry) : l.entryWarnings e = [] ↔
      e.warnings = [] ∧ ∃ a, l.templates.value? e.affixId = some a := by
    rw [entryWarnings, List.append_eq_nil_iff]
    cases l.templates.value? e.affixId <;> simp
  simp only [warnings, List.append_eq_nil_iff, List.flatMap_eq_nil_iff, hentry]

/-- Where no id is repeated, an id has at most one definition. -/
theorem definitions_eq_of_mem (hids : (l.affixes.map (·.id)).Nodup) {id : Label} {a : Affix}
    (ha : a ∈ l.definitions id) : l.definitions id = [a] := by
  have hnodup : ((l.definitions id).map (·.id)).Nodup :=
    hids.sublist (List.filter_sublist.map _)
  have hid : ∀ b ∈ l.definitions id, b.id = id := fun b => l.id_of_mem_definitions
  cases hdefs : l.definitions id with
  | nil => simp [hdefs] at ha
  | cons b bs =>
    rw [hdefs, List.map_cons, List.nodup_cons] at hnodup
    rw [hdefs] at ha hid
    obtain ⟨hb, hbs⟩ := List.forall_mem_cons.mp hid
    have hnil : bs = [] := List.eq_nil_iff_forall_not_mem.mpr fun c hc =>
      hnodup.1 (List.mem_map.mpr ⟨c, hc, (hbs c hc).trans hb.symm⟩)
    subst hnil
    rw [List.mem_singleton.mp ha]

/-- Where no id is repeated, the template that is handed out is the one that is checked. -/
theorem template?_of_value? (hids : (l.affixes.map (·.id)).Nodup) {id : Label} {a : Affix}
    (h : l.templates.value? id = some a) : l.template? id = some a ∧ a ∈ l.templates.values := by
  have hlast : (l.definitions id).getLast? = some a := (l.value?_templates id).symm.trans h
  have hmem : a ∈ l.definitions id := List.mem_of_getLast? hlast
  constructor
  · rw [template?_eq_head?, definitions_eq_of_mem hids hmem]
    rfl
  · rw [mem_values_templates, l.id_of_mem_definitions hmem]
    exact hlast

/-- Of clean content, every entry of the catalog has a template without warnings. -/
theorem exists_template (hids : (l.affixes.map (·.id)).Nodup) (hclean : l.warnings = [])
    {e : OfferEntry} (he : e ∈ l.catalog) :
    ∃ a, l.template? e.affixId = some a ∧ a.warnings = [] := by
  obtain ⟨htemplates, hcatalog⟩ := warnings_eq_nil_iff.mp hclean
  obtain ⟨-, a, ha⟩ := hcatalog e he
  obtain ⟨hfirst, hmem⟩ := template?_of_value? hids ha
  exact ⟨a, hfirst, htemplates a hmem⟩

end Library

theorem RunState.exists_rollOffers {σ : Type} [Generator σ] (s : RunState)
    (catalog : List OfferEntry) {count : Int} (hcount : 0 ≤ count) (g : σ) :
    ∃ offers h, s.rollOffers catalog count g = .done offers h ∧ ∀ e ∈ offers, e ∈ catalog := by
  have hroll : ∃ offers h, s.rollOffers catalog count g = .done offers h := by
    rw [rollOffers, if_neg (Int.not_lt.mpr hcount)]
    exact ⟨_, _, rfl⟩
  obtain ⟨offers, h, hroll⟩ := hroll
  exact ⟨offers, h, hroll, fun e he =>
    (offerable_of_mem_eligible (mem_eligible_of_mem_offers hroll he)).1⟩

variable {σ τ : Type} [Generator σ] [Generator τ]

/-- Where the content repeats no id and passes its check without a warning, every entry of every
batch of offers has a template without warnings, and with any generator that draws within bounds it
is granted to any pool, which gains this template with a value of its own. -/
theorem offers_of_clean_content_are_granted {l : Library} (hids : (l.affixes.map (·.id)).Nodup)
    (hclean : l.warnings = []) (s : RunState) {count : Int} (hcount : 0 ≤ count) (g : σ)
    (hτ : Generator.InBounds τ) :
    ∃ offers h, s.rollOffers l.catalog count g = .done offers h ∧
      ∀ e ∈ offers, ∃ a, l.template? e.affixId = some a ∧ a.warnings = [] ∧
        ∀ (p : Pool) (k : τ), ∃ value i q k', p.grant a k = .done i (q, k') ∧
          p.Gains i (a.withValue value) (.text Pool.runSource) q := by
  obtain ⟨offers, h, hroll, hmem⟩ := s.exists_rollOffers l.catalog hcount g
  refine ⟨offers, h, hroll, fun e he => ?_⟩
  obtain ⟨a, htemplate, hwarnings⟩ := Library.exists_template hids hclean (hmem e he)
  have hrange : a.rangeWarnings = [] := (a.warnings_eq_nil_iff.mp hwarnings).2.2.2.1
  exact ⟨a, htemplate, hwarnings, fun p k => Pool.exists_grant hτ hrange p k⟩

/-- Three files that load: a whole range, a range that is not whole and an affix without a range. -/
theorem offers_of_clean_content_are_granted_from_three_files :
    let diceFile : Document := .object [("affixes", .list [.object
      [("id", .text "ember"), ("name", .text "Ember"), ("category", .text "dice"),
        ("effect_type", .text "flat_bonus"), ("effect_value", .int 2),
        ("value_range", .list [.int 1, .int 3])]])]
    let itemFile : Document := .object [("affixes", .list [.object
      [("id", .text "frost"), ("name", .text "Frost"), ("category", .text "stat_flat"),
        ("stat_name", .text "armor"), ("value_range", .list [.float 0.25, .float 1.5])]])]
    let runFile : Document := .object [("affixes", .list [.object
      [("id", .text "storm"), ("name", .text "Storm"), ("effect_value", .int 7)]])]
    let catalogList : Document := .list [
      .object [("affix_id", .text "storm"), ("max_stacks", .int 2)],
      .object [("affix_id", .text "ember"), ("rarity", .text "rare")],
      .object [("affix_id", .text "frost")]]
    ∃ dice item run catalog, Affix.allOfDocument diceFile = .ok dice ∧
      Affix.allOfDocument itemFile = .ok item ∧ Affix.allOfDocument runFile = .ok run ∧
      OfferEntry.allOfDocument catalogList = .ok catalog ∧
      let l : Library := { dice, item, run, catalog }
      (l.affixes.map (·.id)).Nodup ∧ l.warnings = [] ∧ Generator.InBounds Turns ∧
        ∃ offers h, RunState.rollOffers {} l.catalog 3 ({ draws := [0.5] } : Script) =
          .done offers h ∧ offers.length = 3 ∧
          ∀ e ∈ offers, ∃ a, l.template? e.affixId = some a ∧ a.warnings = [] ∧
            ∀ (p : Pool) (k : Turns), ∃ value i q k', p.grant a k = .done i (q, k') ∧
              p.Gains i (a.withValue value) (.text Pool.runSource) q := by
  intro diceFile itemFile runFile catalogList
  let ember : Affix :=
    { id := "ember", name := "Ember", category := .dice
      effect := { kind := .flatBonus, value := 2 }, range? := some (1, 3) }
  let frost : Affix :=
    { id := "frost", name := "Frost", category := .statFlat, statName := "armor"
      range? := some (0.25, 1.5) }
  let storm : Affix := { id := "storm", name := "Storm", effect := { value := 7 } }
  let catalog : List OfferEntry :=
    [{ affixId := "storm", maxStacks := 2 }, { affixId := "ember", rarity := .rare },
      { affixId := "frost" }]
  refine ⟨[ember], [frost], [storm], catalog, by decide +kernel, by decide +kernel,
    by decide +kernel, by decide +kernel, ?_⟩
  intro l
  have hids : (l.affixes.map (·.id)).Nodup := by decide +kernel
  have hclean : l.warnings = [] := by decide +kernel
  let g : Script := { draws := [0.5] }
  obtain ⟨offers, h, hroll, hgranted⟩ :=
    offers_of_clean_content_are_granted hids hclean {} (by decide : (0 : Int) ≤ 3) g
      Turns.inBounds
  refine ⟨hids, hclean, Turns.inBounds, offers, h, hroll, ?_, hgranted⟩
  have hlength : ((RunState.rollOffers {} l.catalog 3 g).answer.map List.length) = .ok 3 := by
    decide +kernel
  rw [hroll] at hlength
  exact Except.ok.inj hlength

end AffixRules
